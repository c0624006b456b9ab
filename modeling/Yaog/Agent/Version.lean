import Yaog.Controller.Registry
import Yaog.Data.LexOrder

/-!
# Versions

The comparison of version strings that the self-update, its floor and its abandoned target rest on. It
is a total preorder.
-/

namespace Yaog.Agent

open Std Data Controller

/-- `strconv.Atoi`, on a platform with 64-bit integers. -/
def atoi (text : List Char) : Option Int :=
  let (negative, digits) :=
    match text with
    | '-' :: rest => (true, rest)
    | '+' :: rest => (false, rest)
    | rest => (false, rest)
  if digits = [] ∨ ¬digits.all Char.isDigit then none
  else
    let magnitude : Nat := digits.foldl (fun value digit => 10 * value + (digit.toNat - 48)) 0
    let value : Int := if negative then -magnitude else magnitude
    if -2 ^ 63 ≤ value ∧ value < 2 ^ 63 then some value else none

def atoiOrZero (text : List Char) : Int := (atoi (trimSpace (String.ofList text)).toList).getD 0

/-- `splitVersion`: the release core and the pre-release, without a leading v and the build metadata. -/
def splitVersion (version : List Char) : List Char × List Char :=
  let version :=
    match version with
    | 'v' :: rest => rest
    | rest => rest
  let version := version.takeWhile (· ≠ '+')
  (version.takeWhile (· ≠ '-'), (version.dropWhile (· ≠ '-')).drop 1)

def compareReleaseCore (first second : List Char) : Ordering :=
  paddedLex compare 0 ((first.splitOn '.').map atoiOrZero) ((second.splitOn '.').map atoiOrZero)

def comparePreField (first second : List Char) : Ordering :=
  match atoi first, atoi second with
  | some one, some two => compare one two
  | some _, none => .lt
  | none, some _ => .gt
  | none, none => compare first second

/-- `comparePrerelease`: the shared fields decide, then the number of fields. -/
def comparePrerelease (first second : List Char) : Ordering :=
  List.compareLex comparePreField (first.splitOn '.') (second.splitOn '.')

def comparePre (first second : List Char) : Ordering :=
  if first = [] then (if second = [] then .eq else .gt)
  else if second = [] then .lt
  else comparePrerelease first second

/-- `version.Compare`. -/
def compareVersions (first second : String) : Ordering :=
  let first := trimSpace first
  let second := trimSpace second
  if first = second then .eq
  else if first = "" then .lt
  else if second = "" then .gt
  else
    let (core, pre) := splitVersion first.toList
    let (core', pre') := splitVersion second.toList
    (compareReleaseCore core core').then (comparePre pre pre')

def sameVersion (first second : String) : Bool := compareVersions first second = .eq

/-- Numbers below texts. -/
instance : TransCmp comparePreField where
  eq_swap {first second} := by
    unfold comparePreField
    cases atoi first with
    | none =>
      cases atoi second with
      | none => exact OrientedOrd.eq_swap
      | some number => rfl
    | some number =>
      cases atoi second with
      | none => rfl
      | some other => exact OrientedOrd.eq_swap
  isLE_trans {first second third} := by
    unfold comparePreField
    cases atoi first <;> cases atoi second <;> cases atoi third <;> simp <;>
      exact TransOrd.isLE_trans

instance : TransCmp comparePrerelease where
  eq_swap {first _} := (OrientedCmp.eq_swap : List.compareLex comparePreField (first.splitOn '.') _ = _)
  isLE_trans {first second third} :=
    (TransCmp.isLE_trans : (List.compareLex comparePreField (first.splitOn '.') (second.splitOn '.')).isLE → _ →
      (List.compareLex comparePreField _ (third.splitOn '.')).isLE)

instance : TransCmp compareReleaseCore where
  eq_swap {first _} :=
    (OrientedCmp.eq_swap : paddedLex compare 0 ((first.splitOn '.').map atoiOrZero) _ = _)
  isLE_trans {first second third} :=
    (TransCmp.isLE_trans : (paddedLex compare 0 ((first.splitOn '.').map atoiOrZero)
        ((second.splitOn '.').map atoiOrZero)).isLE → _ →
      (paddedLex compare 0 _ ((third.splitOn '.').map atoiOrZero)).isLE)

theorem comparePre_eq (first second : List Char) :
    comparePre first second =
      cmpTop comparePrerelease (if first = [] then none else some first) (if second = [] then none else some second) := by
  unfold comparePre
  by_cases one : first = [] <;> by_cases two : second = [] <;> simp [one, two, cmpTop]

instance : TransCmp comparePre where
  eq_swap {first second} := by
    rw [comparePre_eq, comparePre_eq]
    exact OrientedCmp.eq_swap
  isLE_trans {first second third} := by
    rw [comparePre_eq, comparePre_eq, comparePre_eq]
    exact TransCmp.isLE_trans

def compareParts (first second : List Char × List Char) : Ordering :=
  (compareReleaseCore first.1 second.1).then (comparePre first.2 second.2)

instance : TransCmp compareParts where
  eq_swap {first second} := by
    have core : compareReleaseCore first.1 second.1 = _ := OrientedCmp.eq_swap
    have pre : comparePre first.2 second.2 = _ := OrientedCmp.eq_swap
    rw [compareParts, compareParts, Ordering.swap_then, core, pre]
  isLE_trans := then_isLE_trans TransCmp.isLE_trans TransCmp.lt_of_lt_of_isLE TransCmp.lt_of_isLE_of_lt
    TransCmp.isLE_trans

def versionParts (version : String) : Option (List Char × List Char) :=
  if trimSpace version = "" then none else some (splitVersion (trimSpace version).toList)

theorem compareVersions_eq (first second : String) :
    compareVersions first second = cmpBot compareParts (versionParts first) (versionParts second) := by
  unfold compareVersions versionParts
  by_cases same : trimSpace first = trimSpace second
  · have refl (parts) : cmpBot compareParts parts parts = .eq := ReflCmp.compare_self
    simp only [same, if_true, refl]
  · by_cases one : trimSpace first = "" <;> by_cases two : trimSpace second = ""
    · exact absurd (one.trans two.symm) same
    · simp [one, two, cmpBot, Ne.symm two]
    · simp [one, two, cmpBot]
    · simp [same, one, two, cmpBot, compareParts]

instance : TransCmp compareVersions where
  eq_swap {first second} := by
    rw [compareVersions_eq, compareVersions_eq]
    exact OrientedCmp.eq_swap
  isLE_trans {first second third} := by
    rw [compareVersions_eq, compareVersions_eq, compareVersions_eq]
    exact TransCmp.isLE_trans

def compareResult : Ordering → Int
  | .lt => -1
  | .eq => 0
  | .gt => 1

theorem compareResult_swap (result : Ordering) : compareResult result.swap = -compareResult result := by
  cases result <;> rfl

theorem compareResult_nonpos {result : Ordering} : compareResult result ≤ 0 ↔ result.isLE := by
  cases result <;> decide

theorem compareResult_zero {result : Ordering} : compareResult result = 0 ↔ result = .eq := by
  cases result <;> decide

/-- `version.Compare`, with its number. -/
def versionCompare (first second : String) : Int := compareResult (compareVersions first second)

/-- The comparison is antisymmetric and transitive, and versions that compare equal compare alike. -/
theorem versionCompare_preorder (first second third : String) :
    versionCompare first second = -versionCompare second first ∧
      (versionCompare first second ≤ 0 → versionCompare second third ≤ 0 → versionCompare first third ≤ 0) ∧
      (versionCompare first second = 0 → versionCompare first third = versionCompare second third) := by
  unfold versionCompare
  refine ⟨?_, ?_, ?_⟩
  · have swapped : compareVersions first second = (compareVersions second first).swap := OrientedCmp.eq_swap
    rw [swapped, compareResult_swap]
  · simp only [compareResult_nonpos]
    exact TransCmp.isLE_trans
  · intro equal
    rw [TransCmp.congr_left (compareResult_zero.mp equal)]

attribute [irreducible] compareVersions

example : compareVersions "v2.0.0-beta.2" "2.0.0-beta.10" = .lt := by decide +kernel
example : compareVersions "1.2" "1.2.0+build.7" = .eq := by decide +kernel

end Yaog.Agent
