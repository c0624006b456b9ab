import Yaog.Controller.Registry

/-!
# Compile times

`time.Parse` for the layout of `compiled_at`.
-/

namespace Yaog.Agent

open Controller List Option

abbrev Instant := Nat

/-- `getnum`: two digits, or one if the field is not fixed. -/
def getnum (fixed : Bool) : List Char → Option (Nat × List Char)
  | [] => none
  | [tens] => if tens.isDigit && !fixed then some (tens.toNat - 48, []) else none
  | tens :: ones :: rest =>
    if !tens.isDigit then none
    else if ones.isDigit then some ((tens.toNat - 48) * 10 + (ones.toNat - 48), rest)
    else if fixed then none
    else some (tens.toNat - 48, ones :: rest)

def getYear : List Char → Option (Nat × List Char)
  | a :: b :: c :: d :: rest =>
    if [a, b, c, d].all Char.isDigit then
      some ([a, b, c, d].foldl (fun value digit => 10 * value + (digit.toNat - 48)) 0, rest)
    else none
  | _ => none

def skip (literal : Char) : List Char → Option (List Char)
  | [] => none
  | char :: rest => if char = literal then some rest else none

def isLeap (year : Nat) : Bool := year % 4 = 0 && (year % 100 ≠ 0 || year % 400 = 0)

def daysIn (month year : Nat) : Nat :=
  if month = 2 then (if isLeap year then 29 else 28)
  else if month ∈ [4, 6, 9, 11] then 30
  else 31

def getFraction : List Char → Nat × List Char
  | point :: first :: rest =>
    if (point = '.' || point = ',') && first.isDigit then
      let digits := first :: rest.takeWhile Char.isDigit
      let counted := digits.take 9
      (counted.foldl (fun value digit => 10 * value + (digit.toNat - 48)) 0 * 10 ^ (9 - counted.length),
        rest.dropWhile Char.isDigit)
    else (0, point :: first :: rest)
  | rest => (0, rest)

def inRange (low high value : Nat) : Option Unit := if low ≤ value ∧ value ≤ high then some () else none

def parseChars (text : List Char) : Option Instant := do
  let (year, text) ← getYear text
  let text ← skip '-' text
  let (month, text) ← getnum true text
  inRange 1 12 month
  let text ← skip '-' text
  let (day, text) ← getnum true text
  let text ← skip 'T' text
  let (hour, text) ← getnum false text
  inRange 0 23 hour
  let text ← skip ':' text
  let (minute, text) ← getnum true text
  inRange 0 59 minute
  let text ← skip ':' text
  let (second, text) ← getnum true text
  inRange 0 59 second
  let (nanoseconds, text) := getFraction text
  let text ← skip 'Z' text
  if text ≠ [] then none
  else do
    inRange 1 (daysIn month year) day
    some ((((((year * 13 + month) * 32 + day) * 24 + hour) * 60 + minute) * 60 + second) * 10 ^ 9 + nanoseconds)

/-- `time.Parse(compiledAtLayout, text)`. -/
def parseTime (text : String) : Option Instant := parseChars text.toList

/-- What `time.Now().UTC().Format(compiledAtLayout)` returns. -/
structure Stamp where
  text : String
  parses : (parseTime text).isSome

theorem getYear_head {text rest : List Char} {year : Nat} (read : getYear text = some (year, rest)) :
    ∃ first later, text = first :: later ∧ first.isDigit = true := by
  match text with
  | a :: b :: c :: d :: later =>
    refine ⟨a, b :: c :: d :: later, rfl, ?_⟩
    by_contra other
    simp [getYear, other] at read
  | [] | [_] | [_, _] | [_, _, _] => cases read

theorem getYear_suffix {text rest : List Char} {year : Nat} (read : getYear text = some (year, rest)) :
    rest <:+ text := by
  match text with
  | a :: b :: c :: d :: later =>
    rw [getYear] at read
    split at read
    · obtain rfl : later = rest := (Prod.mk.inj (some.inj read)).2
      exact ⟨[a, b, c, d], rfl⟩
    · cases read
  | [] | [_] | [_, _] | [_, _, _] => cases read

theorem skip_suffix {literal : Char} {text rest : List Char} (read : skip literal text = some rest) :
    rest <:+ text := by
  cases text with
  | nil => cases read
  | cons char later =>
    rw [skip] at read
    split at read
    · obtain rfl := some.inj read
      exact suffix_cons char later
    · cases read

theorem getnum_suffix {fixed : Bool} {text rest : List Char} {value : Nat}
    (read : getnum fixed text = some (value, rest)) : rest <:+ text := by
  unfold getnum at read
  split at read
  · cases read
  · next tens =>
    split at read
    · obtain rfl : [] = rest := (Prod.mk.inj (some.inj read)).2
      exact nil_suffix
    · cases read
  · next tens ones later =>
    split at read
    · cases read
    · split at read
      · obtain rfl : later = rest := (Prod.mk.inj (some.inj read)).2
        exact ⟨[tens, ones], rfl⟩
      · split at read
        · cases read
        · obtain rfl : ones :: later = rest := (Prod.mk.inj (some.inj read)).2
          exact suffix_cons tens _

theorem getFraction_suffix (text : List Char) : (getFraction text).2 <:+ text := by
  unfold getFraction
  split
  · next point first later =>
    split
    · exact ((dropWhile_suffix _).trans (suffix_cons first later)).trans (suffix_cons point _)
    · exact suffix_refl _
  · exact suffix_refl _

theorem parseChars_shape {text : List Char} {instant : Instant} (read : parseChars text = some instant) :
    (∃ first later, text = first :: later ∧ first.isDigit = true) ∧ ['Z'] <:+ text := by
  obtain ⟨⟨year, t1⟩, h1, read⟩ := bind_eq_some_iff.mp read
  obtain ⟨t2, h2, read⟩ := bind_eq_some_iff.mp read
  obtain ⟨⟨month, t3⟩, h3, read⟩ := bind_eq_some_iff.mp read
  obtain ⟨-, -, read⟩ := bind_eq_some_iff.mp read
  obtain ⟨t4, h4, read⟩ := bind_eq_some_iff.mp read
  obtain ⟨⟨day, t5⟩, h5, read⟩ := bind_eq_some_iff.mp read
  obtain ⟨t6, h6, read⟩ := bind_eq_some_iff.mp read
  obtain ⟨⟨hour, t7⟩, h7, read⟩ := bind_eq_some_iff.mp read
  obtain ⟨-, -, read⟩ := bind_eq_some_iff.mp read
  obtain ⟨t8, h8, read⟩ := bind_eq_some_iff.mp read
  obtain ⟨⟨minute, t9⟩, h9, read⟩ := bind_eq_some_iff.mp read
  obtain ⟨-, -, read⟩ := bind_eq_some_iff.mp read
  obtain ⟨t10, h10, read⟩ := bind_eq_some_iff.mp read
  obtain ⟨⟨second, t11⟩, h11, read⟩ := bind_eq_some_iff.mp read
  obtain ⟨-, -, read⟩ := bind_eq_some_iff.mp read
  obtain ⟨t12, (h12 : skip 'Z' (getFraction t11).2 = some t12), read⟩ := bind_eq_some_iff.mp read
  refine ⟨getYear_head h1, ?_⟩
  obtain rfl : t12 = [] := by
    by_contra more
    simp [more] at read
  have last : (getFraction t11).2 = ['Z'] := by
    cases tail : (getFraction t11).2 with
    | nil =>
      rw [tail] at h12
      cases h12
    | cons char rest =>
      rw [tail, skip] at h12
      split at h12
      · next same => rw [same, some.inj h12]
      · cases h12
  rw [← last]
  exact (getFraction_suffix t11).trans <| (getnum_suffix h11).trans <| (skip_suffix h10).trans <|
    (getnum_suffix h9).trans <| (skip_suffix h8).trans <| (getnum_suffix h7).trans <| (skip_suffix h6).trans <|
    (getnum_suffix h5).trans <| (skip_suffix h4).trans <| (getnum_suffix h3).trans <| (skip_suffix h2).trans
      (getYear_suffix h1)

theorem isSpace_of_isDigit {char : Char} (digit : char.isDigit = true) : isSpace char = false := by
  have range : 48 ≤ char.toNat ∧ char.toNat ≤ 57 := by
    simpa [Char.isDigit, UInt32.le_iff_toNat_le] using digit
  simp [isSpace]
  omega

theorem trimSpace_of_parseTime {text : String} {instant : Instant} (read : parseTime text = some instant) :
    trimSpace text = text := by
  obtain ⟨⟨first, later, shape, digit⟩, front, ending⟩ := parseChars_shape read
  have left : text.toList.dropWhile isSpace = text.toList := by
    rw [shape, dropWhile_cons_of_neg (by simp [isSpace_of_isDigit digit])]
  have right : text.toList.reverse.dropWhile isSpace = text.toList.reverse := by
    rw [← ending, reverse_append, reverse_singleton, singleton_append, dropWhile_cons_of_neg (by decide)]
  rw [trimSpace, left, right, reverse_reverse, String.ofList_toList]

end Yaog.Agent
