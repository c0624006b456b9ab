import Mathlib.Data.List.Basic
import Mathlib.Order.Defs.Unbundled
import Mathlib.Tactic

/-!
# The byte order of texts

Go compares strings byte by byte; on UTF-8 this is the order of the code points.
-/

namespace Yaog.Data

def charsLE : List Char → List Char → Bool
  | [], _ => true
  | _ :: _, [] => false
  | a :: as, b :: bs => a.toNat < b.toNat || (a = b && charsLE as bs)

/-- `a <= b` of the source. -/
def textLE (a b : String) : Bool := charsLE a.toList b.toList

/-- `a < b` of the source. -/
def textLT (a b : String) : Bool := textLE a b && a ≠ b

private theorem charsLE_total (first second : List Char) :
    charsLE first second = true ∨ charsLE second first = true := by
  induction first generalizing second with
  | nil => exact Or.inl rfl
  | cons a as ih =>
    cases second with
    | nil => exact Or.inr rfl
    | cons b bs =>
      rcases Nat.lt_trichotomy a.toNat b.toNat with below | same | above
      · exact Or.inl (by simp [charsLE, below])
      · obtain rfl : a = b := Char.toNat_inj.mp same
        simpa [charsLE] using ih bs
      · exact Or.inr (by simp [charsLE, above])

private theorem charsLE_antisymm {first second : List Char} (forward : charsLE first second = true)
    (backward : charsLE second first = true) : first = second := by
  induction first generalizing second with
  | nil =>
    cases second with
    | nil => rfl
    | cons b bs => cases backward
  | cons a as ih =>
    cases second with
    | nil => cases forward
    | cons b bs =>
      simp only [charsLE, Bool.or_eq_true, Bool.and_eq_true, decide_eq_true_eq] at forward backward
      rcases forward with below | ⟨rfl, rest⟩
      · rcases backward with above | ⟨rfl, -⟩ <;> omega
      · rcases backward with above | ⟨-, rest'⟩
        · omega
        · rw [ih rest rest']

private theorem charsLE_trans {first second third : List Char} (lower : charsLE first second = true)
    (upper : charsLE second third = true) : charsLE first third = true := by
  induction first generalizing second third with
  | nil => rfl
  | cons a as ih =>
    cases second with
    | nil => cases lower
    | cons b bs =>
      cases third with
      | nil => cases upper
      | cons c cs =>
        simp only [charsLE, Bool.or_eq_true, Bool.and_eq_true, decide_eq_true_eq] at lower upper ⊢
        rcases lower with below | ⟨rfl, rest⟩
        · rcases upper with above | ⟨rfl, -⟩
          · exact Or.inl (by omega)
          · exact Or.inl below
        · rcases upper with above | ⟨rfl, rest'⟩
          · exact Or.inl above
          · exact Or.inr ⟨rfl, ih rest rest'⟩

theorem textLE_total (first second : String) : textLE first second = true ∨ textLE second first = true :=
  charsLE_total _ _

theorem textLE_antisymm {first second : String} (forward : textLE first second = true)
    (backward : textLE second first = true) : first = second :=
  String.toList_injective (charsLE_antisymm forward backward)

theorem textLE_trans {first second third : String} (lower : textLE first second = true)
    (upper : textLE second third = true) : textLE first third = true :=
  charsLE_trans lower upper

theorem textLT_iff {first second : String} :
    textLT first second = true ↔ textLE first second = true ∧ first ≠ second := by
  simp [textLT]

theorem textLT_irrefl (text : String) : textLT text text = false := by
  simp [textLT]

theorem textLT_asymm {first second : String} (less : textLT first second = true) :
    textLT second first = false := by
  obtain ⟨lower, different⟩ := textLT_iff.mp less
  cases reverse : textLT second first with
  | false => rfl
  | true => exact absurd (textLE_antisymm lower (textLT_iff.mp reverse).1) different

instance : IsStrictTotalOrder String fun first second => textLT first second = true where
  irrefl text := by simp [textLT_irrefl]
  trans first second third lower upper := by
    obtain ⟨below, different⟩ := textLT_iff.mp lower
    obtain ⟨below', -⟩ := textLT_iff.mp upper
    refine textLT_iff.mpr ⟨textLE_trans below below', fun same => ?_⟩
    subst same
    exact different (textLE_antisymm below below')
  trichotomous first second notBelow notAbove := by
    by_contra different
    rcases textLE_total first second with below | above
    · exact notBelow (textLT_iff.mpr ⟨below, different⟩)
    · exact notAbove (textLT_iff.mpr ⟨above, Ne.symm different⟩)

end Yaog.Data
