import Mathlib.Tactic

/-!
# Comparisons of sequences

Comparisons built from a comparison of items: of sequences that are padded with a default item, and of
values to which a greatest or a least one is added.
-/

namespace Yaog.Data

open Std List

variable {α : Type} (cmp : α → α → Ordering)

def paddedLex (default : α) : List α → List α → Ordering
  | [], second => second.foldr (fun item later => (cmp default item).then later) .eq
  | item :: rest, second => (cmp item (second.headD default)).then (paddedLex default rest second.tail)

def cmpTop : Option α → Option α → Ordering
  | none, none => .eq
  | none, some _ => .gt
  | some _, none => .lt
  | some first, some second => cmp first second

def cmpBot : Option α → Option α → Ordering
  | none, none => .eq
  | none, some _ => .lt
  | some _, none => .gt
  | some first, some second => cmp first second

variable {cmp}

theorem then_isLE_trans {ab bc ac ab' bc' ac' : Ordering}
    (le : ab.isLE → bc.isLE → ac.isLE) (ltLe : ab = .lt → bc.isLE → ac = .lt) (leLt : ab.isLE → bc = .lt → ac = .lt)
    (later : ab'.isLE → bc'.isLE → ac'.isLE) (one : (ab.then ab').isLE) (two : (bc.then bc').isLE) :
    (ac.then ac').isLE := by
  cases ab <;> cases bc <;> cases ac <;> simp_all

theorem paddedLex_unfold [ReflCmp cmp] (default : α) (first second : List α) :
    paddedLex cmp default first second =
      (cmp (first.headD default) (second.headD default)).then (paddedLex cmp default first.tail second.tail) := by
  cases first with
  | nil =>
    cases second with
    | nil => simp [paddedLex, ReflCmp.compare_self]
    | cons item rest => rfl
  | cons item rest => rfl

instance [OrientedCmp cmp] (default : α) : OrientedCmp (paddedLex cmp default) where
  eq_swap {first second} := by
    induction first generalizing second with
    | nil =>
      induction second with
      | nil => rfl
      | cons item rest ih =>
        have oriented : cmp default item = (cmp item default).swap := OrientedCmp.eq_swap
        show (cmp default item).then (paddedLex cmp default [] rest) =
          ((cmp item default).then (paddedLex cmp default rest [])).swap
        rw [oriented, ih, Ordering.swap_then]
    | cons item rest ih =>
      have oriented : cmp item (second.headD default) = (cmp (second.headD default) item).swap :=
        OrientedCmp.eq_swap
      rw [paddedLex_unfold default second, Ordering.swap_then]
      show (cmp item (second.headD default)).then (paddedLex cmp default rest second.tail) = _
      rw [oriented, ih]
      rfl

instance [TransCmp cmp] (default : α) : TransCmp (paddedLex cmp default) where
  isLE_trans {first second third} := by
    -- unfolding once shortens at least one of the sequences, unless all of them have ended
    suffices general : ∀ size (first second third : List α), first.length + second.length + third.length = size →
        (paddedLex cmp default first second).isLE → (paddedLex cmp default second third).isLE →
          (paddedLex cmp default first third).isLE from general _ first second third rfl
    intro size
    induction size using Nat.strong_induction_on with
    | _ size ih =>
      intro first second third total
      by_cases ended : first.length = 0 ∧ second.length = 0 ∧ third.length = 0
      · obtain ⟨one, two, three⟩ := ended
        rw [eq_nil_of_length_eq_zero one, eq_nil_of_length_eq_zero two,
          eq_nil_of_length_eq_zero three]
        exact fun le _ => le
      · rw [paddedLex_unfold default first second, paddedLex_unfold default second third,
          paddedLex_unfold default first third]
        refine then_isLE_trans TransCmp.isLE_trans TransCmp.lt_of_lt_of_isLE TransCmp.lt_of_isLE_of_lt
          (ih _ ?_ first.tail second.tail third.tail rfl)
        simp only [length_tail]
        omega

instance [TransCmp cmp] : TransCmp (cmpTop cmp) where
  eq_swap {first second} := by
    cases first <;> cases second
    case some.some item other => exact (OrientedCmp.eq_swap : cmp item other = _)
    all_goals rfl
  isLE_trans {first second third} := by
    cases first <;> cases second <;> cases third <;> simp [cmpTop]
    exact TransCmp.isLE_trans

instance [TransCmp cmp] : TransCmp (cmpBot cmp) where
  eq_swap {first second} := by
    cases first <;> cases second
    case some.some item other => exact (OrientedCmp.eq_swap : cmp item other = _)
    all_goals rfl
  isLE_trans {first second third} := by
    cases first <;> cases second <;> cases third <;> simp [cmpBot]
    exact TransCmp.isLE_trans

end Yaog.Data
