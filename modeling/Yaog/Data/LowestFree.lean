import Mathlib.Data.List.Basic
import Mathlib.Data.List.Nodup
import Mathlib.Data.List.Perm.Subperm
import Mathlib.Tactic

/-!
# Handing out the lowest free candidate

Candidates occupy marks. Requests are served one after the other, each by the first candidate none of whose marks is in
use, and its marks are then in use as well.
-/

namespace Yaog.Data

open List

variable {α τ : Type}

/-- The marks in use after `count` requests: those in use at the start, and those of the first `count`
free candidates. -/
def Served (marks : α → List τ) (free : List α) (base : τ → Prop) (count : Nat) (used : τ → Prop) : Prop :=
  ∀ mark, used mark ↔ base mark ∨ ∃ candidate ∈ free.take count, mark ∈ marks candidate

variable {marks : α → List τ} {candidates : List α} {base used : τ → Prop} {count : Nat} {free : List α}

theorem Served.start (marks : α → List τ) (free : List α) (base : τ → Prop) :
    Served marks free base 0 base := by
  intro mark
  simp

theorem Served.step {candidate : α} (served : Served marks free base count used)
    (next : free[count]? = some candidate) :
    Served marks free base (count + 1) fun mark => mark ∈ marks candidate ∨ used mark := by
  intro mark
  have grown : free.take (count + 1) = free.take count ++ [candidate] := by
    rw [take_add_one, next, Option.toList_some]
  simp only [served mark, grown, mem_append, mem_singleton]
  constructor
  · rintro (own | inBase | ⟨other, member, marked⟩)
    · exact Or.inr ⟨candidate, Or.inr rfl, own⟩
    · exact Or.inl inBase
    · exact Or.inr ⟨other, Or.inl member, marked⟩
  · rintro (inBase | ⟨other, member | rfl, marked⟩)
    · exact Or.inr (Or.inl inBase)
    · exact Or.inr (Or.inr ⟨other, member, marked⟩)
    · exact Or.inl marked

private theorem filter_not_taken [DecidableEq α] (distinct : free.Nodup) (count : Nat) :
    free.filter (fun candidate => decide (candidate ∉ free.take count)) = free.drop count := by
  induction free generalizing count with
  | nil => simp
  | cons first rest ih =>
    cases count with
    | zero => simp
    | succ count =>
      obtain ⟨fresh, distinctRest⟩ := nodup_cons.mp distinct
      have tail : rest.filter (fun candidate => decide (candidate ∉ first :: rest.take count)) =
          rest.filter fun candidate => decide (candidate ∉ rest.take count) := by
        apply filter_congr
        intro candidate member
        have other : candidate ≠ first := fun equal => fresh (equal ▸ member)
        simp [other]
      rw [take_succ_cons, filter_cons_of_neg (by simp), tail, ih distinctRest, drop_succ_cons]

theorem Served.next [DecidableEq α] (distinct : candidates.Nodup)
    (separate : ∀ first ∈ candidates, ∀ second ∈ candidates, ∀ mark, mark ∈ marks first →
      mark ∈ marks second → first = second)
    (marked : ∀ candidate ∈ candidates, marks candidate ≠ [])
    {free test : α → Bool} (free_iff : ∀ candidate ∈ candidates,
      free candidate = true ↔ ∀ mark ∈ marks candidate, ¬ base mark)
    (test_iff : ∀ candidate ∈ candidates, test candidate = true ↔ ∀ mark ∈ marks candidate, ¬ used mark)
    (served : Served marks (candidates.filter free) base count used) :
    candidates.find? test = (candidates.filter free)[count]? := by
  -- a candidate passes the test when it was free at the start and has not been handed out
  have both : candidates.filter test = (candidates.filter free).drop count := by
    rw [← filter_not_taken (distinct.filter free) count, filter_filter]
    apply filter_congr
    intro candidate member
    rw [Bool.eq_iff_iff, Bool.and_eq_true, decide_eq_true_eq, test_iff candidate member, free_iff candidate member]
    constructor
    · intro unused
      refine ⟨fun taken => ?_, fun mark own inBase => unused mark own ((served mark).mpr (Or.inl inBase))⟩
      obtain ⟨mark, own⟩ := exists_mem_of_ne_nil _ (marked candidate member)
      exact unused mark own ((served mark).mpr (Or.inr ⟨candidate, taken, own⟩))
    · rintro ⟨notTaken, free⟩ mark own inUse
      rcases (served mark).mp inUse with inBase | ⟨other, taken, marked⟩
      · exact free mark own inBase
      · have otherMember := mem_of_mem_filter (mem_of_mem_take taken)
        exact notTaken (separate candidate member other otherMember mark own marked ▸ taken)
  rw [← head?_filter, both, head?_drop]

theorem findSome?_range_iff {f : Nat → Option α} {count : Nat} {found : α} :
    (List.range count).findSome? f = some found ↔ ∃ index < count, f index = some found ∧ ∀ i < index, f i = none := by
  induction count with
  | zero => simp
  | succ count ih =>
    rw [range_succ, findSome?_append, Option.or_eq_some_iff, ih, findSome?_eq_none_iff, findSome?_singleton]
    constructor
    · rintro (⟨index, below, yields, first⟩ | ⟨nothing, yields⟩)
      · exact ⟨index, by omega, yields, first⟩
      · exact ⟨count, by omega, yields, fun i below => nothing i (mem_range.mpr below)⟩
    · rintro ⟨index, below, yields, first⟩
      by_cases last : index = count
      · exact .inr ⟨fun i below => first i (by simpa [last] using below), last ▸ yields⟩
      · exact .inl ⟨index, by omega, yields, first⟩

theorem blocked_length_le {marks : Nat → List τ}
    (separate : ∀ i j mark, mark ∈ marks i → mark ∈ marks j → i = j) (used : List τ)
    (blocked : Nat → Bool) (blocked_iff : ∀ i, blocked i = true → ∃ mark ∈ marks i, mark ∈ used) (bound : Nat) :
    ((List.range bound).filter blocked).length ≤ used.length := by
  choose mark inMarks inUsed using blocked_iff
  let marked := ((List.range bound).filter blocked).attach.map fun i =>
    mark i.val (mem_filter.mp i.property).2
  have distinct : marked.Nodup := by
    rw [nodup_map_iff_inj_on (nodup_attach.mpr (nodup_range.filter blocked))]
    intro i _ j _ same
    exact Subtype.ext (separate i j _ (inMarks i _) (same ▸ inMarks j _))
  have inside : marked ⊆ used := by
    intro text member
    obtain ⟨i, -, rfl⟩ := mem_map.mp member
    exact inUsed i _
  have count := (distinct.subperm inside).length_le
  simpa [marked] using count

theorem free_length_ge {marks : Nat → List τ} (separate : ∀ i j mark, mark ∈ marks i → mark ∈ marks j → i = j)
    (used : List τ) {free : Nat → Bool} (free_iff : ∀ i, free i = false → ∃ mark ∈ marks i, mark ∈ used) (count : Nat) :
    count ≤ ((List.range (used.length + count)).filter free).length := by
  have blocked := blocked_length_le separate used (fun i => !free i)
    (fun i taken => free_iff i (by simpa using taken)) (used.length + count)
  have total := length_eq_length_filter_add (l := List.range (used.length + count)) free
  rw [length_range] at total
  omega

end Yaog.Data
