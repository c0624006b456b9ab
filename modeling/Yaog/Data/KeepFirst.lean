import Mathlib.Data.List.Basic
import Mathlib.Data.List.Nodup
import Mathlib.Data.List.Pairwise
import Mathlib.Tactic

/-!
# Keeping the first element of each key

A loop that skips the elements whose key it has already met keeps the first element of each key, in
the order of the list.
-/

namespace Yaog.Data

open List

variable {α β κ : Type} [DecidableEq κ]

def keepFirst (key : α → κ) : List α → List α
  | [] => []
  | item :: rest => item :: (keepFirst key rest).filter fun later => key later ≠ key item

variable {key : α → κ} {items : List α} {item : α}

theorem keepFirst_sublist (items : List α) : (keepFirst key items).Sublist items := by
  induction items with
  | nil => exact List.Sublist.refl _
  | cons item rest ih => exact (filter_sublist.trans ih).cons_cons item

theorem mem_of_mem_keepFirst (kept : item ∈ keepFirst key items) :
    item ∈ items :=
  (keepFirst_sublist items).subset kept

theorem keepFirst_keys_nodup (items : List α) : ((keepFirst key items).map key).Nodup := by
  induction items with
  | nil => exact nodup_nil
  | cons item rest ih =>
    rw [keepFirst, map_cons, nodup_cons]
    refine ⟨?_, ih.sublist (filter_sublist.map key)⟩
    intro repeated
    obtain ⟨later, kept, same⟩ := mem_map.mp repeated
    have distinct := (mem_filter.mp kept).2
    simp [same] at distinct

theorem find?_keepFirst (items : List α) (wanted : κ) :
    (keepFirst key items).find? (fun item => key item = wanted) =
      items.find? fun item => key item = wanted := by
  induction items with
  | nil => rfl
  | cons item rest ih =>
    by_cases here : key item = wanted
    · simp [keepFirst, here]
    · have skip : (List.filter (fun later => decide (key later ≠ key item)) (keepFirst key rest)).find?
          (fun later => decide (key later = wanted)) =
          (keepFirst key rest).find? fun later => decide (key later = wanted) := by
        rw [find?_filter]
        refine congrArg (fun test => List.find? test (keepFirst key rest)) (funext fun later => ?_)
        by_cases same : key later = wanted
        · simp [same, Ne.symm here]
        · simp [same]
      simp only [keepFirst, find?_cons, here, decide_false]
      rw [skip, ih]

theorem mem_keepFirst_iff :
    item ∈ keepFirst key items ↔ items.find? (fun other => key other = key item) = some item := by
  rw [← find?_keepFirst]
  constructor
  · intro kept
    cases found : (keepFirst key items).find? fun other => key other = key item with
    | none =>
      have absent := find?_eq_none.mp found item kept
      simp at absent
    | some other =>
      have named := find?_some found
      have member := mem_of_find?_eq_some found
      rw [inj_on_of_nodup_map (keepFirst_keys_nodup items) member kept (of_decide_eq_true named)]
  · exact fun found => mem_of_find?_eq_some found

theorem exists_kept (member : item ∈ items) :
    ∃ first ∈ keepFirst key items, key first = key item := by
  cases found : items.find? fun other => key other = key item with
  | none =>
    have absent := find?_eq_none.mp found item member
    simp at absent
  | some first =>
    have same : key first = key item := by simpa using find?_some found
    refine ⟨first, mem_keepFirst_iff.mpr ?_, same⟩
    rw [same]
    exact found

theorem keepFirst_perm {items' : List α}
    (same : ∀ wanted, items.filter (fun item => key item = wanted) = items'.filter fun item => key item = wanted) :
    (keepFirst key items).Perm (keepFirst key items') := by
  rw [perm_ext_iff_of_nodup (keepFirst_keys_nodup items).of_map (keepFirst_keys_nodup items').of_map]
  intro item
  rw [mem_keepFirst_iff, mem_keepFirst_iff, ← head?_filter, ← head?_filter, same]

theorem keepFirst_map {key' : β → κ} (change : α → β) (keeps : ∀ item, key' (change item) = key item)
    (items : List α) : keepFirst key' (items.map change) = (keepFirst key items).map change := by
  induction items with
  | nil => rfl
  | cons item rest ih =>
    simp only [map_cons, keepFirst, ih, filter_map, Function.comp_def, keeps]

end Yaog.Data
