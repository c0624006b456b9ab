import Yaog.Controller.Store

/-!
# What the reads of the store say

A read that succeeds is a fact about the records; the facts here are the ones the writers rely on.
-/

namespace Yaog.Controller

open Data List Option

namespace Records

variable {α : Type} {records : Records α} {key other : String} {value : α}

theorem getElem?_insert : (records.insert key value)[other]? = if key = other then some value else records[other]? := by
  simp only [Std.ExtTreeMap.getElem?_insert, Std.compare_eq_iff_eq]

theorem getElem?_erase : (records.erase key)[other]? = if key = other then none else records[other]? := by
  simp only [Std.ExtTreeMap.getElem?_erase, Std.compare_eq_iff_eq]

theorem mem_toList {entry : String × α} : entry ∈ records.toList ↔ records[entry.1]? = some entry.2 := by
  exact Std.ExtTreeMap.mem_toList_iff_getElem?_eq_some

theorem mem_keys : key ∈ records.keys ↔ records[key]? ≠ none := by
  rw [Std.ExtTreeMap.mem_keys, Std.ExtTreeMap.mem_iff_isSome_getElem?, isSome_iff_ne_none]

theorem mem_iff : key ∈ records ↔ ∃ value, records[key]? = some value := by
  rw [Std.ExtTreeMap.mem_iff_isSome_getElem?, isSome_iff_exists]

theorem mem_insert : other ∈ records.insert key value ↔ other = key ∨ other ∈ records := by
  rw [Std.ExtTreeMap.mem_insert, Std.compare_eq_iff_eq, eq_comm]

theorem mem_erase : other ∈ records.erase key ↔ other ≠ key ∧ other ∈ records := by
  rw [Std.ExtTreeMap.mem_erase, ne_eq, Std.compare_eq_iff_eq, ne_comm, ne_eq]

theorem size_insert_of_mem (member : key ∈ records) : (records.insert key value).size = records.size := by
  rw [Std.ExtTreeMap.size_insert, if_pos (Std.ExtTreeMap.mem_iff_contains.mp member)]

theorem size_insert_of_not_mem (fresh : key ∉ records) : (records.insert key value).size = records.size + 1 := by
  rw [Std.ExtTreeMap.size_insert, if_neg fun member => fresh (Std.ExtTreeMap.mem_iff_contains.mpr member)]

theorem size_erase_of_mem (member : key ∈ records) : (records.erase key).size = records.size - 1 := by
  rw [Std.ExtTreeMap.size_erase, if_pos (Std.ExtTreeMap.mem_iff_contains.mp member)]

theorem size_erase_ge : records.size - 1 ≤ (records.erase key).size := by
  rw [Std.ExtTreeMap.size_erase]
  split <;> omega

theorem exists_mem_of_size (inhabited : 0 < records.size) : ∃ (key : String) (value : α), records[key]? = some value := by
  rw [← Std.ExtTreeMap.length_toList] at inhabited
  obtain ⟨entry, member⟩ := exists_mem_of_length_pos inhabited
  exact ⟨entry.1, entry.2, mem_toList.mp member⟩

end Records

def Store.Ahead (store : Store) : Prop :=
  (∃ (nodeID : String) (bundle : SignedBundle), store.current[nodeID]? = some bundle ∧
    store.generation < bundle.generation) ∨
    ∃ list, store.servedTL = some list ∧ store.generation < list.promotedGeneration

theorem Store.not_ahead_of_required {store : Store} (required : store.requireCompletedPromotion = .ok ()) :
    ¬store.Ahead := by
  unfold Store.requireCompletedPromotion at required
  cases found : store.current.toList.findSome? (currentFault store.generation) with
  | some reason => simp [found] at required
  | none =>
    simp only [found] at required
    rintro (⟨nodeID, bundle, held, above⟩ | ⟨list, served, above⟩)
    · have clean := findSome?_eq_none_iff.mp found (nodeID, bundle) (Records.mem_toList.mpr held)
      simp only [currentFault, above, if_true] at clean
      split at clean <;> cases clean
    · simp [served, above] at required

theorem Store.loadSeal_eq_ok {store : Store} {mark : StagedSetSeal} :
    store.loadSeal = .ok mark ↔ store.stagedSeal = some mark ∧ mark.check = .ok () := by
  unfold Store.loadSeal
  cases held : store.stagedSeal with
  | none => simp
  | some kept =>
    simp only [some.injEq]
    cases checked : kept.check with
    | error reason =>
      constructor
      · intro impossible
        cases impossible
      · rintro ⟨rfl, passed⟩
        rw [checked] at passed
        cases passed
    | ok _ =>
      constructor
      · intro same
        cases same
        exact ⟨rfl, checked⟩
      · rintro ⟨rfl, -⟩
        rfl

def Store.StagedKeyed (store : Store) : Prop :=
  ∀ (nodeID : String) (bundle : SignedBundle), store.staged[nodeID]? = some bundle → bundle.nodeID = nodeID

def Store.stagedAt (store : Store) (generation : Nat) : List (String × SignedBundle) :=
  store.staged.toList.filter fun entry => entry.2.generation = generation

theorem Store.mem_stagedAt {store : Store} {generation : Nat} {entry : String × SignedBundle} :
    entry ∈ store.stagedAt generation ↔
      store.staged[entry.1]? = some entry.2 ∧ entry.2.generation = generation := by
  simp only [Store.stagedAt, mem_filter, Records.mem_toList, decide_eq_true_eq]

theorem Store.stagedBundles_eq_ok {store : Store} {generation : Nat} {entries : List (String × SignedBundle)} :
    store.stagedBundlesForGeneration generation = .ok entries ↔
      store.StagedKeyed ∧ entries = store.stagedAt generation := by
  unfold Store.stagedBundlesForGeneration
  cases found : store.staged.toList.find? fun entry => entry.2.nodeID ≠ entry.1 with
  | some entry =>
    have held := Records.mem_toList.mp (mem_of_find?_eq_some found)
    have differs := find?_some found
    simp only [ne_eq, decide_not, Bool.not_eq_eq_eq_not, Bool.not_true, decide_eq_false_iff_not] at differs
    simp only [reduceCtorEq, false_iff, not_and]
    exact fun keyed => absurd (keyed entry.1 entry.2 held) differs
  | none =>
    have keyed : store.StagedKeyed := by
      intro nodeID bundle held
      have agrees := find?_eq_none.mp found (nodeID, bundle) (Records.mem_toList.mpr held)
      simpa using agrees
    simp only [Except.ok.injEq, keyed, true_and]
    exact eq_comm

section

variable {crypto : Crypto} {store : Store} {mark : StagedSetSeal} {list : StoredTrustList}

theorem Store.loadSealedTrustList_eq_some :
    store.loadSealedTrustList crypto mark = .ok (some list) ↔
      mark.hasTrustList = true ∧ store.stagedTL = some list ∧ mark.Names crypto list := by
  unfold Store.loadSealedTrustList
  cases mark.hasTrustList with
  | false => simp
  | true =>
    cases store.stagedTL with
    | none => simp
    | some kept =>
      by_cases named : mark.Names crypto kept
      · simp only [named, if_true, Except.ok.injEq, some.injEq, true_and]
        constructor
        · rintro rfl
          exact ⟨rfl, named⟩
        · exact fun same => same.1
      · simp only [named, if_true, if_false, reduceCtorEq, some.injEq, true_and, false_iff, not_and]
        rintro rfl
        exact named

theorem Store.loadSealedTrustList_eq_none :
    store.loadSealedTrustList crypto mark = .ok none ↔ mark.hasTrustList = false := by
  unfold Store.loadSealedTrustList
  cases mark.hasTrustList with
  | false => simp
  | true =>
    cases store.stagedTL with
    | none => simp
    | some kept => by_cases named : mark.Names crypto kept <;> simp [named]

theorem Store.getCurrentSignedTrustList_eq_ok :
    store.getCurrentSignedTrustList crypto = .ok list ↔
      ∃ mark, store.stagedSeal = some mark ∧ mark.check = .ok () ∧ mark.hasTrustList = true ∧
        store.stagedTL = some list ∧ mark.Names crypto list := by
  constructor
  · intro visible
    unfold Store.getCurrentSignedTrustList at visible
    cases loaded : store.loadSeal with
    | error reason => simp [loaded, bind, Except.bind] at visible
    | ok mark =>
      obtain ⟨held, checked⟩ := Store.loadSeal_eq_ok.mp loaded
      cases sealed : store.loadSealedTrustList crypto mark with
      | error reason => simp [loaded, sealed, bind, Except.bind] at visible
      | ok found =>
        cases found with
        | none => simp [loaded, sealed, bind, Except.bind] at visible
        | some kept =>
          simp only [loaded, sealed, bind, Except.bind, Except.ok.injEq] at visible
          subst visible
          exact ⟨mark, held, checked, Store.loadSealedTrustList_eq_some.mp sealed⟩
  · rintro ⟨mark, held, checked, named⟩
    have loaded := Store.loadSeal_eq_ok.mpr ⟨held, checked⟩
    have sealed := Store.loadSealedTrustList_eq_some.mpr named
    simp only [Store.getCurrentSignedTrustList, loaded, sealed, bind, Except.bind]

/-- What a promotion may make current. -/
structure Store.Candidate (crypto : Crypto) (store : Store) (mark : StagedSetSeal)
    (list : Option StoredTrustList) : Prop where
  held : store.stagedSeal = some mark
  checked : mark.check = .ok ()
  next : mark.generation = store.generation + 1
  active : mark.historical = false
  nonempty : mark.nodeIDs ≠ []
  keyed : store.StagedKeyed
  listing : (store.stagedAt (store.generation + 1)).map (·.1) = mark.nodeIDs
  manifest : store.loadSealedTrustList crypto mark = .ok list

theorem Store.sealedCandidate_eq_ok {entries : List (String × SignedBundle)} {list : Option StoredTrustList} :
    store.sealedCandidate crypto = .ok (entries, list) ↔
      entries = store.stagedAt (store.generation + 1) ∧ ∃ mark, store.Candidate crypto mark list := by
  constructor
  · intro ready
    unfold Store.sealedCandidate at ready
    cases loaded : store.loadSeal with
    | error reason =>
      rw [loaded] at ready
      cases reason <;> simp only [reduceCtorEq] at ready
      split at ready <;> cases ready
    | ok mark =>
      rw [loaded] at ready
      obtain ⟨held, checked⟩ := Store.loadSeal_eq_ok.mp loaded
      simp only at ready
      split at ready
      · cases ready
      split at ready
      · cases ready
      cases listed : store.stagedBundlesForGeneration (store.generation + 1) with
      | error reason => simp [listed] at ready
      | ok staged =>
        obtain ⟨keyed, rfl⟩ := Store.stagedBundles_eq_ok.mp listed
        rw [listed] at ready
        simp only at ready
        split at ready
        · cases ready
        · next upcoming active listing =>
          cases sealed : store.loadSealedTrustList crypto mark with
          | error reason => simp [sealed, Except.map] at ready
          | ok found =>
            simp only [sealed, Except.map, Except.ok.injEq, Prod.mk.injEq] at ready
            obtain ⟨rfl, rfl⟩ := ready
            simp only [not_or, Bool.not_eq_true] at active
            exact ⟨rfl, mark, held, checked, not_not.mp upcoming, active.1, active.2, keyed,
              not_not.mp listing, sealed⟩
  · rintro ⟨rfl, mark, ready⟩
    have loaded := Store.loadSeal_eq_ok.mpr ⟨ready.held, ready.checked⟩
    have listed := Store.stagedBundles_eq_ok.mpr ⟨ready.keyed, (rfl : store.stagedAt (store.generation + 1) = _)⟩
    simp [Store.sealedCandidate, loaded, listed, ready.next, ready.active, ready.nonempty, ready.listing,
      ready.manifest, Except.map]

end

end Yaog.Controller
