import Mathlib.Data.List.Basic
import Mathlib.Data.List.Nodup
import Mathlib.Data.List.Pairwise
import Mathlib.Order.Defs.Unbundled
import Mathlib.Tactic

/-!
# Claiming values in the order of keys

Items claim all their values or none. They are visited in the order of their keys, and an item is dropped when one of
its values already belongs to another key.
-/

namespace Yaog.Data

open List

variable {α κ ν : Type}

section

variable (key : α → κ) (values : α → List ν)

def Shares (item other : α) : Prop := ∃ value ∈ values item, value ∈ values other

def Settles (lt : κ → κ → Prop) (items : List α) (isDropped : α → Prop) : Prop :=
  ∀ item ∈ items, isDropped item ↔
    ∃ other ∈ items, lt (key other) (key item) ∧ ¬ isDropped other ∧ Shares values item other

end

variable {key : α → κ} {values : α → List ν} {lt : κ → κ → Prop} {owners : List (ν × κ)} {items kept : List α}
  {item : α}

theorem Shares.symm {other : α} (shares : Shares values item other) : Shares values other item := by
  obtain ⟨value, inItem, inOther⟩ := shares
  exact ⟨value, inOther, inItem⟩

theorem Settles.of_perm {items' : List α} {isDropped : α → Prop} (settles : Settles key values lt items isDropped)
    (same : items.Perm items') : Settles key values lt items' isDropped := by
  intro item member
  rw [settles item (same.mem_iff.mpr member)]
  simp only [same.mem_iff]

section

variable [IsStrictTotalOrder κ lt] {isDropped : α → Prop}

theorem Settles.consistent (settles : Settles key values lt items isDropped) {item other : α}
    (member : item ∈ items) (otherMember : other ∈ items) (stays : ¬ isDropped item) (otherStays : ¬ isDropped other)
    (shares : Shares values item other) : key item = key other := by
  rcases trichotomous_of lt (key item) (key other) with below | same | above
  · exact absurd ((settles other otherMember).mpr ⟨item, member, below, stays, shares.symm⟩) otherStays
  · exact same
  · exact absurd ((settles item member).mpr ⟨other, otherMember, above, otherStays, shares⟩) stays

theorem Settles.unique {isDropped' : α → Prop} (settles : Settles key values lt items isDropped)
    (settles' : Settles key values lt items isDropped') {item : α} (member : item ∈ items) :
    isDropped item ↔ isDropped' item := by
  classical
  let lower : α → List α := fun item => items.filter fun other => lt (key other) (key item)
  induction count : (lower item).length using Nat.strong_induction_on generalizing item with
  | _ count ih =>
    rw [settles item member, settles' item member]
    refine exists_congr fun other => and_congr_right fun inItems => and_congr_right fun below => ?_
    have fewer : (lower other).length < (lower item).length := by
      have same : lower other = (lower item).filter fun third => lt (key third) (key other) := by
        rw [filter_filter]
        refine filter_congr fun third _ => ?_
        by_cases lowest : lt (key third) (key other)
        · simp [lowest, trans_of lt lowest below]
        · simp [lowest]
      rw [same, length_filter_lt_length_iff_exists]
      exact ⟨other, mem_filter.mpr ⟨inItems, decide_eq_true below⟩, by simp [irrefl_of lt]⟩
    exact and_congr_left fun _ => not_congr (ih _ (count ▸ fewer) inItems rfl)

end

variable [DecidableEq ν]

def OwnedBy (key : α → κ) (values : α → List ν) (owners : List (ν × κ)) (kept : List α) : Prop :=
  ∀ value owner, owners.lookup value = some owner ↔ ∃ other ∈ kept, value ∈ values other ∧ key other = owner

theorem ownedBy_nil : OwnedBy key values [] [] := by
  intro value owner
  simp

private theorem lookup_claims (claimed : List ν) (owner : κ) (owners : List (ν × κ)) (value : ν) :
    (claimed.map (fun value => (value, owner)) ++ owners).lookup value =
      if value ∈ claimed then some owner else owners.lookup value := by
  induction claimed with
  | nil => simp
  | cons first rest ih =>
    rw [map_cons, cons_append, lookup_cons, ih]
    by_cases same : value = first
    · simp [same]
    · rw [beq_false_of_ne same]
      simp [same]

variable [DecidableEq κ]

section

variable (key : α → κ) (values : α → List ν)

def contested (owners : List (ν × κ)) (item : α) : Bool :=
  (values item).any fun value => (owners.lookup value).any fun owner => owner ≠ key item

def dropped : List (ν × κ) → List α → List α
  | _, [] => []
  | owners, item :: rest =>
    if contested key values owners item then item :: dropped owners rest
    else dropped ((values item).map (fun value => (value, key item)) ++ owners) rest

end

theorem dropped_sublist (owners : List (ν × κ)) (items : List α) : (dropped key values owners items).Sublist items := by
  induction items generalizing owners with
  | nil => exact List.Sublist.refl _
  | cons item rest ih =>
    rw [dropped]
    split
    · exact (ih owners).cons_cons item
    · exact (ih _).cons item

theorem contested_iff (owned : OwnedBy key values owners kept) :
    contested key values owners item = true ↔ ∃ other ∈ kept, key other ≠ key item ∧ Shares values item other := by
  simp only [contested, any_eq_true]
  constructor
  · rintro ⟨value, member, belongs⟩
    cases found : owners.lookup value with
    | none => simp [found] at belongs
    | some owner =>
      obtain ⟨other, stays, inOther, rfl⟩ := (owned value owner).mp found
      have different : key other ≠ key item := by simpa [found] using belongs
      exact ⟨other, stays, different, value, member, inOther⟩
  · rintro ⟨other, stays, different, value, member, inOther⟩
    have found := (owned value (key other)).mpr ⟨other, stays, inOther, rfl⟩
    exact ⟨value, member, by simpa [found] using different⟩

theorem OwnedBy.claim (owned : OwnedBy key values owners kept) (free : contested key values owners item = false) :
    OwnedBy key values ((values item).map (fun value => (value, key item)) ++ owners) (item :: kept) := by
  intro value owner
  rw [lookup_claims]
  by_cases member : value ∈ values item
  · rw [if_pos member]
    constructor
    · intro same
      exact ⟨item, mem_cons_self, member, Option.some.inj same⟩
    · rintro ⟨other, stays, inOther, rfl⟩
      rcases mem_cons.mp stays with rfl | stays
      · rfl
      · by_cases same : key other = key item
        · rw [same]
        · have taken := (contested_iff owned).mpr ⟨other, stays, same, value, member, inOther⟩
          rw [free] at taken
          cases taken
  · rw [if_neg member, owned]
    constructor
    · rintro ⟨other, stays, inOther, same⟩
      exact ⟨other, mem_cons_of_mem _ stays, inOther, same⟩
    · rintro ⟨other, stays, inOther, same⟩
      rcases mem_cons.mp stays with rfl | stays
      · exact absurd inOther member
      · exact ⟨other, stays, inOther, same⟩

section

variable [IsStrictTotalOrder κ lt]

/-- The induction is on the items still to visit; `kept` are those that stayed before them. -/
private theorem mem_dropped_after (distinct : items.Nodup)
    (sorted : items.Pairwise fun item later => ¬ lt (key later) (key item)) (owned : OwnedBy key values owners kept)
    (before : ∀ other ∈ kept, ∀ item ∈ items, ¬ lt (key item) (key other)) :
    ∀ item ∈ items, item ∈ dropped key values owners items ↔
      ∃ other, lt (key other) (key item) ∧ Shares values item other ∧
        (other ∈ kept ∨ other ∈ items ∧ other ∉ dropped key values owners items) := by
  induction items generalizing owners kept with
  | nil => simp
  | cons head rest ih =>
    obtain ⟨notLater, distinctRest⟩ := nodup_cons.mp distinct
    obtain ⟨headFirst, sortedRest⟩ := pairwise_cons.mp sorted
    have beforeRest : ∀ other ∈ kept, ∀ item ∈ rest, ¬ lt (key item) (key other) :=
      fun other stays item member => before other stays item (mem_cons_of_mem _ member)
    intro item member
    rw [dropped]
    cases free : contested key values owners head with
    | true =>
      have step := ih distinctRest sortedRest owned beforeRest
      rw [if_pos rfl]
      rcases mem_cons.mp member with rfl | later
      · obtain ⟨other, stays, different, shares⟩ := (contested_iff owned).mp free
        refine ⟨fun _ => ⟨other, ?_, shares, .inl stays⟩, fun _ => mem_cons_self⟩
        rcases trichotomous_of lt (key other) (key item) with below | same | above
        · exact below
        · exact absurd same different
        · exact absurd above (before other stays item mem_cons_self)
      · have other : item ≠ head := fun same => notLater (same ▸ later)
        rw [mem_cons, or_iff_right other, step item later]
        refine exists_congr fun owner => and_congr_right fun _ => and_congr_right fun _ => or_congr_right ?_
        constructor
        · rintro ⟨inRest, stays⟩
          refine ⟨mem_cons_of_mem _ inRest, fun lost => ?_⟩
          rcases mem_cons.mp lost with rfl | lost
          · exact notLater inRest
          · exact stays lost
        · rintro ⟨inItems, stays⟩
          rcases mem_cons.mp inItems with rfl | inRest
          · exact absurd mem_cons_self stays
          · exact ⟨inRest, fun lost => stays (mem_cons_of_mem _ lost)⟩
    | false =>
      have grown := owned.claim free
      have beforeGrown : ∀ other ∈ head :: kept, ∀ item ∈ rest, ¬ lt (key item) (key other) := by
        intro other stays
        rcases mem_cons.mp stays with rfl | stays
        · exact headFirst
        · exact beforeRest other stays
      have step := ih distinctRest sortedRest grown beforeGrown
      have headStays : head ∉ dropped key values
          ((values head).map (fun value => (value, key head)) ++ owners) rest :=
        fun lost => notLater ((dropped_sublist _ _).subset lost)
      rw [if_neg Bool.false_ne_true]
      rcases mem_cons.mp member with rfl | later
      · refine ⟨fun lost => absurd lost headStays, ?_⟩
        rintro ⟨other, below, shares, stays | ⟨inItems, -⟩⟩
        · have different : key other ≠ key item := by
            intro same
            rw [same] at below
            exact irrefl_of lt _ below
          have taken := (contested_iff owned).mpr ⟨other, stays, different, shares⟩
          rw [free] at taken
          cases taken
        · rcases mem_cons.mp inItems with rfl | inRest
          · exact absurd below (irrefl_of lt _)
          · exact absurd below (headFirst other inRest)
      · rw [step item later]
        refine exists_congr fun owner => and_congr_right fun _ => and_congr_right fun _ => ?_
        rw [mem_cons, mem_cons]
        constructor
        · rintro ((rfl | stays) | ⟨inRest, stays⟩)
          · exact .inr ⟨.inl rfl, headStays⟩
          · exact .inl stays
          · exact .inr ⟨.inr inRest, stays⟩
        · rintro (stays | ⟨rfl | inRest, stays⟩)
          · exact .inl (.inr stays)
          · exact .inl (.inl rfl)
          · exact .inr ⟨inRest, stays⟩

theorem dropped_settles (distinct : items.Nodup)
    (sorted : items.Pairwise fun item later => ¬ lt (key later) (key item)) :
    Settles key values lt items (· ∈ dropped key values [] items) := by
  intro item member
  refine (mem_dropped_after distinct sorted ownedBy_nil (by simp) item member).trans ?_
  constructor
  · rintro ⟨other, below, shares, kept | ⟨inItems, stays⟩⟩
    · cases kept
    · exact ⟨other, inItems, below, stays, shares⟩
  · rintro ⟨other, inItems, below, stays, shares⟩
    exact ⟨other, below, shares, .inr ⟨inItems, stays⟩⟩

end

theorem dropped_eq_nil (owned : OwnedBy key values owners kept)
    (consistent : ∀ item ∈ items, ∀ other, other ∈ kept ∨ other ∈ items → Shares values item other →
      key other = key item) : dropped key values owners items = [] := by
  induction items generalizing owners kept with
  | nil => rfl
  | cons item rest ih =>
    have free : contested key values owners item = false := by
      rw [Bool.eq_false_iff]
      intro taken
      obtain ⟨other, stays, different, shares⟩ := (contested_iff owned).mp taken
      exact different (consistent item mem_cons_self other (.inl stays) shares)
    rw [dropped, free, if_neg Bool.false_ne_true]
    refine ih (owned.claim free) fun later member other place shares => ?_
    refine consistent later (mem_cons_of_mem _ member) other ?_ shares
    rcases place with stays | inRest
    · rcases mem_cons.mp stays with rfl | stays
      · exact .inr mem_cons_self
      · exact .inl stays
    · exact .inr (mem_cons_of_mem _ inRest)

end Yaog.Data
