import Yaog.Controller.StoreInvariant
import Yaog.Controller.StoreSpecs

/-!
# The promotion as moves

A promotion writes the sealed bundles one by one and commits by the counter.
-/

namespace Yaog.Controller

open Data Durable List

variable {base current : Records SignedBundle} {entries : List (String × SignedBundle)} {between : Records SignedBundle}

def overwrite (base : Records SignedBundle) (entries : List (String × SignedBundle)) : Records SignedBundle :=
  entries.foldl (fun records entry => records.insert entry.1 (asCurrent entry.2)) base

def Partly (base : Records SignedBundle) (entries : List (String × SignedBundle))
    (current : Records SignedBundle) : Prop :=
  ∀ nodeID : String, current[nodeID]? = base[nodeID]? ∨
    ∃ entry ∈ entries, entry.1 = nodeID ∧ current[nodeID]? = some (asCurrent entry.2)

def Fully (base : Records SignedBundle) (entries : List (String × SignedBundle))
    (current : Records SignedBundle) : Prop :=
  (∀ entry ∈ entries, current[entry.1]? = some (asCurrent entry.2)) ∧
    ∀ nodeID : String, nodeID ∉ entries.map (·.1) → current[nodeID]? = base[nodeID]?

theorem overwrite_absent {nodeID : String}
    (absent : nodeID ∉ entries.map (·.1)) : (overwrite base entries)[nodeID]? = base[nodeID]? := by
  induction entries generalizing base with
  | nil => rfl
  | cons entry rest ih =>
    simp only [map_cons, mem_cons, not_or] at absent
    change (overwrite (base.insert entry.1 (asCurrent entry.2)) rest)[nodeID]? = base[nodeID]?
    rw [ih absent.2, Records.getElem?_insert, if_neg (Ne.symm absent.1)]

theorem overwrite_present
    (distinct : (entries.map (·.1)).Nodup) {entry : String × SignedBundle} (member : entry ∈ entries) :
    (overwrite base entries)[entry.1]? = some (asCurrent entry.2) := by
  induction entries generalizing base with
  | nil => exact (not_mem_nil member).elim
  | cons first rest ih =>
    rw [map_cons, nodup_cons] at distinct
    change (overwrite (base.insert first.1 (asCurrent first.2)) rest)[entry.1]? = _
    rcases mem_cons.mp member with rfl | later
    · rw [overwrite_absent distinct.1, Records.getElem?_insert, if_pos rfl]
    · exact ih distinct.2 later

theorem Fully.eq_overwrite (distinct : (entries.map (·.1)).Nodup)
    (attempted : Partly base entries between) (finished : Fully between entries current) :
    current = overwrite base entries := by
  apply Std.ExtTreeMap.ext_getElem?
  intro nodeID
  by_cases listed : nodeID ∈ entries.map (·.1)
  · obtain ⟨entry, member, rfl⟩ := mem_map.mp listed
    rw [finished.1 entry member, overwrite_present distinct member]
  · rw [finished.2 nodeID listed, overwrite_absent listed]
    rcases attempted nodeID with same | ⟨entry, member, rfl, -⟩
    · exact same
    · exact (listed (mem_map_of_mem member)).elim

theorem Partly.trans (first : Partly base entries between) (second : Partly between entries current) :
    Partly base entries current := by
  intro nodeID
  rcases second nodeID with same | written
  · rw [same]
    exact first nodeID
  · exact .inr written

section

variable {crypto : Crypto} {rules : Rules} {store : Store} {mark : StagedSetSeal} {list : Option StoredTrustList}
  {after : Store} {nodeIDs : List String}

def Attempted (store after : Store) : Prop :=
  Partly store.current (store.stagedAt (store.generation + 1)) after.current ∧
    ∃ current nodes servedTL, after = { store with current, nodes, servedTL }

def Store.servedAfter (store : Store) : Option StoredTrustList → Option StoredTrustList
  | some kept =>
    if kept.signature.isSome then some (kept.tagged (store.generation + 1)) else store.servedTL
  | none => store.servedTL

def Committed (store : Store) (list : Option StoredTrustList) (after : Store) : Prop :=
  after.generation = store.generation + 1 ∧ after.operatorCred = store.operatorCred ∧
    Fully store.current (store.stagedAt (store.generation + 1)) after.current ∧
    after.servedTL = store.servedAfter list

section

variable (ready : store.Candidate crypto mark list)

include ready

theorem Store.Candidate.live
    (current : Records SignedBundle) (nodes : Records RegistryNode) (servedTL : Option StoredTrustList) :
    ({ store with current, nodes, servedTL } : Store).Candidate crypto mark list :=
  ⟨ready.held, ready.checked, ready.next, ready.active, ready.nonempty, ready.keyed, ready.listing, ready.manifest⟩

section

variable (allowed : ∀ current nodes servedTL, rules.promotion { store with current, nodes, servedTL })

include allowed

theorem promoteBundle_promotes {entry : String × SignedBundle} {nodes : Records RegistryNode}
    (staged : entry ∈ store.stagedAt (store.generation + 1))
    (path : Promotes crypto rules store { store with current, nodes })
    (attempted : Partly store.current (store.stagedAt (store.generation + 1)) current) :
    Ensures { store with current, nodes } (promoteBundle (store.generation + 1) entry.2)
      (fun after => Promotes crypto rules store after ∧ Attempted store after) fun _ after =>
        Promotes crypto rules store after ∧
          ∃ nodes, after = { store with current := current.insert entry.1 (asCurrent entry.2), nodes } := by
  have keyed : entry.2.nodeID = entry.1 := ready.keyed _ _ (Store.mem_stagedAt.mp staged).1
  have installed := path.tail (Promote.install entry (ready.live current nodes store.servedTL)
    (allowed current nodes store.servedTL) staged)
  have written : Partly store.current (store.stagedAt (store.generation + 1))
      (current.insert entry.2.nodeID (asCurrent entry.2)) := by
    intro nodeID
    rw [keyed, Records.getElem?_insert]
    by_cases same : entry.1 = nodeID
    · exact .inr ⟨entry, staged, same, if_pos same⟩
    · rw [if_neg same]
      exact attempted nodeID
  refine .bind ?_
  apply Ensures.write ⟨path, attempted, current, nodes, store.servedTL, rfl⟩
    ⟨installed, written, _, nodes, store.servedTL, rfl⟩
  apply Ensures.read_bind
  split
  · next node _ =>
    let wanting : RegistryNode := { node with desiredGeneration := (store.generation + 1 : Nat) }
    have desired := installed.tail (Promote.desire entry.2.nodeID wanting)
    refine .write ⟨installed, written, _, nodes, store.servedTL, rfl⟩
      ⟨desired, written, _, nodes.insert entry.2.nodeID wanting, store.servedTL, rfl⟩
      ⟨desired, nodes.insert entry.2.nodeID wanting, ?_⟩
    rw [← keyed]
    rfl
  · refine .pure ⟨installed, nodes, ?_⟩
    rw [← keyed]
    rfl

theorem promoteBundles_promotes :
    Ensures store
      ((store.stagedAt (store.generation + 1)).forM fun entry => promoteBundle (store.generation + 1) entry.2)
      (fun after => Promotes crypto rules store after ∧ Attempted store after) fun _ after =>
        Promotes crypto rules store after ∧ ∃ current nodes, after = { store with current, nodes } ∧
          Fully store.current (store.stagedAt (store.generation + 1)) current := by
  apply Ensures.forM (fun served after => Promotes crypto rules store after ∧
    ∃ current nodes, after = { store with current, nodes } ∧ Fully store.current served current)
  · exact ⟨.refl, store.current, store.nodes, rfl, nofun, fun _ _ => rfl⟩
  · rintro served entry rest after split ⟨path, current, nodes, rfl, written, untouched⟩
    have staged : entry ∈ store.stagedAt (store.generation + 1) := by simp [split]
    have distinct := @stagedAt_distinct store (store.generation + 1)
    rw [split, map_append, map_cons, nodup_append] at distinct
    have attempted : Partly store.current (store.stagedAt (store.generation + 1)) current := by
      intro nodeID
      by_cases listed : nodeID ∈ served.map (·.1)
      · obtain ⟨earlier, member, rfl⟩ := mem_map.mp listed
        exact .inr ⟨earlier, by simp [split, member], rfl, written earlier member⟩
      · exact .inl (untouched nodeID listed)
    apply (promoteBundle_promotes ready allowed staged path attempted).weaken
    rintro _ after ⟨pathAfter, nodes, rfl⟩
    refine ⟨pathAfter, _, nodes, rfl, ?_, ?_⟩
    · intro other member
      rw [Records.getElem?_insert]
      rcases mem_append.mp member with old | new
      · have apart : entry.1 ≠ other.1 := fun same =>
          distinct.2.2 other.1 (mem_map_of_mem old) entry.1 mem_cons_self same.symm
        rw [if_neg apart]
        exact written other old
      · obtain rfl := mem_singleton.mp new
        rw [if_pos rfl]
    · intro nodeID absent
      simp only [map_append, map_cons, map_nil, mem_append, mem_singleton, not_or] at absent
      rw [Records.getElem?_insert, if_neg (Ne.symm absent.2)]
      exact untouched nodeID absent.1

theorem serveManifest_promotes {nodes : Records RegistryNode}
    (path : Promotes crypto rules store { store with current, nodes })
    (attempted : Partly store.current (store.stagedAt (store.generation + 1)) current) :
    Ensures { store with current, nodes } (serveManifest (store.generation + 1) list)
      (fun after => Promotes crypto rules store after ∧ Attempted store after) fun _ after =>
        Promotes crypto rules store after ∧
          after = { store with current, nodes, servedTL := store.servedAfter list } := by
  cases list with
  | none => exact .pure ⟨path, rfl⟩
  | some kept =>
    simp only [serveManifest, Store.servedAfter]
    split
    · next signed =>
      have served := path.tail (Promote.serve kept (ready.live current nodes store.servedTL)
        (allowed current nodes store.servedTL) signed)
      exact .write ⟨path, attempted, current, nodes, store.servedTL, rfl⟩
        ⟨served, attempted, current, nodes, _, rfl⟩ ⟨served, rfl⟩
    · exact .pure ⟨path, rfl⟩

end

end

theorem sweep_promotes (keeps : Store → Prop) (stable : ∀ state nodeID, keeps state → keeps (state.delStaged nodeID))
    (path : Promotes crypto rules store after) (holds : keeps after) (retired : after.Retired mark) :
    Ensures after (nodeIDs.forM fun nodeID => (tryWrite (Store.delStaged nodeID) : Durable Store StoreError Unit))
      (fun state => Promotes crypto rules store state ∧ keeps state) fun _ state =>
        Promotes crypto rules store state ∧ keeps state ∧ state.Retired mark := by
  apply Ensures.forM (fun _ state => Promotes crypto rules store state ∧ keeps state ∧ state.Retired mark)
  · exact ⟨path, holds, retired⟩
  · rintro _ nodeID _ state - ⟨pathSo, held, stillRetired⟩
    exact .tryWrite ⟨pathSo, held⟩ ⟨pathSo, held, stillRetired⟩
      ⟨pathSo.tail (Promote.sweep nodeID stillRetired), stable state nodeID held, stillRetired⟩

theorem clearPromoted_promotes (manifest : after.loadSealedTrustList crypto mark = .ok list)
    (path : Promotes crypto rules store after) (committed : Committed store list after) (retired : after.Retired mark) :
    Ensures after (clearPromoted crypto (store.generation + 1) nodeIDs list)
      (fun state => Promotes crypto rules store state ∧ Committed store list state) fun _ state =>
        Promotes crypto rules store state ∧ Committed store list state := by
  cases list with
  | none =>
    have unlisted := Store.loadSealedTrustList_eq_none.mp manifest
    refine .bind ?_
    apply (sweep_promotes (Committed store none) (fun _ _ held => held) path committed retired).weaken
    rintro _ swept ⟨sweptPath, sweptCommitted, sweptRetired⟩
    have kept : ∀ other, swept.stagedSeal = some other → swept.Retired other ∧ other.hasTrustList = false := by
      intro other held
      obtain rfl := Option.some.inj (sweptRetired.1.symm.trans held)
      exact ⟨sweptRetired, unlisted⟩
    have retiredPath := sweptPath.tail (Promote.retire sweptRetired)
    refine .bind ?_
    apply Ensures.tryWrite ⟨sweptPath, sweptCommitted⟩
    · exact .tryWrite ⟨sweptPath, sweptCommitted⟩ ⟨sweptPath, sweptCommitted⟩
        ⟨sweptPath.tail (Promote.forget kept), sweptCommitted⟩
    · exact .tryWrite ⟨retiredPath, sweptCommitted⟩ ⟨retiredPath, sweptCommitted⟩
        ⟨retiredPath.tail (Promote.forget nofun), sweptCommitted⟩
  | some kept =>
    obtain ⟨listed, staged, named⟩ := Store.loadSealedTrustList_eq_some.mp manifest
    refine .bind ?_
    apply (sweep_promotes (fun state => Committed store (some kept) state ∧ state.stagedTL = some kept)
      (fun _ _ held => held) path ⟨committed, staged⟩ retired).mono (fun _ stopped => ⟨stopped.1, stopped.2.1⟩)
    rintro _ swept ⟨sweptPath, ⟨sweptCommitted, sweptStaged⟩, sweptRetired⟩
    have remembered := sweptPath.tail (Promote.remember kept sweptRetired sweptStaged)
    rw [sweptCommitted.1] at remembered
    have archived {state : Store} (statePath : Promotes crypto rules store state)
        (held : Committed store (some kept) state) (stillRetired : state.Retired mark)
        (stillStaged : state.stagedTL = some kept) :
        Ensures state (tryWrite (Store.putSeal (some (historicalSeal crypto (store.generation + 1) kept))) :
            Durable Store StoreError Unit)
          (fun state => Promotes crypto rules store state ∧ Committed store (some kept) state)
          fun _ state => Promotes crypto rules store state ∧ Committed store (some kept) state := by
      have marked := statePath.tail (Promote.archive kept stillRetired listed stillStaged)
      rw [held.1] at marked
      exact .tryWrite ⟨statePath, held⟩ ⟨statePath, held⟩ ⟨marked, held⟩
    refine .bind ?_
    apply Ensures.tryWrite ⟨sweptPath, sweptCommitted⟩
    · exact archived sweptPath sweptCommitted sweptRetired sweptStaged
    · exact archived remembered sweptCommitted sweptRetired sweptStaged

theorem promoteSealed_promotes
    (allowed : (∃ mark list, store.Candidate crypto mark list) →
      ∀ current nodes servedTL, rules.promotion { store with current, nodes, servedTL }) :
    Ensures store (promoteSealed crypto)
      (fun after => Promotes crypto rules store after ∧
        (after = store ∨ ∃ mark list, store.Candidate crypto mark list ∧
          (Attempted store after ∨ Committed store list after)))
      fun _ after => Promotes crypto rules store after ∧
        ∃ mark list, store.Candidate crypto mark list ∧ Committed store list after := by
  have begin : Promotes crypto rules store store := .refl
  apply Ensures.read_bind
  apply Ensures.lift_bind (fun _ _ => ⟨begin, .inl rfl⟩)
  rintro ⟨entries, list⟩ sealed
  obtain ⟨rfl, mark, ready⟩ := Store.sealedCandidate_eq_ok.mp sealed
  have permitted := allowed ⟨mark, list, ready⟩
  refine .bind ?_
  apply (promoteBundles_promotes ready permitted).mono
    fun after stopped => ⟨stopped.1, .inr ⟨mark, list, ready, .inl stopped.2⟩⟩
  rintro _ after ⟨path, current, nodes, rfl, full⟩
  have attempted : Partly store.current (store.stagedAt (store.generation + 1)) current := by
    intro nodeID
    by_cases listed : nodeID ∈ (store.stagedAt (store.generation + 1)).map (·.1)
    · obtain ⟨entry, member, rfl⟩ := mem_map.mp listed
      exact .inr ⟨entry, member, rfl, full.1 entry member⟩
    · exact .inl (full.2 nodeID listed)
  refine .bind ?_
  apply (serveManifest_promotes ready permitted path attempted).mono
    fun after stopped => ⟨stopped.1, .inr ⟨mark, list, ready, .inl stopped.2⟩⟩
  rintro _ after ⟨servedPath, rfl⟩
  let servedTL := store.servedAfter list
  have live := ready.live current nodes servedTL
  have served : ∀ kept, list = some kept → kept.signature.isSome = true →
      servedTL = some (kept.tagged (store.generation + 1)) := by
    rintro kept rfl signed
    exact if_pos signed
  let flipped : Store := Store.setGeneration (store.generation + 1) { store with current, nodes, servedTL }
  have committed : Committed store list flipped := ⟨rfl, rfl, full, rfl⟩
  have commit : Promotes crypto rules store flipped :=
    servedPath.tail (Promote.commit live (permitted current nodes servedTL) ⟨full.1, served⟩)
  refine .bind ?_
  apply Ensures.write ⟨servedPath, .inr ⟨mark, list, ready, .inl ⟨attempted, current, nodes, servedTL, rfl⟩⟩⟩
    ⟨commit, .inr ⟨mark, list, ready, .inr committed⟩⟩
  refine .bind ?_
  apply (clearPromoted_promotes (show flipped.loadSealedTrustList crypto mark = _ from ready.manifest) commit committed
    ⟨ready.held, ready.next, ready.active⟩).mono
      fun after stopped => ⟨stopped.1, .inr ⟨mark, list, ready, .inr stopped.2⟩⟩
  intro _ after ended
  exact .pure ⟨ended.1, mark, list, ready, ended.2⟩

end

end Yaog.Controller
