import Yaog.Controller.StoreFacts

/-!
# The staging protocol, one durable write at a time

Every write of the store's operations is one of the moves below, with the facts its writer has checked before.
-/

namespace Yaog.Controller

open Data

/-- What a caller of the store respects. -/
structure Rules where
  /-- A manifest written while nothing is sealed. -/
  manifest : Store → StoredTrustList → Prop
  /-- A manifest that takes the place of the sealed one. -/
  resign : Store → StoredTrustList → Prop
  /-- A non-empty candidate about to be sealed. -/
  candidate : Store → Prop
  promotion : Store → Prop
  /-- A design written over the stored one. -/
  design : Option Topology → Prop

def Rules.any : Rules := ⟨fun _ _ => True, fun _ _ => True, fun _ => True, fun _ => True, fun _ => True⟩

def Store.Manifest (store : Store) : Option StoredTrustList → Prop
  | none => store.stagedTL = none
  | some list => store.stagedTL = some list ∧ store.stagedTLHist = some list

section

variable (crypto : Crypto) (rules : Rules)

/-- A write that stages, seals or wakes. -/
inductive Prepare (store : Store) : Store → Prop
  | note (entry : AuditEntry) (plain : entry.eventID = "") (settled : store.keystoneTransition = none) :
      Prepare store (store.appendAudit entry)
  | record (nodes topology signingAnchor) (allowed : topology = store.topology ∨ rules.design topology) :
      Prepare store { store with nodes, topology, signingAnchor }
  | invalidate (settled : ¬store.Ahead) : Prepare store (store.putSeal none)
  | stage (bundle : SignedBundle) (unsealed : store.stagedSeal = none)
      (named : bundle.nodeID ≠ "") (next : bundle.generation = store.generation + 1) :
      Prepare store (store.putStaged bundle)
  | prune (nodeID : String) (unsealed : store.stagedSeal = none) :
      Prepare store (store.delStaged nodeID)
  | drop (unsealed : store.stagedSeal = none) : Prepare store (store.putStagedTL none)
  | manifest (list : StoredTrustList) (unsealed : store.stagedSeal = none)
      (allowed : rules.manifest store list) : Prepare store (store.putStagedTL (some list))
  | history (list : StoredTrustList) (unsealed : store.stagedSeal = none)
      (known : store.stagedTL = some list ∨ store.stagedTLHist = some list) :
      Prepare store (store.putHistory list)
  | restore (list : StoredTrustList) (unsealed : store.stagedSeal = none)
      (kept : store.stagedTLHist = some list) : Prepare store (store.putStagedTL (some list))
  | resignHistory (mark : StagedSetSeal) (list : StoredTrustList) (settled : ¬store.Ahead)
      (held : store.stagedSeal = some mark) (named : mark.Names crypto list)
      (allowed : rules.resign store list) : Prepare store (store.putHistory list)
  | resign (mark : StagedSetSeal) (list : StoredTrustList) (settled : ¬store.Ahead)
      (held : store.stagedSeal = some mark) (named : mark.Names crypto list)
      (allowed : rules.resign store list) (kept : store.stagedTLHist = some list) :
      Prepare store (store.putStagedTL (some list))
  | sealHistory (generation : Nat) (list : StoredTrustList)
      (unsealed : store.stagedSeal = none) (positive : 0 < generation)
      (bound : generation ≤ store.generation + 1) (staged : store.Manifest (some list)) :
      Prepare store (store.putSeal (some (historicalSeal crypto generation list)))
  | sealCandidate (list : Option StoredTrustList) (unsealed : store.stagedSeal = none)
      (keyed : store.StagedKeyed) (staged : store.Manifest list)
      (allowed : store.stagedAt (store.generation + 1) ≠ [] → rules.candidate store) :
      Prepare store (store.putSeal (some (candidateSeal crypto (store.generation + 1)
        ((store.stagedAt (store.generation + 1)).map (·.1)) list)))
  | wake (settled : ¬store.Ahead)
      (closed : ∀ mark, store.stagedSeal = some mark → mark.historical = true) :
      Prepare store (store.setGeneration (store.generation + 1))

/-- The candidate is current and its manifest is served. -/
structure Store.Installed (store : Store) (list : Option StoredTrustList) : Prop where
  bundles : ∀ entry ∈ store.stagedAt (store.generation + 1),
    store.current[entry.1]? = some (asCurrent entry.2)
  manifest : ∀ kept, list = some kept → kept.signature.isSome = true →
    store.servedTL = some (kept.tagged (store.generation + 1))

def Store.Retired (store : Store) (mark : StagedSetSeal) : Prop :=
  store.stagedSeal = some mark ∧ mark.generation = store.generation ∧ mark.historical = false

/-- A write that promotes. -/
inductive Promote (store : Store) : Store → Prop
  | install {mark : StagedSetSeal} {list : Option StoredTrustList}
      (entry : String × SignedBundle) (ready : store.Candidate crypto mark list)
      (allowed : rules.promotion store) (staged : entry ∈ store.stagedAt (store.generation + 1)) :
      Promote store (store.putCurrent (asCurrent entry.2))
  | desire (nodeID : String) (node : RegistryNode) : Promote store (store.putNode nodeID node)
  | serve {mark : StagedSetSeal} (list : StoredTrustList)
      (ready : store.Candidate crypto mark (some list)) (allowed : rules.promotion store)
      (signed : list.signature.isSome = true) :
      Promote store (store.putServed (list.tagged (store.generation + 1)))
  | commit {mark : StagedSetSeal} {list : Option StoredTrustList}
      (ready : store.Candidate crypto mark list) (allowed : rules.promotion store)
      (installed : store.Installed list) : Promote store (store.setGeneration (store.generation + 1))
  | sweep {mark : StagedSetSeal} (nodeID : String) (retired : store.Retired mark) :
      Promote store (store.delStaged nodeID)
  | retire {mark : StagedSetSeal} (retired : store.Retired mark) :
      Promote store (store.putSeal none)
  | forget (unlisted : ∀ mark, store.stagedSeal = some mark →
      store.Retired mark ∧ mark.hasTrustList = false) : Promote store (store.putStagedTL none)
  | remember {mark : StagedSetSeal} (list : StoredTrustList) (retired : store.Retired mark)
      (staged : store.stagedTL = some list) :
      Promote store (store.putHistory (list.tagged store.generation))
  | archive {mark : StagedSetSeal} (list : StoredTrustList) (retired : store.Retired mark)
      (listed : mark.hasTrustList = true) (staged : store.stagedTL = some list) :
      Promote store (store.putSeal (some (historicalSeal crypto store.generation list)))

/-- Any write of the store's operations. -/
inductive Move : Store → Store → Prop
  | prepare {before after} (move : Prepare crypto rules before after) : Move before after
  | promote {before after} (move : Promote crypto rules before after) : Move before after

/-- Preparing writes, one after another. -/
abbrev Prepares : Store → Store → Prop := Relation.ReflTransGen (Prepare crypto rules)

/-- Promoting writes, one after another. -/
abbrev Promotes : Store → Store → Prop := Relation.ReflTransGen (Promote crypto rules)

abbrev Moves : Store → Store → Prop := Relation.ReflTransGen (Move crypto rules)

end

section

variable {crypto : Crypto} {rules : Rules} {before after : Store}

theorem Prepares.moves (path : Prepares crypto rules before after) : Moves crypto rules before after :=
  path.lift id fun _ _ => Move.prepare

theorem Promotes.moves (path : Promotes crypto rules before after) : Moves crypto rules before after :=
  path.lift id fun _ _ => Move.promote

theorem Prepares.live (path : Prepares crypto rules before after) :
    after.current = before.current ∧ after.servedTL = before.servedTL ∧
      after.operatorCred = before.operatorCred ∧ before.generation ≤ after.generation ∧
      (before.Ahead → after.generation = before.generation) := by
  induction path with
  | refl => exact ⟨rfl, rfl, rfl, le_refl _, fun _ => rfl⟩
  | tail _ move ih =>
    obtain ⟨current, served, cred, bound, blocked⟩ := ih
    cases move with
    | wake settled closed =>
      refine ⟨current, served, cred, Nat.le_succ_of_le bound, fun ahead => ?_⟩
      refine absurd ?_ settled
      rw [Store.Ahead, current, served, blocked ahead]
      exact ahead
    | _ => exact ⟨current, served, cred, bound, blocked⟩

theorem Prepares.topology (path : Prepares crypto rules before after) :
    after.topology = before.topology ∨ rules.design after.topology := by
  induction path with
  | refl => exact .inl rfl
  | tail _ move ih =>
    cases move with
    | record nodes topology signingAnchor allowed =>
      rcases allowed with rfl | allowed
      · exact ih
      · exact .inr allowed
    | _ => exact ih

theorem Prepares.not_ahead (path : Prepares crypto rules before after) (settled : ¬before.Ahead) :
    ¬after.Ahead := by
  obtain ⟨current, served, -, bound, -⟩ := path.live
  rw [Store.Ahead, current, served]
  rintro (⟨nodeID, bundle, held, above⟩ | ⟨list, held, above⟩)
  · exact settled (.inl ⟨nodeID, bundle, held, Nat.lt_of_le_of_lt bound above⟩)
  · exact settled (.inr ⟨list, held, Nat.lt_of_le_of_lt bound above⟩)

end

end Yaog.Controller
