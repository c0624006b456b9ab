import Yaog.Controller.DeployMoves

/-!
# What holds between the controller's writes

Two invariants over the moves within the controller's rules: the manifests descend from one another,
and a candidate that can be promoted is bound by its manifest.
-/

namespace Yaog.Controller

open Data Durable Option

namespace StoredTrustList

variable {first second third : StoredTrustList}

theorem Continues.refl (list : StoredTrustList) : list.Continues list := ⟨le_refl _, fun _ => rfl⟩

theorem Continues.trans (newer : third.Continues second) (older : second.Continues first) :
    third.Continues first := by
  refine ⟨older.1.trans newer.1, fun same => ?_⟩
  have lower : first.epoch = second.epoch := le_antisymm older.1 (same ▸ newer.1)
  have upper : second.epoch = third.epoch := lower.symm.trans same
  exact (older.2 lower).trans (newer.2 upper)

theorem Same.symm (same : first.Same second) : second.Same first := ⟨same.1.symm, same.2.symm⟩

theorem Same.continues (same : first.Same second) : first.Continues second :=
  ⟨le_of_eq same.2.symm, fun _ => by rw [same.1]⟩

theorem tagged_same (list : StoredTrustList) (generation : Nat) : (list.tagged generation).Same list := by
  unfold StoredTrustList.tagged
  split <;> exact ⟨rfl, rfl⟩

end StoredTrustList

/-- The staged manifest continues the history, and a sealed one is in it. -/
structure Store.Lineage (store : Store) : Prop where
  staged : ∀ list, store.stagedTL = some list → list.trustList.epoch = list.epoch
  kept : ∀ list, store.stagedTLHist = some list → list.trustList.epoch = list.epoch
  loose : ∀ list history, store.stagedTL = some list → store.stagedTLHist = some history →
    list.Continues history
  sealed : ∀ mark list, store.stagedSeal = some mark → mark.hasTrustList = true →
    store.stagedTL = some list → ∃ history, store.stagedTLHist = some history ∧ history.Same list
  served : store.servedTL.isSome = true → store.stagedTLHist.isSome = true

section

variable {crypto : Crypto} {store after : Store}

theorem Store.Lineage.fresh (staged : store.stagedTL = none) (served : store.servedTL = none)
    (history : store.stagedTLHist = none) : store.Lineage where
  staged := by simp [staged]
  kept := by simp [history]
  loose := by simp [staged]
  sealed := by simp [staged]
  served := by simp [served]

theorem Store.Lineage.aside (lineage : store.Lineage)
    (same : after.stagedTL = store.stagedTL ∧ after.stagedTLHist = store.stagedTLHist ∧
      after.stagedSeal = store.stagedSeal ∧ after.servedTL = store.servedTL) : after.Lineage := by
  obtain ⟨staged, history, sealed, served⟩ := same
  constructor
  · exact staged ▸ lineage.staged
  · exact history ▸ lineage.kept
  · rw [staged, history]
    exact lineage.loose
  · rw [staged, history, sealed]
    exact lineage.sealed
  · rw [history, served]
    exact lineage.served

theorem Store.Lineage.reseal (lineage : store.Lineage) {mark : Option StagedSetSeal}
    (listed : ∀ kept list, mark = some kept → kept.hasTrustList = true → store.stagedTL = some list →
      ∃ history, store.stagedTLHist = some history ∧ history.Same list) :
    (store.putSeal mark).Lineage :=
  ⟨lineage.staged, lineage.kept, lineage.loose, listed, lineage.served⟩

theorem Store.Lineage.record (lineage : store.Lineage) {list kept : StoredTrustList}
    (staged : store.stagedTL = some kept) (same : list.Same kept) : (store.putHistory list).Lineage where
  staged := lineage.staged
  kept := by
    intro other held
    cases held
    rw [same.1, same.2]
    exact lineage.staged kept staged
  loose := by
    intro other history held recorded
    cases recorded
    obtain rfl := mem_unique staged held
    exact same.symm.continues
  sealed := by
    intro mark other _ _ held
    obtain rfl := mem_unique staged held
    exact ⟨list, rfl, same⟩
  served := fun _ => rfl

theorem Prepare.lineage (move : Prepare crypto (deployRules crypto) store after) (lineage : store.Lineage) :
    after.Lineage := by
  cases move with
  | note => exact lineage.aside ⟨rfl, rfl, rfl, rfl⟩
  | record => exact lineage.aside ⟨rfl, rfl, rfl, rfl⟩
  | invalidate => exact lineage.reseal nofun
  | stage => exact lineage.aside ⟨rfl, rfl, rfl, rfl⟩
  | prune => exact lineage.aside ⟨rfl, rfl, rfl, rfl⟩
  | drop unsealed =>
    exact ⟨nofun, lineage.kept, nofun, nofun, lineage.served⟩
  | manifest list unsealed allowed =>
    refine ⟨?_, lineage.kept, ?_, ?_, lineage.served⟩
    · intro other held
      cases held
      exact allowed.1
    · intro other history held recorded
      cases held
      refine allowed.2 history ?_
      change (store.stagedTLHist <|> store.stagedTL <|> store.servedTL) = some history
      rw [show store.stagedTLHist = some history from recorded]
      rfl
    · intro mark other held
      exact absurd (unsealed.symm.trans held) (by simp)
  | history list unsealed known =>
    rcases known with staged | recorded
    · exact lineage.record staged ⟨rfl, rfl⟩
    · exact lineage.aside ⟨rfl, recorded.symm, rfl, rfl⟩
  | restore list unsealed kept =>
    refine ⟨?_, lineage.kept, ?_, ?_, lineage.served⟩
    · intro other held
      cases held
      exact lineage.kept list kept
    · intro other history held recorded
      cases held
      obtain rfl := mem_unique kept recorded
      exact .refl list
    · intro mark other held
      exact absurd (unsealed.symm.trans held) (by simp)
  | resignHistory mark list settled held named allowed =>
    obtain ⟨kept, staged, same⟩ := allowed
    exact lineage.record staged same
  | resign mark list settled held named allowed kept =>
    refine ⟨?_, lineage.kept, ?_, ?_, lineage.served⟩
    · intro other staged
      cases staged
      exact lineage.kept list kept
    · intro other history staged recorded
      cases staged
      obtain rfl := mem_unique kept recorded
      exact .refl list
    · intro mark other _ _ staged
      cases staged
      exact ⟨list, kept, rfl, rfl⟩
  | sealHistory generation list unsealed positive bound staged =>
    apply lineage.reseal
    intro mark other _ _ held
    obtain rfl := some.inj (staged.1.symm.trans held)
    exact ⟨list, staged.2, rfl, rfl⟩
  | sealCandidate list unsealed keyed staged =>
    apply lineage.reseal
    intro mark other _ _ held
    cases list with
    | none => exact absurd (staged.symm.trans held) (by simp)
    | some kept =>
      obtain rfl := some.inj (staged.1.symm.trans held)
      exact ⟨kept, staged.2, rfl, rfl⟩
  | wake => exact lineage.aside ⟨rfl, rfl, rfl, rfl⟩

theorem Promote.lineage (move : Promote crypto (deployRules crypto) store after) (lineage : store.Lineage) :
    after.Lineage := by
  cases move with
  | install => exact lineage.aside ⟨rfl, rfl, rfl, rfl⟩
  | desire => exact lineage.aside ⟨rfl, rfl, rfl, rfl⟩
  | serve list ready =>
    obtain ⟨listed, staged, named⟩ := Store.loadSealedTrustList_eq_some.mp ready.manifest
    obtain ⟨history, recorded, -⟩ := lineage.sealed _ list ready.held listed staged
    refine ⟨lineage.staged, lineage.kept, lineage.loose, lineage.sealed, fun _ => ?_⟩
    change store.stagedTLHist.isSome = true
    rw [recorded]
    rfl
  | commit => exact lineage.aside ⟨rfl, rfl, rfl, rfl⟩
  | sweep => exact lineage.aside ⟨rfl, rfl, rfl, rfl⟩
  | retire => exact lineage.reseal nofun
  | forget =>
    exact ⟨nofun, lineage.kept, nofun, nofun, lineage.served⟩
  | remember list retired staged => exact lineage.record staged (list.tagged_same _)
  | archive list retired listed staged =>
    apply lineage.reseal
    intro mark other _ _ held
    exact lineage.sealed _ other retired.1 listed held

def Store.Forward (before after : Store) : Prop :=
  ∀ history, before.stagedTLHist = some history →
    ∃ next, after.stagedTLHist = some next ∧ next.Continues history

theorem Store.Forward.refl (store : Store) : store.Forward store := fun history held => ⟨history, held, .refl history⟩

theorem Store.Forward.trans {first second third : Store} (before : first.Forward second)
    (after : second.Forward third) : first.Forward third := by
  intro history held
  obtain ⟨next, recorded, continues⟩ := before history held
  obtain ⟨last, kept, onward⟩ := after next recorded
  exact ⟨last, kept, onward.trans continues⟩

theorem Store.Forward.of_eq (same : after.stagedTLHist = store.stagedTLHist) : store.Forward after := by
  intro history held
  exact ⟨history, same.trans held, .refl history⟩

theorem Store.Lineage.forward (lineage : store.Lineage) {list kept : StoredTrustList}
    (staged : store.stagedTL = some kept) (same : list.Same kept) : store.Forward (store.putHistory list) := by
  intro history held
  exact ⟨list, rfl, same.continues.trans (lineage.loose kept history staged held)⟩

theorem Move.forward (move : Move crypto (deployRules crypto) store after) (lineage : store.Lineage) :
    store.Forward after := by
  cases move with
  | prepare move =>
    cases move with
    | history list unsealed known =>
      rcases known with staged | recorded
      · exact lineage.forward staged ⟨rfl, rfl⟩
      · exact .of_eq recorded.symm
    | resignHistory mark list settled held named allowed =>
      obtain ⟨kept, staged, same⟩ := allowed
      exact lineage.forward staged same
    | _ => exact .of_eq rfl
  | promote move =>
    cases move with
    | remember list retired staged => exact lineage.forward staged (list.tagged_same _)
    | _ => exact .of_eq rfl

def Store.Bound (crypto : Crypto) (store : Store) : Prop :=
  ∀ mark, store.stagedSeal = some mark → mark.historical = false → mark.generation = store.generation + 1 →
    mark.nodeIDs ≠ [] → ∀ list, store.stagedTL = some list → ∀ member ∈ list.trustList.members,
      store.Binds crypto member

theorem Store.Bound.unsealed (unsealed : store.stagedSeal = none) : store.Bound crypto := by
  intro mark held
  exact absurd (unsealed.symm.trans held) (by simp)

theorem Store.Bound.passed {mark : StagedSetSeal} (held : store.stagedSeal = some mark)
    (passed : mark.historical = true ∨ mark.generation ≠ store.generation + 1) : store.Bound crypto := by
  intro other stillHeld active next
  obtain rfl := mem_unique held stillHeld
  rcases passed with archived | elsewhere
  · exact absurd (archived.symm.trans active) (by simp)
  · exact absurd next elsewhere

theorem Store.Bound.aside (bound : store.Bound crypto)
    (same : after.stagedSeal = store.stagedSeal ∧ after.stagedTL = store.stagedTL ∧
      after.generation = store.generation ∧ after.staged = store.staged ∧ after.current = store.current) :
    after.Bound crypto := by
  obtain ⟨sealed, listed, generation, staged, current⟩ := same
  simp only [Store.Bound, Store.Binds, sealed, listed, generation, staged, current]
  exact bound

theorem Prepare.bound (move : Prepare crypto (deployRules crypto) store after) (bound : store.Bound crypto) :
    after.Bound crypto := by
  cases move with
  | note => exact bound.aside ⟨rfl, rfl, rfl, rfl, rfl⟩
  | record => exact bound.aside ⟨rfl, rfl, rfl, rfl, rfl⟩
  | invalidate => exact .unsealed rfl
  | stage _ unsealed => exact .unsealed unsealed
  | prune _ unsealed => exact .unsealed unsealed
  | drop unsealed => exact .unsealed unsealed
  | manifest _ unsealed => exact .unsealed unsealed
  | history _ unsealed => exact .unsealed unsealed
  | restore _ unsealed => exact .unsealed unsealed
  | resignHistory => exact bound.aside ⟨rfl, rfl, rfl, rfl, rfl⟩
  | resign mark list settled held named allowed kept =>
    -- The signed manifest has the members of the unsigned one.
    obtain ⟨unsigned, staged, same⟩ := allowed
    intro mark stillHeld active next nonempty other restaged member listed
    cases restaged
    rw [same.1] at listed
    exact bound mark stillHeld active next nonempty unsigned staged member listed
  | sealHistory => exact .passed rfl (.inl rfl)
  | sealCandidate list unsealed keyed staged allowed =>
    intro mark held active next nonempty other manifest member listed
    cases held
    refine allowed (fun none => nonempty ?_) other manifest member listed
    cases list <;> simp [candidateSeal, none]
  | wake settled closed =>
    cases sealed : store.stagedSeal with
    | none => exact .unsealed sealed
    | some mark => exact .passed sealed (.inl (closed mark sealed))

theorem Promote.bound (move : Promote crypto (deployRules crypto) store after) (bound : store.Bound crypto) :
    after.Bound crypto := by
  cases move with
  | install entry ready _ staged =>
    obtain ⟨held, generation⟩ := Store.mem_stagedAt.mp staged
    intro mark stillHeld active next nonempty list manifest member listed
    rcases bound mark stillHeld active next nonempty list manifest member listed with fresh | ⟨apart, bundle, current, rest⟩
    · exact .inl fresh
    · refine .inr ⟨apart, bundle, ?_, rest⟩
      have other : (asCurrent entry.2).nodeID ≠ member.nodeID := by
        intro same
        rw [show (asCurrent entry.2).nodeID = entry.1 from ready.keyed entry.1 entry.2 held] at same
        exact apart entry.2 (same ▸ held) generation
      change (store.current.insert _ _)[member.nodeID]? = some bundle
      rw [Records.getElem?_insert, if_neg other]
      exact current
  | desire => exact bound.aside ⟨rfl, rfl, rfl, rfl, rfl⟩
  | serve => exact bound.aside ⟨rfl, rfl, rfl, rfl, rfl⟩
  | commit ready =>
    refine .passed ready.held (.inr ?_)
    rw [ready.next]
    exact Nat.ne_of_lt (Nat.lt_succ_self _)
  | sweep _ retired => exact .passed retired.1 (.inr (retired.2.1 ▸ Nat.ne_of_lt (Nat.lt_succ_self _)))
  | retire => exact .unsealed rfl
  | forget unlisted =>
    cases sealed : store.stagedSeal with
    | none => exact .unsealed sealed
    | some mark =>
      have retired := (unlisted mark sealed).1
      exact .passed sealed (.inr (retired.2.1 ▸ Nat.ne_of_lt (Nat.lt_succ_self _)))
  | remember => exact bound.aside ⟨rfl, rfl, rfl, rfl, rfl⟩
  | archive => exact .passed rfl (.inl rfl)

/-- What holds between any two writes of the controller. -/
structure Store.Deployed (crypto : Crypto) (store : Store) : Prop where
  sound : store.Sound crypto
  lineage : store.Lineage
  bound : store.Bound crypto

theorem Store.Deployed.aside (deployed : store.Deployed crypto)
    (same : after = { store with
      operatorCred := after.operatorCred, keystoneTransition := after.keystoneTransition
      audit := after.audit, nodes := after.nodes, topology := after.topology
      signingAnchor := after.signingAnchor, draws := after.draws }) : after.Deployed crypto := by
  rw [same]
  exact ⟨deployed.sound.aside rfl, deployed.lineage.aside ⟨rfl, rfl, rfl, rfl⟩,
    deployed.bound.aside ⟨rfl, rfl, rfl, rfl, rfl⟩⟩

theorem Move.deployed (move : Move crypto (deployRules crypto) store after) (deployed : store.Deployed crypto) :
    after.Deployed crypto := by
  cases move with
  | prepare move => exact ⟨move.sound deployed.sound, move.lineage deployed.lineage, move.bound deployed.bound⟩
  | promote move => exact ⟨move.sound deployed.sound, move.lineage deployed.lineage, move.bound deployed.bound⟩

theorem Moves.deployed (path : Moves crypto (deployRules crypto) store after) (deployed : store.Deployed crypto) :
    after.Deployed crypto ∧ store.Forward after := by
  induction path with
  | refl => exact ⟨deployed, .refl store⟩
  | tail _ move ih => exact ⟨move.deployed ih.1, ih.2.trans (move.forward ih.1.lineage)⟩

end

end Yaog.Controller
