import Yaog.Controller.DeployInvariant

/-!
# Runs of the controller

The remaining operations as moves, and the runs of all of them: each call has its own plan of faults,
and the registry and the topology may change between calls.
-/

namespace Yaog.Controller

open Data Durable

section

variable {crypto : Crypto} {store after between : Store} {reached : Store → Prop}

theorem Reconciled.deployed (reached : Reconciled store between) (deployed : store.Deployed crypto) :
    between.Deployed crypto := by
  obtain ⟨pending, audit, rfl⟩ := reached
  exact deployed.aside rfl

theorem Reconciled.forward (reached : Reconciled store between) : store.Forward between := by
  obtain ⟨pending, audit, rfl⟩ := reached
  exact .of_eq rfl

theorem Store.Deployed.resigns (deployed : store.Deployed crypto) {stored : StoredTrustList}
    (visible : store.getCurrentSignedTrustList crypto = .ok stored) (signed : SignedTrustList) :
    Keeps store (putSignedTrustList crypto
        { trustList := stored.trustList, signature := some signed, epoch := stored.epoch })
      (Prepares crypto (deployRules crypto) store) := by
  obtain ⟨mark, held, checked, listed, staged, named⟩ := Store.getCurrentSignedTrustList_eq_ok.mp visible
  apply putSignedTrustList_prepares
  · intro _ _ _ _
    exact ⟨⟨stored, staged, rfl, rfl⟩, stored, staged, rfl, rfl⟩
  · refine ⟨deployed.lineage.staged stored staged, fun prior last => ?_⟩
    -- The last manifest is the history, and a sealed manifest is in it.
    obtain ⟨history, recorded, same⟩ := deployed.lineage.sealed mark stored held listed staged
    change (store.stagedTLHist <|> store.stagedTL <|> store.servedTL) = some prior at last
    rw [recorded] at last
    cases last
    exact StoredTrustList.Same.continues ⟨same.symm.1, same.symm.2⟩
  · intro elsewhere staging
    -- A seal of another generation means that nothing is staged for the next one.
    obtain ⟨active, passed⟩ := elsewhere mark (Store.loadSeal_eq_ok.mpr ⟨held, checked⟩) listed named
    obtain ⟨entry, member⟩ := List.exists_mem_of_ne_nil _ staging
    obtain ⟨found, next⟩ := Store.mem_stagedAt.mp member
    have bound := deployed.sound.passed mark held active passed entry.1 entry.2 found
    exact absurd next (Nat.ne_of_lt (Nat.lt_succ_of_le bound))

theorem installTrustListSignature_prepares
    (reconciled : Ensures store reconcilePendingKeystoneTransition reached fun _ => reached)
    (deployed : ∀ between, reached between → between.Deployed crypto) (submitted : TrustList)
    (signed : SignedTrustList) :
    Keeps store (installTrustListSignature crypto submitted signed) (Prepared crypto reached fun _ => True) := by
  refine .bind ?_
  apply (Ensures.mapFail reconciled).mono (fun after here => ⟨after, here, .refl⟩)
  intro _ between here
  have begin : Prepared crypto reached (fun _ => True) between := ⟨between, here, .refl⟩
  apply Ensures.read_bind
  split
  · exact .fail begin
  · apply Ensures.lift_bind (fun _ _ => begin)
    intro stored visible
    apply Ensures.require_bind (fun _ => begin)
    intro _
    apply Ensures.require_bind (fun _ => begin)
    intro _
    apply Ensures.require_bind (fun _ => begin)
    intro _
    refine .bind ?_
    have resigned := (deployed between here).resigns (mapError_eq_ok visible) signed
    apply (Ensures.mapFail resigned).mono (fun _ path => ⟨between, here, path⟩)
    exact fun _ _ path => .pure ⟨between, here, path⟩

def Store.Gated (crypto : Crypto) (store : Store) : Prop := (deployRules crypto).promotion store

theorem promoteGate_ok {cred : OperatorCredential} (passed : promoteGate crypto store cred = .ok ()) :
    ∃ list, store.getCurrentSignedTrustList crypto = .ok list ∧ verifiesAgainst crypto list cred = true := by
  unfold promoteGate at passed
  cases visible : store.getCurrentSignedTrustList crypto with
  | error reason => cases reason <;> simp [visible] at passed
  | ok list =>
    simp only [visible] at passed
    split_ifs at passed with unsigned verified
    exact ⟨list, rfl, verified⟩

theorem promoteStaged_promotes
    (reconciled : Ensures store reconcilePendingKeystoneTransition reached fun _ => reached) :
    Ensures store (promoteStaged crypto)
      (fun after => ∃ between, reached between ∧ Promotes crypto (deployRules crypto) between after ∧
        (after = between ∨ ∃ mark list, between.Candidate crypto mark list ∧ between.Gated crypto ∧
          (Attempted between after ∨ Committed between list after)))
      fun _ after => ∃ between, reached between ∧ Promotes crypto (deployRules crypto) between after ∧
        ∃ mark list, between.Candidate crypto mark list ∧ between.Gated crypto ∧ Committed between list after := by
  refine .bind ?_
  apply (Ensures.mapFail reconciled).mono (fun after here => ⟨after, here, .refl, .inl rfl⟩)
  intro _ between here
  apply Ensures.read_bind
  apply Ensures.lift_bind (fun _ _ => ⟨between, here, .refl, .inl rfl⟩)
  intro _ passed
  have gated : between.Gated crypto := by
    intro cred pinned
    rw [pinned] at passed
    exact promoteGate_ok passed
  -- The gate reads the seal and the staged manifest, which live writes leave alone.
  have throughout : ∀ current nodes servedTL,
      (deployRules crypto).promotion { between with current, nodes, servedTL } := fun _ _ _ => gated
  apply (Ensures.mapFail (promoteSealed_promotes fun _ => throughout)).mono
  · rintro after ⟨path, same | ⟨mark, list, ready, ended⟩⟩
    · exact ⟨between, here, path, .inl same⟩
    · exact ⟨between, here, path, .inr ⟨mark, list, ready, gated, ended⟩⟩
  · rintro _ after ⟨path, mark, list, ready, committed⟩
    exact ⟨between, here, path, mark, list, ready, gated, committed⟩

def Repinned (expected : Option OperatorCredential) (next : OperatorCredential) (store after : Store) : Prop :=
  ∃ operatorCred keystoneTransition audit draws,
    after = { store with operatorCred, keystoneTransition, audit, draws } ∧
      (operatorCred = store.operatorCred ∨ store.operatorCred = expected ∧ operatorCred = some next)

section

variable {expected : Option OperatorCredential} {next : OperatorCredential} {entropy : Entropy}

theorem Reconciled.repinned (reached : Reconciled store after) : Repinned expected next store after := by
  obtain ⟨pending, audit, rfl⟩ := reached
  exact ⟨_, _, _, _, rfl, .inl rfl⟩

section

variable (repinned : Repinned expected next store between)

include repinned

theorem Repinned.reconciled (reached : Reconciled between after) : Repinned expected next store after := by
  obtain ⟨cred, pending, audit, draws, rfl, changed⟩ := repinned
  obtain ⟨transition, log, rfl⟩ := reached
  exact ⟨cred, transition, log, draws, rfl, changed⟩

theorem compareAndSetOperatorCredential_frames :
    Keeps between (compareAndSetOperatorCredential expected next) (Repinned expected next store) := by
  apply Ensures.read_bind
  apply Ensures.require_bind (fun _ => repinned)
  intro met
  split
  · exact .pure repinned
  · have written : Repinned expected next store (between.putCredential next) := by
      obtain ⟨cred, pending, audit, draws, rfl, changed⟩ := repinned
      refine ⟨some next, pending, audit, draws, rfl, ?_⟩
      rcases changed with same | ⟨old, -⟩
      · exact .inr ⟨same.symm.trans met, rfl⟩
      · exact .inr ⟨old, rfl⟩
    exact .write repinned written written

theorem createPending_frames {pending : PendingKeystoneTransition} :
    Keeps between (createPendingKeystoneTransition pending) (Repinned expected next store) := by
  apply Ensures.require_bind (fun _ => repinned)
  intro _
  apply Ensures.read_bind
  split
  · exact .require (fun _ => repinned) (fun _ => repinned)
  · have written : Repinned expected next store (between.putTransition (some pending)) := by
      obtain ⟨cred, transition, audit, draws, rfl, changed⟩ := repinned
      exact ⟨cred, some pending, audit, draws, rfl, changed⟩
    exact .write repinned written written

end

theorem compareAndSetKeystoneCredential_frames {audit : Option AuditEntry} :
    Keeps store (compareAndSetKeystoneCredential entropy expected next audit) (Repinned expected next store) := by
  refine .bind ?_
  apply reconcile_frames.mono (fun _ reached => reached.repinned)
  intro _ between reached
  have here : Repinned expected next store between := reached.repinned
  split
  · apply Ensures.require_bind (fun _ => here)
    exact fun _ => compareAndSetOperatorCredential_frames here
  · apply Ensures.lift_bind (fun _ _ => here)
    intro entry _
    apply Ensures.read_bind
    apply Ensures.require_bind (fun _ => here)
    intro _
    have drawn : Repinned expected next store { between with draws := between.draws + 1 } := by
      obtain ⟨cred, transition, audit, draws, rfl, changed⟩ := here
      exact ⟨cred, transition, audit, draws + 1, rfl, changed⟩
    refine .bind ?_
    apply Ensures.read_bind
    refine .bind ?_
    apply Ensures.advance
    apply Ensures.pure
    refine .bind ?_
    apply (createPending_frames drawn).weaken
    intro _ announced created
    refine .bind ?_
    apply (compareAndSetOperatorCredential_frames created).weaken
    intro _ changed pinned
    exact reconcile_frames.mono (fun _ reached => pinned.reconciled reached)
      fun _ _ reached => pinned.reconciled reached

end

end

/-- A call of the controller. `edit` stands for whatever the other operations write between two
calls: the registry of nodes and the stored topology. -/
inductive Call where
  | stage (env : StageEnv) (config : StageConfig)
  | sign (submitted : TrustList) (signed : SignedTrustList)
  | pin (expected : Option OperatorCredential) (next : OperatorCredential) (audit : Option AuditEntry)
  | wake
  | promote
  | edit (nodes : Records RegistryNode) (topology : Option Topology)

section

variable (crypto : Crypto) (entropy : Entropy)

def Call.left (call : Call) (store : Store) (plan : List Fault) : Store :=
  match call with
  | .stage env config => (compileAndStage crypto env config).left store plan
  | .sign submitted signed => (installTrustListSignature crypto submitted signed).left store plan
  | .pin expected next audit => (compareAndSetKeystoneCredential entropy expected next audit).left store plan
  | .wake => (bumpGeneration crypto).left store plan
  | .promote => (promoteStaged crypto).left store plan
  | .edit nodes topology => { store with nodes, topology }

def Store.runCalls (store : Store) (calls : List (Call × List Fault)) : Store :=
  calls.foldl (fun store called => called.1.left crypto entropy store called.2) store

end

section

variable {crypto : Crypto} {entropy : Entropy} {store after : Store}

def Store.Onward (crypto : Crypto) (store after : Store) : Prop := after.Deployed crypto ∧ store.Forward after

theorem Store.Onward.moves {between : Store} (onward : store.Onward crypto between)
    (path : Moves crypto (deployRules crypto) between after) : store.Onward crypto after := by
  obtain ⟨kept, forward⟩ := path.deployed onward.1
  exact ⟨kept, onward.2.trans forward⟩

theorem Repinned.onward {expected : Option OperatorCredential} {next : OperatorCredential}
    (repinned : Repinned expected next store after) (deployed : store.Deployed crypto) :
    store.Onward crypto after := by
  obtain ⟨cred, pending, audit, draws, rfl, -⟩ := repinned
  exact ⟨deployed.aside rfl, .of_eq rfl⟩

/-- A call reconciles and prepares, pins, reconciles and tries to promote, or edits. -/
theorem Call.left_cases {reached : Store → Prop} (call : Call) (entropy : Entropy) (plan : List Fault)
    (reconciled : Ensures store reconcilePendingKeystoneTransition reached fun _ => reached) (start : reached store)
    (deployed : ∀ between, reached between → between.Deployed crypto) :
    let after := call.left crypto entropy store plan
    (∃ between, reached between ∧ Prepares crypto (deployRules crypto) between after) ∨
      (∃ expected next audit, call = .pin expected next audit ∧ Repinned expected next store after) ∨
      (∃ between, reached between ∧ Promotes crypto (deployRules crypto) between after ∧
        (after = between ∨ ∃ mark list, between.Candidate crypto mark list ∧ between.Gated crypto ∧
          (Attempted between after ∨ Committed between list after))) ∨
      ∃ nodes topology, after = { store with nodes, topology } := by
  intro after
  cases call with
  | stage env config => exact .inl ((compileAndStage_prepares reconciled fun _ _ _ _ _ _ _ _ _ _ _ => trivial).left plan)
  | sign submitted signed =>
    exact .inl ((installTrustListSignature_prepares reconciled deployed submitted signed).left plan)
  | pin expected next audit =>
    exact .inr (.inl ⟨expected, next, audit, rfl, compareAndSetKeystoneCredential_frames.left plan⟩)
  | wake => exact .inl ⟨store, start, bumpGeneration_prepares.left plan⟩
  | promote =>
    refine .inr (.inr (.inl (((promoteStaged_promotes reconciled).weaken ?_).left plan)))
    rintro _ last ⟨between, here, path, mark, list, ready, gated, committed⟩
    exact ⟨between, here, path, .inr ⟨mark, list, ready, gated, .inr committed⟩⟩
  | edit nodes topology => exact .inr (.inr (.inr ⟨nodes, topology, rfl⟩))

theorem Call.left_onward (call : Call) (plan : List Fault) (deployed : store.Deployed crypto) :
    store.Onward crypto (call.left crypto entropy store plan) := by
  have reconciled {between : Store} (reached : Reconciled store between) : store.Onward crypto between :=
    ⟨reached.deployed deployed, reached.forward⟩
  rcases call.left_cases entropy plan reconcile_frames (.refl store) (fun _ here => here.deployed deployed) with
    ⟨between, here, path⟩ | ⟨expected, next, audit, rfl, repinned⟩ | ⟨between, here, path, -⟩ | ⟨nodes, topology, same⟩
  · exact (reconciled here).moves path.moves
  · exact repinned.onward deployed
  · exact (reconciled here).moves path.moves
  · rw [same]
    exact ⟨deployed.aside rfl, .of_eq rfl⟩

theorem Store.runCalls_append (first second : List (Call × List Fault)) :
    store.runCalls crypto entropy (first ++ second) =
      (store.runCalls crypto entropy first).runCalls crypto entropy second :=
  List.foldl_append ..

theorem Store.runCalls_onward (calls : List (Call × List Fault)) (deployed : store.Deployed crypto) :
    store.Onward crypto (store.runCalls crypto entropy calls) := by
  induction calls generalizing store with
  | nil => exact ⟨deployed, .refl store⟩
  | cons called rest ih =>
    obtain ⟨kept, forward⟩ := called.1.left_onward called.2 deployed
    obtain ⟨last, onward⟩ := ih kept
    exact ⟨last, forward.trans onward⟩

theorem Store.Deployed.start (operatorCred : Option OperatorCredential) :
    ({ operatorCred } : Store).Deployed crypto :=
  ⟨.fresh rfl rfl rfl rfl, .fresh rfl rfl rfl, .unsealed rfl⟩

end

end Yaog.Controller
