import Yaog.Controller.KeystoneAudit

/-!
# Recovering from an interrupted promotion

A promotion that was cut can be finished as long as the gate can be passed again.
-/

namespace Yaog.Controller

open Data Durable Option

section

variable {crypto : Crypto} {entropy : Entropy} {changed : List Bool} {store after : Store} {rules : Rules}

def Store.Resumable (crypto : Crypto) (store : Store) : Prop :=
  store.Ahead → store.operatorCred = none ∨
    ∃ cred list, store.getCurrentSignedTrustList crypto = .ok list ∧ verifiesAgainst crypto list cred = true

theorem Store.getCurrentSignedTrustList_congr (sealed : after.stagedSeal = store.stagedSeal)
    (staged : after.stagedTL = store.stagedTL) :
    after.getCurrentSignedTrustList crypto = store.getCurrentSignedTrustList crypto := by
  simp only [Store.getCurrentSignedTrustList, Store.loadSeal, Store.loadSealedTrustList, sealed, staged]

theorem Store.Resumable.keep (resumable : store.Resumable crypto) (ahead : after.Ahead → store.Ahead)
    (same : after.Ahead → after.stagedSeal = store.stagedSeal ∧ after.stagedTL = store.stagedTL ∧
      after.operatorCred = store.operatorCred) : after.Resumable crypto := by
  intro stillAhead
  obtain ⟨sealed, staged, cred⟩ := same stillAhead
  rw [cred, Store.getCurrentSignedTrustList_congr sealed staged]
  exact resumable (ahead stillAhead)

theorem Reconciled.resumable (reached : Reconciled store after) (resumable : store.Resumable crypto) :
    after.Resumable crypto := by
  obtain ⟨pending, audit, rfl⟩ := reached
  exact resumable

theorem Prepares.resumable (path : Prepares crypto rules store after) (sound : store.Sound crypto)
    (resumable : store.Resumable crypto) : after.Resumable crypto := by
  have was (ahead : after.Ahead) : store.Ahead := by
    by_contra settled
    exact path.not_ahead settled ahead
  refine resumable.keep was fun ahead => ?_
  obtain ⟨-, mark, list, -⟩ := path.frozen sound (was ahead)
  exact ⟨mark, list, path.live.2.2.1⟩

theorem Attempted.resumable (attempted : Attempted store after) (gated : store.Gated crypto) :
    after.Resumable crypto := by
  obtain ⟨-, current, nodes, servedTL, rfl⟩ := attempted
  intro _
  cases pinned : store.operatorCred with
  | none => exact .inl rfl
  | some cred =>
    obtain ⟨list, visible, verifies⟩ := gated cred pinned
    exact .inr ⟨cred, list, visible, verifies⟩

def Call.PinsSettled (store : Store) : Call → Prop
  | .pin none _ _ => store.operatorCred = none → ¬store.Ahead
  | _ => True

theorem Repinned.resumable {expected : Option OperatorCredential} {next : OperatorCredential}
    {audit : Option AuditEntry} (repinned : Repinned expected next store after)
    (careful : (Call.pin expected next audit).PinsSettled store) (resumable : store.Resumable crypto) :
    after.Resumable crypto := by
  obtain ⟨cred, pending, log, draws, rfl, same | ⟨met, -⟩⟩ := repinned
  · subst same
    exact resumable
  · intro ahead
    cases expected with
    | none => exact absurd ahead (careful met)
    | some old =>
      rcases resumable ahead with unpinned | verified
      · exact absurd (met.symm.trans unpinned) (by simp)
      · exact .inr verified

theorem Call.left_resumable (call : Call) (plan : List Fault) (deployed : store.Deployed crypto)
    (careful : call.PinsSettled store) (resumable : store.Resumable crypto) :
    (call.left crypto entropy store plan).Resumable crypto := by
  rcases call.left_cases entropy plan reconcile_frames (.refl store) (fun _ here => here.deployed deployed) with
    ⟨between, here, path⟩ | ⟨expected, next, audit, rfl, repinned⟩ |
    ⟨between, here, -, same | ⟨mark, list, ready, gated, attempted | committed⟩⟩ | ⟨nodes, topology, same⟩
  · exact path.resumable (here.deployed deployed).sound (here.resumable resumable)
  · exact repinned.resumable careful resumable
  · rw [same]
    exact here.resumable resumable
  · exact attempted.resumable gated
  · exact fun ahead => absurd ahead (committed.settled (here.deployed deployed).sound)
  · rw [same]
    exact resumable

theorem deletePending_completes {pending : PendingKeystoneTransition}
    (held : store.keystoneTransition = some pending) (named : pending.audit.eventID ≠ "") :
    Completes store (deletePendingKeystoneTransition pending.audit.eventID) fun _ _ => True := by
  apply Completes.require_bind named
  apply Completes.read_bind
  rw [held]
  apply Completes.require_bind rfl
  exact .write trivial

theorem ensureAudit_completes {entry : AuditEntry}
    (entries : store.entries entry.eventID = [] ∨ store.entries entry.eventID = [entry]) :
    Completes store (ensureAudit entry) fun _ after => after.keystoneTransition = store.keystoneTransition := by
  apply Completes.read_bind
  apply Completes.bind
  rcases entries with absent | present
  · apply Completes.lift (findAudit_absent absent)
    apply Completes.bind
    apply Completes.attempt
    apply Completes.read_bind
    apply Completes.bind
    apply Completes.lift (findAudit_single (Store.entries_appendAudit entry absent))
    exact .require rfl rfl
  · apply Completes.lift (findAudit_single present)
    exact .pure rfl

theorem reconcile_completes (audited : store.Audited entropy changed) :
    Completes store reconcilePendingKeystoneTransition fun _ _ => True := by
  apply Completes.read_bind
  cases held : store.keystoneTransition with
  | none => exact .pure trivial
  | some pending =>
    obtain ⟨valid, draw, drawn, state⟩ := audited.opened pending held
    have named : pending.audit.eventID ≠ "" := drawn ▸ entropy.eventID_ne draw
    apply Completes.lift_bind valid
    split
    · have entries : store.entries pending.audit.eventID = [] ∨
          store.entries pending.audit.eventID = [pending.audit] := by
        rcases state with ⟨-, -, none⟩ | ⟨-, -, entries⟩
        · exact .inl (Store.entries_eq_nil none)
        · exact entries.imp Store.entries_eq_nil And.right
      apply Completes.bind
      apply (ensureAudit_completes entries).mono
      exact fun _ after same => deletePending_completes (same.trans held) named
    · next unpinned =>
      rcases state with ⟨-, expected, -⟩ | ⟨-, pinned, -⟩
      · rw [if_pos expected]
        exact deletePending_completes held named
      · exact absurd pinned unpinned

theorem promoteBundle_completes (newGen : Nat) (bundle : SignedBundle) :
    Completes store (promoteBundle newGen bundle) fun _ _ => True := by
  apply Completes.bind
  apply Completes.write
  apply Completes.read_bind
  split
  · exact .write trivial
  · exact .pure trivial

theorem serveManifest_completes (newGen : Nat) (list : Option StoredTrustList) :
    Completes store (serveManifest newGen list) fun _ _ => True := by
  unfold serveManifest
  split
  · split
    · exact .write trivial
    · exact .pure trivial
  · exact .pure trivial

theorem clearPromoted_completes (newGen : Nat) (nodeIDs : List String) (list : Option StoredTrustList) :
    Completes store (clearPromoted crypto newGen nodeIDs list) fun _ _ => True := by
  have swept : Completes store
      (nodeIDs.forM fun nodeID => (tryWrite (Store.delStaged nodeID) : Durable Store StoreError Unit))
      fun _ _ => True :=
    Completes.forM (fun _ => True) trivial fun _ _ _ _ => Completes.tryWrite trivial
  unfold clearPromoted
  split <;>
  · apply Completes.bind
    apply swept.mono
    intro _ _ _
    apply Completes.bind
    apply Completes.tryWrite
    exact .tryWrite trivial

theorem promoteSealed_completes {mark : StagedSetSeal} {list : Option StoredTrustList}
    (ready : store.Candidate crypto mark list) :
    Completes store (promoteSealed crypto) fun _ _ => True := by
  apply Completes.read_bind
  apply Completes.lift_bind (Store.sealedCandidate_eq_ok.mpr ⟨rfl, mark, ready⟩)
  apply Completes.bind
  apply (Completes.forM (fun _ => True) trivial fun _ _ _ _ => promoteBundle_completes _ _).mono
  intro _ _ _
  apply Completes.bind
  apply (serveManifest_completes _ list).mono
  intro _ _ _
  apply Completes.bind
  apply Completes.write
  apply Completes.bind
  apply (clearPromoted_completes _ _ list).mono
  exact fun _ _ _ => Completes.pure trivial

theorem promoteGate_eq_ok {cred : OperatorCredential} {list : StoredTrustList}
    (visible : store.getCurrentSignedTrustList crypto = .ok list)
    (verifies : verifiesAgainst crypto list cred = true) : promoteGate crypto store cred = .ok () := by
  have signed : list.signature.isNone = false := by
    rw [isNone_eq_false_iff]
    exact verifiesAgainst_signed verifies
  simp [promoteGate, visible, verifies, signed]

theorem promoteStaged_recovers (deployed : store.Deployed crypto) (audited : store.Audited entropy changed)
    (ahead : store.Ahead) (gated : store.Gated crypto) :
    Completes store (promoteStaged crypto) fun _ after => ¬after.Ahead := by
  have kept {between : Store} (reached : Reconciled store between) :
      between.Deployed crypto ∧ between.Ahead ∧ between.Gated crypto := by
    obtain ⟨transition, log, rfl⟩ := reached
    exact ⟨deployed.aside rfl, ahead, gated⟩
  have returns : Completes store (promoteStaged crypto) fun _ _ => True := by
    apply Completes.bind
    apply (Completes.mapFail ((reconcile_completes audited).ensured reconcile_frames)).mono
    intro _ between reached
    obtain ⟨sound, stillAhead, stillGated⟩ := kept reached
    obtain ⟨mark, list, ready⟩ := sound.sound.ahead stillAhead
    apply Completes.read_bind
    apply Completes.bind
    refine Completes.lift (?passes : _ = Except.ok ()) ?_
    · split
      · rfl
      · next cred pinned =>
        obtain ⟨list, visible, verifies⟩ := stillGated cred pinned
        exact promoteGate_eq_ok visible verifies
    · exact .mapFail (promoteSealed_completes ready)
  have reconciled : Ensures store reconcilePendingKeystoneTransition (fun between => between.Sound crypto)
      fun _ between => between.Sound crypto :=
    reconcile_frames.mono (fun _ reached => (kept reached).1.sound) fun _ _ reached => (kept reached).1.sound
  apply (returns.ensured (promoteStaged_promotes reconciled)).mono
  rintro _ after ⟨between, sound, -, mark, list, ready, -, committed⟩
  exact committed.settled sound

def rotationEntry : AuditEntry := { actor := "operator:recovery", action := "rotate-operator-credential" }

theorem rotation_completes (audited : store.Audited entropy changed) (distinct : entropy.Distinct (store.draws + 1))
    {old next : OperatorCredential} (pinned : store.operatorCred = some old) (changes : old ≠ next) :
    Completes store (compareAndSetKeystoneCredential entropy (some old) next (some rotationEntry))
      fun _ after => after.operatorCred = some next := by
  have earlier : entropy.Distinct store.draws := distinct.mono (Nat.le_succ _)
  have differs : some old ≠ some next := fun same => changes (some.inj same)
  apply Completes.bind
  apply ((reconcile_completes audited).ensured (reconcile_audited audited earlier)).mono
  rintro _ between ⟨⟨transition, log, same⟩, kept, settled, -⟩
  have draws : between.draws = store.draws := by rw [same]
  have met : between.operatorCred = some old := by rw [same, pinned]
  have asked : validateKeystoneTransitionAudit (some old) (some rotationEntry) = .ok rotationEntry := by
    have operator : namesOperator "operator:recovery" = true := by decide +kernel
    simp [validateKeystoneTransitionAudit, transitionAction, rotationEntry, operator]
  obtain ⟨-, -, carried⟩ := kept.transition settled (draws ▸ distinct) differs asked met
  rw [if_neg differs]
  apply Completes.lift_bind asked
  apply Completes.read_bind
  apply Completes.require_bind met
  apply Completes.bind
  apply Completes.read_bind
  apply Completes.bind
  apply Completes.advance
  apply Completes.pure
  apply Completes.bind
  apply Completes.require_bind ⟨entropy.eventID_ne _, Nat.ne_of_gt (entropy.now_pos _)⟩
  apply Completes.read_bind
  split
  · next current held => exact absurd (settled.symm.trans held) (by simp)
  · apply Completes.write
    apply Completes.bind
    apply Completes.read_bind
    apply Completes.require_bind met
    rw [if_neg differs]
    apply Completes.write
    apply ((reconcile_completes carried).ensured reconcile_frames).mono
    rintro _ after ⟨transition, log, rfl⟩
    rfl

def Careful (crypto : Crypto) (entropy : Entropy) : Store → List (Call × List Fault) → Prop
  | _, [] => True
  | store, called :: rest =>
    called.1.PinsSettled store ∧ Careful crypto entropy (called.1.left crypto entropy store called.2) rest

def Call.operates : Call → Bool
  | .edit .. => false
  | _ => true

theorem runCalls_resumable (calls : List (Call × List Fault)) (deployed : store.Deployed crypto)
    (careful : Careful crypto entropy store calls) (resumable : store.Resumable crypto) :
    (store.runCalls crypto entropy calls).Resumable crypto := by
  induction calls generalizing store with
  | nil => exact resumable
  | cons called rest ih =>
    exact ih (called.1.left_onward called.2 deployed).1 careful.2
      (called.1.left_resumable called.2 deployed careful.1 resumable)

theorem Observed.foldl_store (run : Observed) (calls : List (Call × List Fault)) :
    (calls.foldl (Observed.step crypto entropy) run).store = run.store.runCalls crypto entropy calls := by
  induction calls generalizing run with
  | nil => rfl
  | cons called rest ih => exact ih _

theorem Store.Resumable.recovers (resumable : store.Resumable crypto) (deployed : store.Deployed crypto)
    (audited : store.Audited entropy changed) (distinct : entropy.Distinct (store.draws + 1)) (ahead : store.Ahead) :
    ∃ recovery : List Call, (∀ call ∈ recovery, call.operates = true) ∧
      ¬(store.runCalls crypto entropy (recovery.map fun call => (call, []))).Ahead := by
  have promotes (gated : store.Gated crypto) : ∃ recovery : List Call, (∀ call ∈ recovery, call.operates = true) ∧
      ¬(store.runCalls crypto entropy (recovery.map fun call => (call, []))).Ahead :=
    ⟨[.promote], by simp [Call.operates], (promoteStaged_recovers deployed audited ahead gated).left⟩
  cases pinned : store.operatorCred with
  | none => exact promotes fun cred held => absurd (pinned.symm.trans held) (by simp)
  | some old =>
    rcases resumable ahead with unpinned | ⟨cred, list, visible, verifies⟩
    · exact absurd (pinned.symm.trans unpinned) (by simp)
    by_cases same : old = cred
    · subst same
      refine promotes fun cred held => ?_
      obtain rfl := mem_unique pinned held
      exact ⟨list, visible, verifies⟩
    · let back : Call := .pin (some old) cred (some rotationEntry)
      let rotated := back.left crypto entropy store []
      have now : rotated.operatorCred = some cred := (rotation_completes audited distinct pinned same).left
      have tracked : Tracked entropy changed store rotated := back.left_tracked [] deployed audited distinct
      have kept : rotated.Deployed crypto := (back.left_onward [] deployed).1
      obtain ⟨newCred, transition, log, draws, framed, -⟩ :
          Repinned (some old) cred store rotated := compareAndSetKeystoneCredential_frames.left []
      have stillAhead : rotated.Ahead := by
        rw [framed]
        exact ahead
      have gated : rotated.Gated crypto := by
        intro other held
        obtain rfl := mem_unique now held
        refine ⟨list, ?_, verifies⟩
        rw [framed]
        exact visible
      refine ⟨[back, .promote], by simp [Call.operates, back], ?_⟩
      exact (promoteStaged_recovers kept tracked stillAhead gated).left

/-- In every run that pins no first credential over an interrupted promotion, an interrupted promotion
can be recovered by calls without faults. -/
theorem interrupted_promotion_recoverable (crypto : Crypto) (entropy : Entropy)
    (operatorCred : Option OperatorCredential) (calls : List (Call × List Fault))
    (distinct : entropy.Distinct (calls.length + 1)) (careful : Careful crypto entropy { operatorCred } calls)
    (ahead : (Store.runCalls crypto entropy { operatorCred } calls).Ahead) :
    ∃ recovery : List Call, (∀ call ∈ recovery, call.operates = true) ∧
      ¬((Store.runCalls crypto entropy { operatorCred } calls).runCalls crypto entropy
        (recovery.map fun call => (call, []))).Ahead := by
  have sound : (Observed.run crypto entropy operatorCred calls).Sound crypto entropy calls.length :=
    Observed.run_sound operatorCred calls (distinct.mono (Nat.le_succ _))
  have same : (Observed.run crypto entropy operatorCred calls).store =
      Store.runCalls crypto entropy { operatorCred } calls := Observed.foldl_store _ calls
  obtain ⟨deployed, audited, draws⟩ := sound
  rw [same] at deployed audited draws
  have resumable : (Store.runCalls crypto entropy { operatorCred } calls).Resumable crypto :=
    runCalls_resumable calls (.start operatorCred) careful fun impossible => by simp [Store.Ahead] at impossible
  exact resumable.recovers deployed audited (distinct.mono (Nat.succ_le_succ draws)) ahead

/-- A promotion is interrupted, its candidate has no manifest, and a credential is pinned. -/
structure Store.Stuck (store : Store) : Prop where
  ahead : store.Ahead
  pinned : store.operatorCred.isSome = true
  unlisted : ∀ mark, store.stagedSeal = some mark → mark.hasTrustList = false

theorem Reconciled.stuck (reached : Reconciled store after) (stuck : store.Stuck) : after.Stuck := by
  obtain ⟨pending, audit, rfl⟩ := reached
  exact ⟨stuck.ahead, stuck.pinned, stuck.unlisted⟩

theorem Prepares.stuck (path : Prepares crypto rules store after) (sound : store.Sound crypto)
    (stuck : store.Stuck) : after.Stuck := by
  obtain ⟨-, mark, -, ahead⟩ := path.frozen sound stuck.ahead
  exact ⟨ahead, by rw [path.live.2.2.1, stuck.pinned], mark ▸ stuck.unlisted⟩

theorem Call.left_stuck (call : Call) (plan : List Fault) (deployed : store.Deployed crypto)
    (stuck : store.Stuck) : (call.left crypto entropy store plan).Stuck := by
  rcases call.left_cases entropy plan reconcile_frames (.refl store) (fun _ here => here.deployed deployed) with
    ⟨between, here, path⟩ | ⟨expected, next, audit, rfl, ⟨cred, transition, log, draws, framed, kept⟩⟩ |
    ⟨between, here, -, same | ⟨mark, list, ready, gated, -⟩⟩ | ⟨nodes, topology, same⟩
  · exact path.stuck (here.deployed deployed).sound (here.stuck stuck)
  · rw [framed]
    refine ⟨stuck.ahead, ?_, stuck.unlisted⟩
    rcases kept with same | ⟨-, rfl⟩
    · exact same ▸ stuck.pinned
    · rfl
  · rw [same]
    exact here.stuck stuck
  · -- The gate wants a manifest, and the candidate has none.
    obtain ⟨cred, pinned⟩ := isSome_iff_exists.mp (here.stuck stuck).pinned
    obtain ⟨list, visible, -⟩ := gated cred pinned
    obtain ⟨mark, held, -, listed, -⟩ := Store.getCurrentSignedTrustList_eq_ok.mp visible
    exact absurd (listed.symm.trans ((here.stuck stuck).unlisted mark held)) (by simp)
  · rw [same]
    exact ⟨stuck.ahead, stuck.pinned, stuck.unlisted⟩

theorem runCalls_stuck (calls : List (Call × List Fault)) (deployed : store.Deployed crypto)
    (stuck : store.Stuck) : (store.runCalls crypto entropy calls).Stuck := by
  induction calls generalizing store with
  | nil => exact stuck
  | cons called rest ih =>
    exact ih (called.1.left_onward called.2 deployed).1 (called.1.left_stuck called.2 deployed stuck)

end

/-- A stage without a credential, its promotion cut after the bundle, and the first credential. -/
def sampleFirstPin : List (Call × List Fault) :=
  [(sampleSolo, []), (sampleStage "one", []), (.promote, [.applied, .halted]),
    (.pin none (sampleCredential "k") (some { actor := "operator:o", action := "pin-operator-credential" }), [])]

theorem sampleFirstPin_unrecoverable :
    let store := Store.runCalls sampleCrypto sampleEntropy {} sampleFirstPin
    store.Ahead ∧ ∀ recovery : List Call,
      (store.runCalls sampleCrypto sampleEntropy (recovery.map fun call => (call, []))).Ahead := by
  intro store
  have deployed : store.Deployed sampleCrypto := (Store.runCalls_onward sampleFirstPin (.start none)).1
  have ahead : store.Ahead := by decide +kernel
  have evaluated : store.operatorCred.isSome = true ∧ store.stagedSeal.map (·.hasTrustList) = some false := by
    decide +kernel
  have stuck : store.Stuck := by
    refine ⟨ahead, evaluated.1, fun mark held => ?_⟩
    have unlisted := evaluated.2
    rw [held] at unlisted
    exact some.inj unlisted
  exact ⟨ahead, fun recovery => (runCalls_stuck _ deployed stuck).ahead⟩

/-- A signed promotion is cut, and the credential is rotated before it is tried again. -/
def sampleRotated : List (Call × List Fault) :=
  sampleSigned ++ [(.pin (some (sampleCredential "k")) (sampleCredential "l") (some rotationEntry), [])]

theorem sampleRotated_recovers : ∃ recovery : List Call, (∀ call ∈ recovery, call.operates = true) ∧
    ¬((sampleRun sampleRotated).runCalls sampleCrypto sampleEntropy (recovery.map fun call => (call, []))).Ahead := by
  have distinct : sampleEntropy.Distinct (sampleRotated.length + 1) := by
    unfold Entropy.Distinct
    decide +kernel
  exact interrupted_promotion_recoverable sampleCrypto sampleEntropy _ sampleRotated distinct
    ⟨trivial, trivial, trivial, trivial, trivial, trivial⟩ (by decide +kernel)

end Yaog.Controller
