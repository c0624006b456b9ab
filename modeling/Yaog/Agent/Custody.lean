import Yaog.Agent.Frozen
import Yaog.Agent.UpdateSafety

/-!
# What a node accepts

Over every sequence of events the floors of the membership epoch and of the compile time stay or rise, and
`install.sh` runs only for a bundle that reaches both and whose intent is on disk.
-/

namespace Yaog.Agent

open Data Durable Controller List

variable {action : Action} {pending : PendingApply} {first second : State} {now : Stamp} {signed : Bool}
  {policy : Bytes}

section

variable {runtime : Runtime} {config : Config} {prev : State} {fetched : Option Bundle} {candidate : Candidate}
  {manifest : ManifestInfo}

theorem refuse_ok {condition : Prop} [Decidable condition] {reason : AgentError} {result : Unit}
    (passes : refuse condition reason = .ok result) : ¬condition := by
  unfold refuse at passes
  split at passes
  · cases passes
  · assumption

theorem verified_ok {α : Type} {result : Except VerifyError α} {value : α} (passes : verified result = .ok value) :
    result = .ok value := by
  cases result with
  | error reason => cases passes
  | ok held => exact congrArg Except.ok (Except.ok.inj passes)

/-- The gates that a candidate has passed. -/
structure Admits (runtime : Runtime) (config : Config) (prev : State) (candidate : Candidate) (checksums : Bytes) :
    Prop where
  manifest : trimSpace candidate.manifest.compiledAt ≠ ""
  checksums : candidate.bundle.get? checksumsFile = some checksums
  membership : verifyMembership runtime.toPlatform candidate.bundle config.membership prev.membershipFloor =
    .ok candidate.epoch
  rollback : checkRollback (effectiveRollbackState prev) candidate.manifest.compiledAt = .ok ()
  pending : validateCandidateAgainstPending runtime prev candidate.manifest candidate.bundle config.action = .ok ()

theorem parseManifest_ok {data : Bytes} (parsed : parseManifest runtime data = .ok manifest) :
    trimSpace manifest.compiledAt ≠ "" := by
  unfold parseManifest at parsed
  split at parsed
  · cases parsed
  · split at parsed
    · cases parsed
    · next dated =>
      cases parsed
      exact dated

theorem admission_ok (accepted : admission runtime config prev fetched = .ok candidate) :
    ∃ checksums, Admits runtime config prev candidate checksums := by
  unfold admission at accepted
  split at accepted
  · cases accepted
  · obtain ⟨-, -, accepted⟩ := bind_ok accepted
    obtain ⟨data, -, accepted⟩ := bind_ok accepted
    obtain ⟨manifest, parsed, accepted⟩ := bind_ok accepted
    obtain ⟨-, -, accepted⟩ := bind_ok accepted
    obtain ⟨result, valid, accepted⟩ := bind_ok accepted
    obtain ⟨policy, -, accepted⟩ := bind_ok accepted
    obtain ⟨epoch, membership, accepted⟩ := bind_ok accepted
    obtain ⟨⟨⟩, rollback, accepted⟩ := bind_ok accepted
    obtain ⟨⟨⟩, pending, accepted⟩ := bind_ok accepted
    cases accepted
    obtain ⟨checksums, listed, bundle⟩ := verifyBundle_ok (verified_ok valid)
    exact ⟨checksums, parseManifest_ok parsed, bundle.present, verified_ok membership, rollback, pending⟩

theorem checkRollback_ok {state : State} {compiledAt : String} (passes : checkRollback state compiledAt = .ok ()) :
    ∃ time, parseTime (trimSpace compiledAt) = some time ∧
      (parseTime (trimSpace state.lastCompiledAt)).getD 0 ≤ time := by
  unfold checkRollback at passes
  split at passes
  · cases passes
  · next time parsed =>
    refine ⟨time, parsed, ?_⟩
    split at passes
    · next empty =>
      have unreadable : parseTime "" = none := by decide +kernel
      rw [empty, unreadable]
      exact Nat.zero_le _
    · split at passes
      · next unreadable =>
        rw [unreadable]
        exact Nat.zero_le _
      · next last read =>
        rw [read]
        exact Nat.not_lt.mp (refuse_ok passes)

theorem validateCandidateAgainstPending_ok {bundle : Bundle} (held : prev.pendingApply = some pending)
    (passes : validateCandidateAgainstPending runtime prev manifest bundle action = .ok ()) :
    ∃ time, parseTime manifest.compiledAt = some time := by
  unfold validateCandidateAgainstPending at passes
  rw [held] at passes
  simp only at passes
  split at passes
  · cases passes
  · split at passes
    · next time _ read _ => exact ⟨time, read⟩
    · cases passes

/-- Everything that is checked of a record besides its compile time. -/
structure Sane (runtime : Runtime) (config : Config) (pending : PendingApply) : Prop where
  startedAt : parseTime pending.startedAt ≠ none
  action : pending.action = .apply ∨ pending.action = .uninstall
  digest : validSHA256Hex pending.bundleSHA256 = true
  epoch : 0 ≤ pending.membershipEpoch
  signer : validatePendingSigner runtime config pending = .ok ()
  operator : validatePendingOperator runtime config pending = .ok ()

theorem sane_of_validated (held : prev.pendingApply = some pending)
    (passes : validatePendingApply runtime config prev = .ok ()) : Sane runtime config pending := by
  unfold validatePendingApply at passes
  rw [held] at passes
  obtain ⟨-, -, passes⟩ := bind_ok passes
  obtain ⟨⟨⟩, startedAt, passes⟩ := bind_ok passes
  obtain ⟨⟨⟩, action, passes⟩ := bind_ok passes
  obtain ⟨⟨⟩, digest, passes⟩ := bind_ok passes
  obtain ⟨⟨⟩, epoch, passes⟩ := bind_ok passes
  obtain ⟨⟨⟩, signer, operator⟩ := bind_ok passes
  refine ⟨refuse_ok startedAt, ?_, not_not.mp (refuse_ok digest), Int.not_lt.mp (refuse_ok epoch), signer, operator⟩
  by_contra neither
  exact refuse_ok action ⟨fun apply => neither (.inl apply), fun uninstall => neither (.inr uninstall)⟩

theorem validatePendingOperator_ok (verified : pending.membershipVerified = true)
    (passes : validatePendingOperator runtime config pending = .ok ()) : config.operatorCredPEM ≠ [] := by
  unfold validatePendingOperator at passes
  rw [if_pos verified] at passes
  obtain ⟨-, -, passes⟩ := bind_ok passes
  obtain ⟨⟨⟩, configured, -⟩ := bind_ok passes
  exact refuse_ok configured

end

/-- The floors of the first state are reached by the second. -/
structure Advances (before after : State) : Prop where
  epoch : before.membershipFloor ≤ after.membershipFloor
  compiled : before.compiledFloor ≤ after.compiledFloor
  keystoned : before.keystoned = true → after.keystoned = true

theorem Advances.trans {third : State} (one : Advances first second) (two : Advances second third) :
    Advances first third :=
  ⟨one.epoch.trans two.epoch, one.compiled.trans two.compiled, fun held => two.keystoned (one.keystoned held)⟩

theorem SameCustody.advances (same : SameCustody first second) : Advances first second :=
  ⟨same.membershipFloor.le, same.compiledFloor.le, fun held => same.keystoned ▸ held⟩

/-- An intent names an epoch only under a verified membership, and the digest of a file. -/
structure Recorded (runtime : Runtime) (pending : PendingApply) : Prop where
  epoch : pending.membershipVerified = false → pending.membershipEpoch = 0
  digest : ∃ content, pending.bundleSHA256 = runtime.digest content

def State.Recorded (runtime : Runtime) (state : State) : Prop :=
  ∀ pending, state.pendingApply = some pending → Agent.Recorded runtime pending

section

variable {runtime : Runtime} {config : Config} {prev : State} {candidate : Candidate} {checksums : Bytes}

/-- A run that passed its gates from a state. -/
structure Gated (runtime : Runtime) (config : Config) (prev : State) (candidate : Candidate) (checksums : Bytes) :
    Prop where
  admits : Admits runtime config prev candidate checksums
  recorded : prev.Recorded runtime
  keystone : prev.keystoned = true → config.operatorCredPEM ≠ []

theorem keystone_of_guards (custody : validatePendingApply runtime config prev = .ok ())
    (sticky : ¬((prev.membershipVerified ∨ 0 < prev.membershipEpoch) ∧ config.operatorCredPEM = []))
    (keystoned : prev.keystoned = true) : config.operatorCredPEM ≠ [] := by
  intro missing
  simp only [State.keystoned, Bool.or_eq_true, decide_eq_true_eq] at keystoned
  rcases keystoned with known | noted
  · exact sticky ⟨known, missing⟩
  · cases held : prev.pendingApply with
    | none =>
      rw [held] at noted
      cases noted
    | some pending =>
      rw [held] at noted
      exact validatePendingOperator_ok noted (sane_of_validated held custody).operator missing

theorem Gated.epoch_le (gated : Gated runtime config prev candidate checksums) :
    prev.membershipFloor ≤ candidate.epoch := by
  by_cases pinned : config.operatorCredPEM = []
  · have none : candidate.epoch = 0 := by
      have membership := gated.admits.membership
      unfold verifyMembership at membership
      rw [if_pos (show config.membership.operatorCredPEM = [] from pinned)] at membership
      exact (Except.ok.inj membership).symm
    have unkeystoned : prev.keystoned = false := by
      by_contra held
      exact gated.keystone (Bool.not_eq_false _ ▸ held) pinned
    simp only [State.keystoned, Bool.or_eq_false_iff, decide_eq_false_iff_not, Int.not_lt] at unkeystoned
    obtain ⟨⟨-, epoch⟩, unverified⟩ := unkeystoned
    rw [none]
    unfold State.membershipFloor
    split
    · next pending held =>
      rw [held] at unverified
      have zero := (gated.recorded pending held).epoch unverified
      split <;> omega
    · exact epoch
  · obtain ⟨-, -, -, -, -, -, -, -, -, -, reaches⟩ := verifyMembership_ok pinned gated.admits.membership
    exact reaches

theorem Gated.compiled_le (gated : Gated runtime config prev candidate checksums) :
    ∃ time, parseTime (trimSpace candidate.manifest.compiledAt) = some time ∧ prev.compiledFloor ≤ time :=
  checkRollback_ok gated.admits.rollback

theorem equalFold_digest {first second : Bytes}
    (same : equalFold (runtime.digest first) (runtime.digest second) = true) :
    runtime.digest first = runtime.digest second := by
  have folded := of_decide_eq_true same
  rwa [Platform.digest, Platform.digest, foldCase_of_folded (folded_hexEncode _),
    foldCase_of_folded (folded_hexEncode _)] at folded

/-- The intent of a candidate. -/
structure Intends (runtime : Runtime) (config : Config) (candidate : Candidate) (checksums : Bytes)
    (pending : PendingApply) : Prop where
  compiledAt : pending.compiledAt = candidate.manifest.compiledAt
  digest : pending.bundleSHA256 = runtime.digest checksums
  epoch : pending.membershipEpoch = candidate.epoch
  verified : pending.membershipVerified = decide (config.operatorCredPEM ≠ [])

theorem pendingApply_ok (held : candidate.bundle.get? checksumsFile = some checksums)
    (computed : pendingApply runtime config candidate.manifest candidate.bundle candidate.epoch action now =
      .ok pending) :
    Intends runtime config candidate checksums pending := by
  obtain ⟨digest, digested, computed⟩ := bind_ok computed
  obtain ⟨signer, -, computed⟩ := bind_ok computed
  obtain ⟨operator, -, computed⟩ := bind_ok computed
  cases computed
  refine ⟨rfl, ?_, rfl, rfl⟩
  unfold verifiedBundleDigest at digested
  rw [held] at digested
  exact (Except.ok.inj digested).symm

theorem Intends.of_same {kept : PendingApply} (intends : Intends runtime config candidate checksums pending)
    (recorded : Recorded runtime kept) (same : samePendingApply kept pending = true) :
    Intends runtime config candidate checksums kept := by
  simp only [samePendingApply, Bool.and_eq_true, decide_eq_true_eq] at same
  obtain ⟨⟨⟨⟨⟨⟨⟨⟨⟨⟨compiledAt, -⟩, digest⟩, -⟩, epoch⟩, verified⟩, -⟩, -⟩, -⟩, -⟩, -⟩ := same
  obtain ⟨content, known⟩ := recorded.digest
  rw [known, intends.digest] at digest
  exact ⟨compiledAt.trans intends.compiledAt, known.trans (equalFold_digest digest), epoch.trans intends.epoch,
    verified.trans intends.verified⟩

/-- The state that the intent of a candidate leaves. -/
structure Intended (runtime : Runtime) (config : Config) (prev : State) (candidate : Candidate) (checksums : Bytes)
    (intent : State) (pending : PendingApply) : Prop where
  held : intent.pendingApply = some pending
  intends : Intends runtime config candidate checksums pending
  recorded : Recorded runtime pending
  compiledAt : intent.lastCompiledAt = prev.lastCompiledAt
  epoch : intent.membershipEpoch = prev.membershipEpoch
  verified : intent.membershipVerified = prev.membershipVerified

theorem Gated.intended (gated : Gated runtime config prev candidate checksums) {intent : State}
    (computed : intentState runtime config prev candidate.manifest candidate.bundle candidate.epoch action now =
      .ok intent) :
    ∃ pending, Intended runtime config prev candidate checksums intent pending := by
  obtain ⟨pending, made, computed⟩ := bind_ok computed
  have intends := pendingApply_ok gated.admits.checksums made
  split at computed
  · next kept =>
    cases computed
    cases held : prev.pendingApply with
    | none =>
      rw [held] at kept
      cases kept
    | some old =>
      rw [held] at kept
      have recorded := gated.recorded old held
      exact ⟨old, held, intends.of_same recorded kept, recorded, rfl, rfl, rfl⟩
  · cases computed
    refine ⟨pending, rfl, intends, ⟨fun unverified => ?_, checksums, intends.digest⟩, rfl, rfl, rfl⟩
    have unpinned : config.operatorCredPEM = [] := by
      simpa using intends.verified.symm.trans unverified
    have membership := gated.admits.membership
    unfold verifyMembership at membership
    rw [if_pos (show config.membership.operatorCredPEM = [] from unpinned)] at membership
    exact intends.epoch.trans (Except.ok.inj membership).symm

variable {intent : State} {pending : PendingApply}

theorem compiledFloor_of_readable {time : Instant} (held : intent.pendingApply = some pending)
    (read : parseTime pending.compiledAt = some time) : time ≤ intent.compiledFloor := by
  have trimmed : parseTime (trimSpace pending.compiledAt) = some time := by rw [trimSpace_of_parseTime read, read]
  simp only [State.compiledFloor, effectiveRollbackState, held, read]
  split
  · rw [trimmed]
    exact Nat.le_refl _
  · next last readLast =>
    split
    · rw [trimmed]
      exact Nat.le_refl _
    · next later =>
      rw [trimSpace_of_parseTime readLast, readLast]
      exact Nat.not_lt.mp later

theorem compiledFloor_of_unreadable (held : intent.pendingApply = some pending)
    (unread : parseTime pending.compiledAt = none) :
    intent.compiledFloor = (parseTime (trimSpace intent.lastCompiledAt)).getD 0 := by
  simp only [State.compiledFloor, effectiveRollbackState, held, unread]

theorem Gated.intended_advances (gated : Gated runtime config prev candidate checksums)
    (intended : Intended runtime config prev candidate checksums intent pending) : Advances prev intent where
  epoch := by
    have reaches := gated.epoch_le
    rw [← intended.intends.epoch] at reaches
    refine reaches.trans ?_
    simp only [State.membershipFloor, intended.held]
    split <;> omega
  compiled := by
    obtain ⟨time, read, reaches⟩ := gated.compiled_le
    cases raw : parseTime candidate.manifest.compiledAt with
    | some exact =>
      rw [trimSpace_of_parseTime raw, raw] at read
      cases read
      exact reaches.trans (compiledFloor_of_readable intended.held (by rw [intended.intends.compiledAt, raw]))
    | none =>
      -- no intent was on disk, or this one would have been refused
      have fresh : prev.pendingApply = none := by
        cases held : prev.pendingApply with
        | none => rfl
        | some old =>
          obtain ⟨time, readable⟩ := validateCandidateAgainstPending_ok held gated.admits.pending
          rw [raw] at readable
          cases readable
      rw [compiledFloor_of_unreadable intended.held (by rw [intended.intends.compiledAt, raw]), intended.compiledAt]
      simp only [State.compiledFloor, effectiveRollbackState, fresh]
      exact Nat.le_refl _
  keystoned := by
    intro held
    have pinned := gated.keystone held
    simp [State.keystoned, intended.held, intended.intends.verified, pinned]

theorem Gated.success_advances (gated : Gated runtime config prev candidate checksums) :
    Advances prev (successState config intent candidate.manifest signed candidate.epoch action policy now) where
  epoch := by
    refine gated.epoch_le.trans ?_
    simp only [State.membershipFloor, successState]
    split <;> omega
  compiled := by
    obtain ⟨time, read, reaches⟩ := gated.compiled_le
    refine reaches.trans ?_
    simp only [State.compiledFloor, effectiveRollbackState, successState, read]
    exact Nat.le_refl _
  keystoned := by
    intro held
    have pinned := gated.keystone held
    simp [State.keystoned, successState, pinned]

theorem Intended.success_keystoned (intended : Intended runtime config prev candidate checksums intent pending)
    (held : intent.keystoned = true) :
    (successState config intent candidate.manifest signed candidate.epoch action policy now).keystoned = true := by
  simp only [State.keystoned, intended.held, Option.any_some, intended.intends.verified, Bool.or_eq_true] at held
  simp only [State.keystoned, successState, Bool.or_eq_true, gt_iff_lt]
  tauto

end

/-- What held of the bundle of an execution since an earlier state. -/
structure Guarded (runtime : Runtime) (before after : State) (execution : Execution) : Prop where
  intent : ∃ pending checksums, execution.state.pendingApply = some pending ∧
    execution.bundle.get? checksumsFile = some checksums ∧ pending.bundleSHA256 = runtime.digest checksums
  epoch : before.membershipFloor ≤ execution.epoch
  compiled : ∃ time, parseTime (trimSpace execution.compiledAt) = some time ∧ before.compiledFloor ≤ time
  verified : before.keystoned = true → execution.verified = true
  keystoned : execution.verified = true → after.keystoned = true

/-- The host is one that the agent may have reached from the base. -/
structure Custody (runtime : Runtime) (base host : Host) : Prop where
  advances : Advances base.state host.state
  recorded : host.state.Recorded runtime
  executions : ∃ later, host.executions = base.executions ++ later ∧
    ∀ execution ∈ later, Guarded runtime base.state host.state execution

section

variable {runtime : Runtime} {base host : Host} {config : Config} {candidate : Candidate} {checksums : Bytes}
  {intent state : State} {pending : PendingApply} {next : Host}

theorem Custody.quiet (advances : Advances base.state host.state) (recorded : host.state.Recorded runtime)
    (executions : host.executions = base.executions) : Custody runtime base host :=
  ⟨advances, recorded, [], by rw [executions, append_nil], forall_mem_nil _⟩

theorem Custody.refl (recorded : host.state.Recorded runtime) : Custody runtime host host :=
  .quiet (SameCustody.refl _).advances recorded rfl

theorem Custody.trans (one : Custody runtime base host) (two : Custody runtime host next) :
    Custody runtime base next := by
  obtain ⟨first, split, guarded⟩ := one.executions
  obtain ⟨second, splitToo, guardedToo⟩ := two.executions
  refine ⟨one.advances.trans two.advances, two.recorded, first ++ second, ?_, ?_⟩
  · rw [splitToo, split, append_assoc]
  · intro execution member
    rcases mem_append.mp member with earlier | later
    · have held := guarded execution earlier
      exact { held with keystoned := fun verified => two.advances.keystoned (held.keystoned verified) }
    · have held := guardedToo execution later
      obtain ⟨time, read, reaches⟩ := held.compiled
      exact { held with
        epoch := one.advances.epoch.trans held.epoch
        compiled := ⟨time, read, one.advances.compiled.trans reaches⟩
        verified := fun keystoned => held.verified (one.advances.keystoned keystoned) }

theorem SameCustody.recorded (same : SameCustody first second)
    (recorded : first.Recorded runtime) : second.Recorded runtime :=
  fun pending held => recorded pending (same.pending.trans held)

theorem Custody.frozen (custody : Custody runtime base host) (frozen : Frozen host next) :
    Custody runtime base next :=
  custody.trans (.quiet frozen.state.advances (frozen.state.recorded custody.recorded) frozen.executions)

theorem Custody.failed (recorded : base.state.Recorded runtime) (executions : host.executions = base.executions)
    (now : Stamp) (reports : List State) :
    Custody runtime base { saved (failureState config base.state now) host with reports } :=
  .quiet (sameCustody_failureState _ _ _).advances ((sameCustody_failureState _ _ _).recorded recorded) executions

variable (gated : Gated runtime config base.state candidate checksums)
  (intended : Intended runtime config base.state candidate checksums intent pending)

include gated intended

theorem Custody.noted : Custody runtime base (saved intent base) := by
  refine .quiet (gated.intended_advances intended) (fun other held => ?_) rfl
  obtain rfl := Option.mem_unique intended.held held
  exact intended.recorded

theorem Custody.started : Custody runtime base (executed config candidate (saved intent base)) := by
  have before := Custody.noted gated intended
  refine ⟨before.advances, before.recorded, _, rfl, fun execution member => ?_⟩
  obtain rfl := mem_singleton.mp member
  have verified : intent.keystoned = true ∨ config.operatorCredPEM = [] := by
    by_cases pinned : config.operatorCredPEM = []
    · exact .inr pinned
    · refine .inl ?_
      simp [State.keystoned, intended.held, intended.intends.verified, pinned]
  exact {
    intent := ⟨pending, checksums, intended.held, gated.admits.checksums, intended.intends.digest⟩
    epoch := gated.epoch_le
    compiled := gated.compiled_le
    verified := fun keystoned => decide_eq_true (gated.keystone keystoned)
    keystoned := fun pinned => verified.resolve_right (of_decide_eq_true pinned) }

theorem Custody.committed (reports : List State) :
    Custody runtime base { saved (successState config intent candidate.manifest signed candidate.epoch action policy now)
      (executed config candidate (saved intent base)) with reports } := by
  obtain ⟨-, -, later, split, guarded⟩ := Custody.started gated intended
  refine ⟨gated.success_advances, nofun, later, split, fun execution member => ?_⟩
  have held := guarded execution member
  exact { held with keystoned := fun verified => intended.success_keystoned (held.keystoned verified) }

end

theorem run_custody {runtime : Runtime} {host : Host} {process : Binary} {input : RunInput}
    (recorded : host.state.Recorded runtime) :
    Keeps host (run runtime process input) (Custody runtime host) := by
  have same := Custody.refl recorded
  apply ensures_iff.mpr
  -- a failure is recorded over the state of the host, or over the first state before the script runs
  refine Meets.run (fun _ held => held) (@fun prev after (here : Custody runtime host after ∧ (prev = after.state ∨
    prev = host.state ∧ after.executions = host.executions)) => here.1) ?_ ⟨same, .inl rfl⟩ ?_
  · rintro prev after reports ⟨held, rfl | ⟨rfl, executions⟩⟩ _
    · exact held.frozen ⟨sameCustody_failureState _ _ _, rfl⟩
    · exact .failed recorded executions input.now reports
  · intro candidate custody sticky accepted catalog
    obtain ⟨checksums, admits⟩ := admission_ok accepted
    have gated : Gated runtime input.config host.state candidate checksums :=
      ⟨admits, recorded, keystone_of_guards custody sticky⟩
    constructor
    · exact (forcedUpdate_told (.refl host) (.refl _)).meets (fun _ told => same.frozen told.toFrozen)
        (fun _ told => same.frozen told.toFrozen) |>.weaken fun _ _ told => same.frozen told.2.toFrozen
    · intro intent computed
      obtain ⟨pending, intended⟩ := gated.intended computed
      refine ⟨⟨.noted gated intended, .inr ⟨rfl, rfl⟩⟩, fun _ => ⟨.started gated intended, .inl rfl⟩,
        fun _ => ⟨.started gated intended, fun policy => ?_⟩⟩
      have done (reports : List State) :
          Custody runtime host { committed input candidate host intent policy with reports } :=
        .committed gated intended reports
      refine ⟨done _, ?_⟩
      exact (deferredUpdate_silent (.refl _)).mono (fun _ silent => (done _).frozen silent.toFrozen) (fun _ => False.elim)
        fun _ _ silent => (done _).frozen silent.toFrozen

section

variable {runtime : Runtime} {system : System}

theorem silent_countBoot (trial : Bool) (host : Host) : Silent host (countBoot trial host) := by
  cases trial <;> exact ⟨⟨.refl _, rfl⟩, rfl⟩

theorem silent_countCompleted (trial : Bool) (ended : Ended Host AgentError Ending) :
    Silent ended.state (countCompleted trial ended) := by
  unfold countCompleted
  split
  · split
    · exact ⟨⟨.refl _, rfl⟩, rfl⟩
    · exact .refl _
  · exact .refl _

attribute [local irreducible] Ensures in
theorem System.step_silent {event : Event} (other : ∀ input plan, event ≠ .run input plan) :
    Silent system.host (system.step runtime event).host := by
  obtain ⟨host, running⟩ := system
  cases event with
  | stop => exact .refl host
  | run input plan => exact absurd rfl (other input plan)
  | boot plan =>
    cases live : host.live with
    | torn =>
      simp only [System.step, live]
      exact .refl host
    | complete binary =>
      simp only [System.step, live]
      have booted : Silent host
          (reconcileSelfUpdateEarly binary (countBoot (host.onTrial binary) host) plan).state :=
        (reconcileSelfUpdateEarly_silent (silent_countBoot _ host)).left plan
      have counted := silent_countCompleted (host.onTrial binary)
        (reconcileSelfUpdateEarly binary (countBoot (host.onTrial binary) host) plan)
      exact booted.touch counted.state counted.executions counted.reports
  | retry input plan =>
    cases running with
    | none => exact .refl host
    | some process => exact (retryDeferredSelfUpdate_silent (.refl host)).left plan
  | promote healthy plan =>
    cases running with
    | none => exact .refl host
    | some process => exact (reconcileSelfUpdatePromote_silent (.refl host)).left plan
  | finalise plan =>
    cases running with
    | none => exact .refl host
    | some process => exact (finalizeSelfUpdate_silent (.refl host)).left plan

theorem System.step_custody (recorded : system.host.state.Recorded runtime) (event : Event) :
    Custody runtime system.host (system.step runtime event).host := by
  have same : Custody runtime system.host system.host := .refl recorded
  cases event with
  | run input plan =>
    obtain ⟨host, running⟩ := system
    cases running with
    | none => exact same
    | some process => exact (run_custody recorded).left plan
  | _ => exact same.frozen (System.step_silent (by simp)).toFrozen

theorem System.after_custody (recorded : system.host.state.Recorded runtime) (events : List Event) :
    Custody runtime system.host (system.after runtime events).host := by
  induction events generalizing system with
  | nil => exact .refl recorded
  | cons event rest ih =>
    have step := System.step_custody recorded event
    exact step.trans (ih step.recorded)

end

/-- The node's configuration, with or without the pinned operator credential. -/
def sampleConfig (pinned : Bool) : Config where
  nodeID := "alpha"
  operatorCredPEM := if pinned then utf8 "pem" else []
  operatorCredAlg := .ed25519

def sampleApply (pinned staged : Bool) : RunInput where
  config := sampleConfig pinned
  fetched := some (sampleBundle sampleTime)
  staged
  now := { text := sampleTime, parses := sampleTime_parses }
  release := { arch := "amd64", download := none }

end Yaog.Agent
