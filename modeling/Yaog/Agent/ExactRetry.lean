import Yaog.Agent.Custody

/-!
# Exact retries

A run that was cut after its intent was saved, or whose script failed, is repeated with the same configuration and the
same bundle.
-/

namespace Yaog.Agent

open Data Durable Controller List Option

section

variable {runtime : Runtime} {config : Config} {prev intent later : State} {candidate : Candidate} {checksums : Bytes}
  {pending : PendingApply} {now : Stamp} {fingerprint : Bytes} {reason : AgentError}

theorem refuse_pass {condition : Prop} [Decidable condition] (passes : ¬condition) (reason : AgentError) :
    refuse condition reason = .ok () :=
  if_neg passes

theorem isHexDigit_hexDigit : ∀ nibble < 16, isHexDigit (hexDigit nibble) = true := by decide

theorem length_hexEncode (bytes : Bytes) : (hexEncode bytes).length = 2 * bytes.length := by
  induction bytes with
  | nil => rfl
  | cons byte rest ih =>
    simp only [hexEncode, flatMap_cons, length_append, length_cons, length_nil] at ih ⊢
    omega

theorem isHexDigit_hexEncode (bytes : Bytes) : ∀ digit ∈ hexEncode bytes, isHexDigit digit = true := by
  intro digit member
  obtain ⟨byte, -, either⟩ := mem_flatMap.mp member
  have high : byte.toNat / 16 < 16 := by have := byte.toNat_lt; omega
  have low : byte.toNat % 16 < 16 := Nat.mod_lt _ (by decide)
  simp only [mem_cons, not_mem_nil, or_false] at either
  rcases either with rfl | rfl
  · exact isHexDigit_hexDigit _ high
  · exact isHexDigit_hexDigit _ low

theorem validSHA256Hex_digest (content : Bytes) : validSHA256Hex (runtime.digest content) = true := by
  have length : (runtime.digest content).length = 64 := by
    rw [Platform.digest, length_hexEncode, Vector.length_toList]
  have digits : (runtime.digest content).all isHexDigit = true := all_eq_true.mpr (isHexDigit_hexEncode _)
  rw [validSHA256Hex, digits, Bool.and_true]
  exact decide_eq_true length

theorem equalFold_refl (bytes : Bytes) : equalFold bytes bytes = true := decide_eq_true rfl

theorem fingerprintOf_ok {pem : Bytes} (configured : pem ≠ [])
    (computed : fingerprintOf runtime pem reason = .ok fingerprint) :
    credFingerprint runtime pem = some fingerprint ∧ validSHA256Hex fingerprint = true := by
  unfold fingerprintOf at computed
  rw [if_neg configured] at computed
  split at computed
  · cases computed
  · next held known =>
    cases computed
    refine ⟨known, ?_⟩
    obtain ⟨der, -, rfl⟩ := map_eq_some_iff.mp known
    exact validSHA256Hex_digest der

theorem fingerprintOf_unset (computed : fingerprintOf runtime [] reason = .ok fingerprint) : fingerprint = [] :=
  (Except.ok.inj computed).symm

theorem validatePendingSigner_of_fingerprint
    (computed : fingerprintOf runtime config.pinnedPubPEM reason = .ok pending.signingKeyFingerprint) :
    validatePendingSigner runtime config pending = .ok () := by
  unfold validatePendingSigner
  by_cases configured : config.pinnedPubPEM = []
  · rw [configured] at computed
    rw [if_pos (fingerprintOf_unset computed)]
  · obtain ⟨known, valid⟩ := fingerprintOf_ok configured computed
    split
    · rfl
    · rw [refuse_pass (not_not.mpr valid), refuse_pass configured, known]
      exact refuse_pass (not_not.mpr (equalFold_refl _)) _

/-- The operator's part of a record that was made under the configuration. -/
structure MadeUnder (runtime : Runtime) (config : Config) (pending : PendingApply) : Prop where
  verified : pending.membershipVerified = decide (config.operatorCredPEM ≠ [])
  fingerprint : ∃ reason, fingerprintOf runtime config.operatorCredPEM reason = .ok pending.operatorCredentialFingerprint
  alg : pending.operatorCredentialAlg = if config.operatorCredPEM ≠ [] then some config.operatorCredAlg else none
  rpID : pending.operatorRPID = if config.operatorCredPEM ≠ [] then config.operatorRPID else ""
  origin : pending.operatorOrigin = if config.operatorCredPEM ≠ [] then config.operatorOrigin else ""

theorem MadeUnder.validates (made : MadeUnder runtime config pending) :
    validatePendingOperator runtime config pending = .ok () := by
  obtain ⟨verified, ⟨reason, computed⟩, alg, rpID, origin⟩ := made
  unfold validatePendingOperator
  by_cases configured : config.operatorCredPEM = []
  · rw [configured] at computed
    rw [verified, if_neg (by simp [configured])]
    exact refuse_pass (by simp [fingerprintOf_unset computed, alg, rpID, origin, configured]) _
  · obtain ⟨known, valid⟩ := fingerprintOf_ok configured computed
    rw [verified, if_pos (decide_eq_true configured), refuse_pass (not_not.mpr valid), refuse_pass configured, known]
    exact refuse_pass (by simp [equalFold_refl, alg, rpID, origin, configured]) _

theorem validatePendingApply_iff (held : later.pendingApply = some pending) (sane : Sane runtime config pending) :
    validatePendingApply runtime config later = .ok () ↔ parseTime pending.compiledAt ≠ none := by
  unfold validatePendingApply
  rw [held]
  have action : ¬(pending.action ≠ .apply ∧ pending.action ≠ .uninstall) := by
    rintro ⟨one, two⟩
    exact sane.action.elim one two
  simp only [refuse_pass sane.startedAt, refuse_pass action, refuse_pass (not_not.mpr sane.digest),
    refuse_pass (Int.not_lt.mpr sane.epoch), sane.signer, sane.operator]
  by_cases unread : parseTime pending.compiledAt = none
  · simp [refuse, unread, bind, Except.bind]
  · simp [refuse, unread, bind, Except.bind]

theorem Config.action_cases (config : Config) : config.action = .apply ∨ config.action = .uninstall := by
  unfold Config.action
  split
  · exact .inr rfl
  · exact .inl rfl

theorem pendingApply_sane (held : candidate.bundle.get? checksumsFile = some checksums) (epoch : 0 ≤ candidate.epoch)
    (computed : pendingApply runtime config candidate.manifest candidate.bundle candidate.epoch config.action now =
      .ok pending) : Sane runtime config pending := by
  have intends := pendingApply_ok held computed
  obtain ⟨digest, -, computed⟩ := bind_ok computed
  obtain ⟨signer, signed, computed⟩ := bind_ok computed
  obtain ⟨operator, fingerprint, computed⟩ := bind_ok computed
  cases computed
  exact {
    startedAt := isSome_iff_ne_none.mp now.parses
    action := config.action_cases
    digest := intends.digest ▸ validSHA256Hex_digest checksums
    epoch
    signer := validatePendingSigner_of_fingerprint signed
    operator := MadeUnder.validates ⟨rfl, ⟨_, fingerprint⟩, rfl, rfl, rfl⟩ }

theorem last_le_compiledFloor {state : State} {last : Instant} (read : parseTime state.lastCompiledAt = some last) :
    last ≤ state.compiledFloor := by
  have trimmed : parseTime (trimSpace state.lastCompiledAt) = some last := by rw [trimSpace_of_parseTime read, read]
  cases held : state.pendingApply with
  | none =>
    simp only [State.compiledFloor, effectiveRollbackState, held, trimmed]
    exact Nat.le_refl _
  | some pending =>
    cases readable : parseTime pending.compiledAt with
    | none =>
      rw [compiledFloor_of_unreadable held readable, trimmed]
      exact Nat.le_refl _
    | some time =>
      simp only [State.compiledFloor, effectiveRollbackState, held, readable, read]
      split
      · next newer =>
        rw [trimSpace_of_parseTime readable, readable]
        exact Nat.le_of_lt newer
      · rw [trimmed]
        exact Nat.le_refl _

theorem checkRollback_own {time : Instant} (held : later.pendingApply = some pending)
    (read : parseTime pending.compiledAt = some time)
    (reaches : ∀ last, parseTime later.lastCompiledAt = some last → last ≤ time) :
    checkRollback (effectiveRollbackState later) pending.compiledAt = .ok () := by
  have trimmed : parseTime (trimSpace pending.compiledAt) = some time := by rw [trimSpace_of_parseTime read, read]
  have own : refuse (time < time) AgentError.rollback = .ok () := refuse_pass (Nat.lt_irrefl time) _
  simp only [checkRollback, effectiveRollbackState, held, read, trimmed]
  split
  · simp only [trimmed, own]
    split <;> rfl
  · next last readLast =>
    split
    · simp only [trimmed, own]
      split <;> rfl
    · rw [trimSpace_of_parseTime readLast, readLast]
      split
      · rfl
      · exact refuse_pass (Nat.not_lt.mpr (reaches last readLast)) _

theorem validateCandidateAgainstPending_own (held : later.pendingApply = some pending)
    (action : config.action = pending.action) (compiledAt : pending.compiledAt = candidate.manifest.compiledAt)
    (checksum : pending.manifestChecksum = candidate.manifest.checksum)
    (read : parseTime candidate.manifest.compiledAt ≠ none)
    (present : candidate.bundle.get? checksumsFile = some checksums)
    (digest : pending.bundleSHA256 = runtime.digest checksums) :
    validateCandidateAgainstPending runtime later candidate.manifest candidate.bundle config.action = .ok () := by
  obtain ⟨time, readable⟩ := ne_none_iff_exists'.mp read
  simp only [validateCandidateAgainstPending, held, action, compiledAt, readable, verifiedBundleDigest, present,
    digest, checksum, ne_eq, not_true_eq_false, if_false, if_true]
  exact refuse_pass (by simp [equalFold_refl]) _

theorem pendingApply_named
    (made : pendingApply runtime config candidate.manifest candidate.bundle candidate.epoch config.action now =
      .ok pending) :
    pending.action = config.action ∧ pending.manifestChecksum = candidate.manifest.checksum := by
  obtain ⟨digest, -, made⟩ := bind_ok made
  obtain ⟨signer, -, made⟩ := bind_ok made
  obtain ⟨operator, -, made⟩ := bind_ok made
  cases made
  exact ⟨rfl, rfl⟩

/-- What a retry finds on disk. -/
structure Retryable (runtime : Runtime) (config : Config) (prev : State) (candidate : Candidate) (checksums : Bytes)
    (intent : State) (pending : PendingApply) : Prop where
  held : intent.pendingApply = some pending
  intends : Intends runtime config candidate checksums pending
  sane : Sane runtime config pending
  action : config.action = pending.action
  checksum : pending.manifestChecksum = candidate.manifest.checksum
  compiledAt : intent.lastCompiledAt = prev.lastCompiledAt

theorem intentState_retryable (custody : validatePendingApply runtime config prev = .ok ())
    (recorded : prev.Recorded runtime) (present : candidate.bundle.get? checksumsFile = some checksums)
    (epoch : 0 ≤ candidate.epoch)
    (computed : intentState runtime config prev candidate.manifest candidate.bundle candidate.epoch config.action now =
      .ok intent) :
    ∃ pending, Retryable runtime config prev candidate checksums intent pending := by
  obtain ⟨fresh, made, computed⟩ := bind_ok computed
  have intends := pendingApply_ok present made
  have sane := pendingApply_sane present epoch made
  obtain ⟨named, listed⟩ := pendingApply_named made
  split at computed
  · next kept =>
    cases computed
    cases held : prev.pendingApply with
    | none =>
      rw [held] at kept
      cases kept
    | some old =>
      rw [held, any_some] at kept
      refine ⟨old, held, intends.of_same (recorded old held) kept, sane_of_validated held custody, ?_, ?_, rfl⟩
      all_goals
        simp only [samePendingApply, Bool.and_eq_true, decide_eq_true_eq] at kept
        obtain ⟨⟨⟨⟨⟨⟨⟨⟨⟨⟨-, checksum⟩, -⟩, action⟩, -⟩, -⟩, -⟩, -⟩, -⟩, -⟩, -⟩ := kept
      · exact (action.trans named).symm
      · exact checksum.trans listed
  · cases computed
    exact ⟨fresh, rfl, intends, sane, named.symm, listed, rfl⟩

theorem epoch_nonneg (floor : 0 ≤ prev.membershipFloor)
    (membership : verifyMembership runtime.toPlatform candidate.bundle config.membership prev.membershipFloor =
      .ok candidate.epoch) : 0 ≤ candidate.epoch := by
  by_cases pinned : config.membership.operatorCredPEM = []
  · unfold verifyMembership at membership
    rw [if_pos pinned] at membership
    exact (Except.ok.inj membership).le
  · obtain ⟨-, -, -, -, -, -, -, -, -, -, reaches⟩ := verifyMembership_ok pinned membership
    exact floor.trans reaches

theorem Retryable.passes_iff (retryable : Retryable runtime config prev candidate checksums intent pending)
    (admits : Admits runtime config prev candidate checksums) (same : SameCustody intent later) :
    (validatePendingApply runtime config later = .ok () ∧
      checkRollback (effectiveRollbackState later) candidate.manifest.compiledAt = .ok () ∧
      validateCandidateAgainstPending runtime later candidate.manifest candidate.bundle config.action = .ok ()) ↔
    trimSpace candidate.manifest.compiledAt = candidate.manifest.compiledAt := by
  have held : later.pendingApply = some pending := same.pending.symm.trans retryable.held
  have compiledAt := retryable.intends.compiledAt
  obtain ⟨time, read, reaches⟩ := checkRollback_ok admits.rollback
  constructor
  · rintro ⟨validated, -, -⟩
    have readable := (validatePendingApply_iff held retryable.sane).mp validated
    obtain ⟨time, readable⟩ := ne_none_iff_exists'.mp readable
    rw [← compiledAt]
    exact trimSpace_of_parseTime readable
  · intro trimmed
    rw [trimmed] at read
    have own : parseTime pending.compiledAt = some time := compiledAt ▸ read
    have readable : parseTime candidate.manifest.compiledAt ≠ none := by rw [read]; exact some_ne_none _
    refine ⟨(validatePendingApply_iff held retryable.sane).mpr (compiledAt ▸ readable), ?_, ?_⟩
    · rw [← compiledAt]
      refine checkRollback_own held own fun last readLast => ?_
      rw [← same.compiledAt, retryable.compiledAt] at readLast
      exact (last_le_compiledFloor readLast).trans reaches
    · exact validateCandidateAgainstPending_own held retryable.action compiledAt retryable.checksum readable
        admits.checksums retryable.intends.digest

/-- A failed or unfinished run, and a run of the updater, leave these records of the first state. -/
structure Restates (first second : State) : Prop where
  compiledAt : first.lastCompiledAt = second.lastCompiledAt
  epoch : first.membershipEpoch = second.membershipEpoch
  verified : first.membershipVerified = second.membershipVerified

theorem Restates.sameCustody (one : Restates prev intent) (two : Restates prev later)
    (pending : intent.pendingApply = later.pendingApply) : SameCustody intent later where
  pending
  compiledAt := one.compiledAt.symm.trans two.compiledAt
  epoch := one.epoch.symm.trans two.epoch
  keystoned := by
    simp only [State.keystoned, pending, ← one.epoch, ← one.verified, ← two.epoch, ← two.verified]

theorem intentState_restates {manifest : ManifestInfo} {bundle : Bundle} {epoch : Int} {action : Action}
    (computed : intentState runtime config prev manifest bundle epoch action now = .ok intent) :
    Restates prev intent ∧ intent.pendingApply ≠ none := by
  obtain ⟨fresh, -, computed⟩ := bind_ok computed
  split at computed
  · next kept =>
    cases computed
    refine ⟨⟨rfl, rfl, rfl⟩, fun missing => ?_⟩
    rw [missing] at kept
    cases kept
  · cases computed
    exact ⟨⟨rfl, rfl, rfl⟩, some_ne_none _⟩

/-- Nothing is being applied any more, or the state differs from the first one in its record of that only. -/
def Noted (first after : State) : Prop :=
  after.pendingApply = none ∨ ∃ noted, Restates first noted ∧ SameCustody noted after

theorem SameCustody.noted (same : SameCustody prev later) : Noted prev later := .inr ⟨prev, ⟨rfl, rfl, rfl⟩, same⟩

theorem Noted.sameCustody (left : Noted prev later) (restates : Restates prev intent)
    (held : intent.pendingApply ≠ none) (kept : later.pendingApply = intent.pendingApply) :
    SameCustody intent later := by
  rcases left with applied | ⟨noted, first, same⟩
  · exact absurd (kept.symm.trans applied) held
  · exact (restates.sameCustody first (kept.symm.trans same.pending.symm)).trans same

theorem run_noted {host : Host} {process : Binary} {input : RunInput} :
    Ensures host (run runtime process input) (fun after => Noted host.state after.state)
      fun _ after => Noted host.state after.state := by
  rw [ensures_iff]
  refine Meets.run (fun _ held => held)
    (@fun prev after (here : Restates host.state prev ∧ Noted host.state after.state) => here.2)
    (fun here _ => .inr ⟨_, here.1, sameCustody_failureState _ _ _⟩) ⟨⟨rfl, rfl, rfl⟩, (SameCustody.refl _).noted⟩ ?_
  intro candidate _ _ _ catalog
  constructor
  · exact (forcedUpdate_told (.refl host) (.refl _)).meets (fun _ told => told.state.noted)
      (fun _ told => told.state.noted) |>.weaken fun _ _ told => told.2.state.noted
  · intro intent computed
    have restates := (intentState_restates computed).1
    have noted : Noted host.state intent := .inr ⟨intent, restates, .refl _⟩
    refine ⟨⟨⟨rfl, rfl, rfl⟩, noted⟩, fun _ => ⟨restates, noted⟩, fun _ => ⟨noted, fun policy => ⟨.inl rfl, ?_⟩⟩⟩
    -- a success clears the record, and the update after it writes none
    exact (deferredUpdate_silent (.refl _)).mono (fun _ silent => .inl silent.state.pending.symm) (fun _ => False.elim)
      fun _ _ silent => .inl silent.state.pending.symm

theorem System.step_noted (system : System) (event : Event) :
    Noted system.host.state (system.step runtime event).host.state := by
  cases event with
  | run input plan =>
    obtain ⟨host, running⟩ := system
    cases running with
    | none => exact (SameCustody.refl _).noted
    | some process => exact run_noted.left plan
  | _ => exact (System.step_silent (by simp)).state.noted

/-- From the event that saved an intent on, as long as its record is on disk: whatever the node goes through, nothing
changes that a bundle is checked against. -/
theorem System.after_sameCustody {system : System} {event : Event} {events : List Event}
    (restates : Restates system.host.state intent) (held : intent.pendingApply ≠ none)
    (kept : ∀ done ∈ events.inits,
      (system.after runtime (event :: done)).host.state.pendingApply = intent.pendingApply) :
    SameCustody intent (system.after runtime (event :: events)).host.state := by
  have first := kept [] ((mem_inits ..).mpr nil_prefix)
  induction events generalizing system event intent with
  | nil => exact (system.step_noted event).sameCustody restates held first
  | cons next rest ih =>
    have same := (system.step_noted event).sameCustody restates held first
    have later (done : List Event) (member : done ∈ rest.inits) :
        ((system.step runtime event).after runtime (next :: done)).host.state.pendingApply =
          (system.step runtime event).host.state.pendingApply := by
      refine (kept (next :: done) ?_).trans first.symm
      exact (mem_inits ..).mpr ((prefix_cons_inj next).mpr ((mem_inits ..).mp member))
    exact same.trans (ih ⟨rfl, rfl, rfl⟩ (first ▸ held) later (later [] ((mem_inits ..).mpr nil_prefix)))

end

/-- A run of a node passed its gates and computed its intent, which was saved; since then only the result of the
script, or of other runs that were refused, was recorded. The same run passes the same gates again exactly if the
compile time in its manifest stands without space around it. -/
theorem exact_retry_passes_iff (runtime : Runtime) (initial : Binary) (past : List Event) (config : Config)
    (fetched : Option Bundle) (candidate : Candidate) (now : Stamp) (intent later : State)
    (custody : validatePendingApply runtime config ((System.start initial).after runtime past).host.state = .ok ())
    (admitted : admission runtime config ((System.start initial).after runtime past).host.state fetched = .ok candidate)
    (persisted : intentState runtime config ((System.start initial).after runtime past).host.state candidate.manifest
      candidate.bundle candidate.epoch config.action now = .ok intent)
    (since : SameCustody intent later) :
    (validatePendingApply runtime config later = .ok () ∧
      checkRollback (effectiveRollbackState later) candidate.manifest.compiledAt = .ok () ∧
      validateCandidateAgainstPending runtime later candidate.manifest candidate.bundle config.action = .ok ()) ↔
    trimSpace candidate.manifest.compiledAt = candidate.manifest.compiledAt := by
  have untouched : (System.start initial).host.state.Recorded runtime := nofun
  have reached := System.after_custody untouched past
  obtain ⟨checksums, admits⟩ := admission_ok admitted
  have epoch := epoch_nonneg reached.advances.epoch admits.membership
  obtain ⟨pending, retryable⟩ := intentState_retryable custody reached.recorded admits.checksums epoch persisted
  exact retryable.passes_iff admits since

def sampleCandidate (compiledAt : String) : Candidate where
  bundle := sampleBundle compiledAt
  manifest := { nodeID := "alpha", compiledAt, checksum := compiledAt }
  signed := false
  policy := []
  epoch := 3

def sampleStamp : Stamp := { text := sampleTime, parses := sampleTime_parses }

/-- The first run of a node, which dies in the script. -/
def sampleCut (compiledAt : String) : Event :=
  .run { sampleApply true true with fetched := some (sampleBundle compiledAt) } [.applied, .halted]

def sampleBooted : System := (System.start sampleBinary).after sampleRuntime [.boot []]

def sampleIntent (compiledAt : String) : State := (sampleBooted.after sampleRuntime [sampleCut compiledAt]).host.state

/-- The next run finds no bundle, and one after it fails in the script. -/
def sampleRest (compiledAt : String) : List Event :=
  let again := { sampleApply true true with fetched := some (sampleBundle compiledAt), installed := false }
  [.boot [], .run { sampleApply true true with fetched := none } [], .run again []]

def sampleLater (compiledAt : String) : State :=
  (sampleBooted.after sampleRuntime (sampleCut compiledAt :: sampleRest compiledAt)).host.state

theorem sampleRetry_passes :
    (validatePendingApply sampleRuntime (sampleConfig true) (sampleLater sampleTime) = .ok () ∧
      checkRollback (effectiveRollbackState (sampleLater sampleTime)) sampleTime = .ok () ∧
      validateCandidateAgainstPending sampleRuntime (sampleLater sampleTime)
        (sampleCandidate sampleTime).manifest (sampleBundle sampleTime) .apply = .ok ()) ↔
    trimSpace sampleTime = sampleTime := by
  have persisted : intentState sampleRuntime (sampleConfig true) {} (sampleCandidate sampleTime).manifest
      (sampleBundle sampleTime) 3 .apply sampleStamp = .ok (sampleIntent sampleTime) := by
    decide +kernel
  obtain ⟨restates, held⟩ := intentState_restates persisted
  exact exact_retry_passes_iff sampleRuntime sampleBinary [.boot []] (sampleConfig true)
    (some (sampleBundle sampleTime)) (sampleCandidate sampleTime) sampleStamp
    (sampleIntent sampleTime) (sampleLater sampleTime) (by decide +kernel) (by decide +kernel)
    persisted (System.after_sameCustody restates held (by decide +kernel))

/-- A space in front of the time passes the first run, and no later one. -/
theorem sampleRetry_refused :
    admission sampleRuntime (sampleConfig true) {} (some (sampleBundle " 2026-01-02T03:04:05Z")) =
      .ok (sampleCandidate " 2026-01-02T03:04:05Z") ∧
    intentState sampleRuntime (sampleConfig true) {} (sampleCandidate " 2026-01-02T03:04:05Z").manifest
      (sampleBundle " 2026-01-02T03:04:05Z") 3 .apply sampleStamp = .ok (sampleIntent " 2026-01-02T03:04:05Z") ∧
    validatePendingApply sampleRuntime (sampleConfig true) (sampleIntent " 2026-01-02T03:04:05Z") =
      .error .pendingCompiledAt := by
  decide +kernel

end Yaog.Agent
