import Yaog.Agent.Rollout

/-!
# What a self-update leaves alone

The programs that update the binary keep the records of applied bundles.
-/

namespace Yaog.Agent

open Data Durable Controller

/-- The floor of `compiled_at` that a candidate is checked against; no floor is the earliest time. -/
def State.compiledFloor (state : State) : Instant :=
  (parseTime (trimSpace (effectiveRollbackState state).lastCompiledAt)).getD 0

def State.keystoned (state : State) : Bool :=
  state.membershipVerified || 0 < state.membershipEpoch || state.pendingApply.any (·.membershipVerified)

/-- The states agree on everything that the acceptance of a bundle depends on. -/
structure SameCustody (first second : State) : Prop where
  pending : first.pendingApply = second.pendingApply
  compiledAt : first.lastCompiledAt = second.lastCompiledAt
  epoch : first.membershipEpoch = second.membershipEpoch
  keystoned : first.keystoned = second.keystoned

section

variable {first second third : State}

theorem SameCustody.refl (state : State) : SameCustody state state := ⟨rfl, rfl, rfl, rfl⟩

theorem SameCustody.trans (one : SameCustody first second) (two : SameCustody second third) :
    SameCustody first third :=
  ⟨one.pending.trans two.pending, one.compiledAt.trans two.compiledAt, one.epoch.trans two.epoch,
    one.keystoned.trans two.keystoned⟩

theorem SameCustody.membershipFloor (same : SameCustody first second) :
    first.membershipFloor = second.membershipFloor := by
  simp only [State.membershipFloor, same.pending, same.epoch]

theorem SameCustody.compiledFloor (same : SameCustody first second) : first.compiledFloor = second.compiledFloor := by
  simp only [State.compiledFloor, effectiveRollbackState, same.pending, same.compiledAt]
  split
  · rw [same.compiledAt]
  · split
    · rw [same.compiledAt]
    · split
      · rfl
      · split
        · rfl
        · rw [same.compiledAt]

theorem sameCustody_failureState (config : Config) (state : State) (now : Stamp) :
    SameCustody state (failureState config state now) where
  pending := rfl
  compiledAt := rfl
  epoch := rfl
  keystoned := by
    simp only [State.keystoned, failureState, gt_iff_lt]
    rw [Bool.or_assoc state.membershipVerified _ (decide _), Bool.or_self]

end

/-- The host has applied nothing since the base, and its records are the same. -/
structure Frozen (base host : Host) : Prop where
  state : SameCustody base.state host.state
  executions : host.executions = base.executions

/-- And it has reported nothing. -/
structure Silent (base host : Host) : Prop extends Frozen base host where
  reports : host.reports = base.reports

/-- Or one failure. -/
structure Told (base host : Host) : Prop extends Frozen base host where
  reports : Unapplied base.reports host.reports

section

variable {base host : Host} {process : Binary} {nodeID : String} {catalog : AgentCatalog} {release : Release}
  {pending : PendingUpdate} {state : State}

theorem Frozen.refl (host : Host) : Frozen host host := ⟨.refl _, rfl⟩

theorem Silent.refl (host : Host) : Silent host host := ⟨.refl host, rfl⟩

section

variable (silent : Silent base host)

include silent

theorem Silent.told : Told base host := ⟨silent.toFrozen, .inl silent.reports⟩

theorem Silent.save (same : SameCustody host.state state) : Silent base (saved state host) :=
  ⟨⟨silent.state.trans same, silent.executions⟩, silent.reports⟩

theorem Silent.touch {after : Host} (same : SameCustody host.state after.state)
    (executions : after.executions = host.executions) (reports : after.reports = host.reports) : Silent base after :=
  ⟨⟨silent.state.trans same, executions.trans silent.executions⟩, reports.trans silent.reports⟩

theorem reExec_silent : Keeps host reExec (Silent base) :=
  ensures_iff.mpr (Meets.reExec silent silent silent)

theorem performSelfUpdate_silent :
    Keeps host (performSelfUpdate nodeID process catalog release) (Silent base) := by
  suffices swapped : Keeps host (swapBinary nodeID process catalog release) (Silent base) from
    Ensures.bind (swapped.weaken fun _ _ held => reExec_silent held)
  refine .require_bind (fun _ => silent) fun _ => ?_
  apply Ensures.loadState_bind
  refine .require_bind (fun _ => silent) fun _ => ?_
  refine .lift_bind (fun _ _ => silent) fun binary _ => ?_
  apply Ensures.loadState_bind
  refine .require_bind (fun _ => silent) fun _ => ?_
  have armed : Silent base (armed nodeID process binary catalog.version host.state host) :=
    silent.touch ⟨rfl, rfl, rfl, rfl⟩ rfl rfl
  refine .bind ?_
  refine .write silent armed ?_
  refine .bind ?_
  refine copyFile_ensures (fun _ => armed.touch (.refl _) rfl rfl) ?_
  refine .bind ?_
  apply Ensures.attemptExact
  · exact armed.touch (.refl _) rfl rfl
  · refine .orCleanUp nofun fun _ => ?_
    exact .dropBackup (armed.touch (.refl _) rfl rfl) (armed.touch (.refl _) rfl rfl) (armed.touch (.refl _) rfl rfl)
  · exact .orCleanUp (fun _ => armed.touch (.refl _) rfl rfl) nofun

theorem recordSelfUpdateBlocked_silent {reason : AgentError} :
    Meets host (recordSelfUpdateBlocked nodeID reason) (Silent base) (fun _ => False) fun _ => Silent base := by
  apply Meets.loadState_bind
  split
  · exact .pure silent
  · exact .tryWrite silent silent (silent.touch ⟨rfl, rfl, rfl, rfl⟩ rfl rfl)

theorem rollback_silent : Keeps host (rollback process pending) (Silent base) := by
  apply Ensures.read_bind
  split
  · refine .bind ?_
    apply Ensures.attemptExact silent
    · refine .bind ?_
      apply Ensures.advance
      exact .pure (silent.touch (.refl _) rfl rfl)
    · refine .bind ?_
      apply Ensures.advance
      exact .pure (silent.touch (.refl _) rfl rfl)
  · exact .pure silent

theorem afterAbandon_silent {reported rolledBack : Bool} :
    Keeps host (afterAbandon reported rolledBack) (Silent base) := by
  unfold afterAbandon
  split
  · refine .bind ?_
    refine (reExec_silent silent).weaken fun ending after held => ?_
    exact .bind (.advance (.pure (held.touch (.refl _) rfl rfl)))
  · split
    · refine .bind ?_
      exact .dropBackup silent (.pure silent) (.pure (silent.touch (.refl _) rfl rfl))
    · exact .pure silent

theorem reconcileSelfUpdateEarly_silent :
    Keeps host (reconcileSelfUpdateEarly process) (Silent base) := by
  apply Ensures.loadState_bind
  split
  · exact .pure silent
  · have noted (pending : PendingUpdate) : Silent base (saved { host.state with pendingUpdate := some pending } host) :=
      silent.save ⟨rfl, rfl, rfl, rfl⟩
    refine .bind ?_
    refine .write silent (noted _) ?_
    unfold resolveAttempt
    split
    · refine .bind ?_
      refine (rollback_silent (noted _)).weaken fun rolledBack after held => ?_
      apply Ensures.loadState_bind
      have abandoned (pending : PendingUpdate) : Silent base (abandonedUpdate pending after.state after) :=
        held.touch ⟨rfl, rfl, rfl, rfl⟩ rfl rfl
      refine .bind ?_
      apply Ensures.attempt held
      · exact afterAbandon_silent held
      · exact afterAbandon_silent (abandoned _)
      · exact afterAbandon_silent (abandoned _)
    · exact .pure (noted _)

theorem reconcileSelfUpdatePromote_silent {healthy : Bool} :
    Keeps host (reconcileSelfUpdatePromote process healthy) (Silent base) := by
  apply Ensures.loadState_bind
  split
  · exact .pure silent
  · split
    · exact .pure silent
    · refine .require_bind (fun _ => silent) fun _ => ?_
      exact .write silent (silent.save ⟨rfl, rfl, rfl, rfl⟩) (silent.save ⟨rfl, rfl, rfl, rfl⟩)

theorem finalizeSelfUpdate_silent :
    Keeps host (finalizeSelfUpdate process) (Silent base) := by
  apply Ensures.loadState_bind
  split
  · exact .pure silent
  · split
    · exact .pure silent
    · have final (pending : PendingUpdate) : Silent base (finalisedUpdate pending host.state host) :=
        silent.touch ⟨rfl, rfl, rfl, rfl⟩ rfl rfl
      refine .bind ?_
      apply Ensures.attempt silent
      · exact .pure silent
      · exact .pure (final _)
      · exact .dropBackup (final _) (final _) ((final _).touch (.refl _) rfl rfl)

end

variable {runtime : Runtime} {input : RunInput} {offered : Option AgentCatalog} {decision : UpdateDecision}

section

variable (silent : Silent base host)

include silent

theorem observe_performSelfUpdate_silent {next : Except AgentError Ending → Program Ending} {keeps : Host → Prop}
    {ends : Ending → Host → Prop} (weaker : ∀ after, Silent base after → keeps after)
    (settled : ∀ result after, Silent base after → Ensures after (next result) keeps ends) :
    Ensures host (do
      let result ← Durable.observe (performSelfUpdate nodeID process catalog release)
      next result) keeps ends := by
  refine .bind ?_
  have observed : Keeps host
      (Durable.observe (performSelfUpdate nodeID process catalog release) : Program (Except AgentError Ending))
      (Silent base) :=
    Ensures.observe (performSelfUpdate_silent silent) fun _ _ held => held
  exact observed.mono weaker settled

theorem forcedUpdate_told (same : SameCustody base.state state) :
    Ensures host (forcedUpdate process input state offered decision) (Told base)
      fun ending after => ending = .replaced ∧ Told base after := by
  have recorded {after : Host} (held : Silent base after) (reports : List State)
      (sent : Unapplied after.reports reports) :
      Told base { saved (failureState input.config state input.now) after with reports } :=
    ⟨⟨same.trans (sameCustody_failureState _ _ _), held.executions⟩, held.reports ▸ sent⟩
  have settled (result : Except AgentError Ending) (after : Host) (held : Silent base after) : Ensures after (do
        let ending ← orRecord input.config state input.now result
        Durable.require (ending = .replaced) .reExec
        pure ending) (Told base) fun ending after => ending = Ending.replaced ∧ Told base after := by
    refine .bind ?_
    refine .orRecord held.told (recorded held) fun ending _ => ?_
    exact .require_bind (fun _ => held.told) fun replaced => .pure ⟨replaced, held.told⟩
  unfold forcedUpdate
  split
  · exact observe_performSelfUpdate_silent silent (fun _ held => held.told) settled
  · refine .bind ?_
    exact .recordFailure silent.told (.fail silent.told) fun reports sent =>
      Ensures.fail (recorded silent reports sent)

/-- The update after an apply does not fail. -/
theorem deferredUpdate_silent :
    Meets host (deferredUpdate process input offered decision) (Silent base) (fun _ => False) fun _ => Silent base := by
  have blocked {after : Host} (held : Silent base after) (reason : AgentError) : Meets after (do
        recordSelfUpdateBlocked input.config.nodeID reason
        pure Ending.continues) (Silent base) (fun _ => False) fun _ => Silent base :=
    Meets.bind ((recordSelfUpdateBlocked_silent held).weaken fun _ _ held => .pure held)
  have settled (result : Except AgentError Ending) (after : Host) (held : Silent base after) :
      Meets after (settleDeferred input.config.nodeID result) (Silent base) (fun _ => False) fun _ => Silent base := by
    cases result with
    | ok ending =>
      cases ending with
      | replaced => exact .pure held
      | continues => exact blocked held .reExec
    | error reason => exact blocked held reason
  unfold deferredUpdate
  split
  · refine .bind ?_
    exact Ensures.meets_observe ((performSelfUpdate_silent silent).weaken fun ending => settled (.ok ending))
      (fun _ held => held)
      fun reason => settled (.error reason)
  · exact .pure silent

theorem retrySwap_silent :
    Keeps host (retrySwap process input offered decision) (Silent base) := by
  have settled (result : Except AgentError Ending) (after : Host) (held : Silent base after) :
      Keeps after (settleRetry input.config.nodeID result) (Silent base) := by
    cases result with
    | ok ending => exact .require_bind (fun _ => held) fun _ => .pure held
    | error reason =>
      refine .bind ?_
      exact ensures_iff.mpr ((recordSelfUpdateBlocked_silent held).mono (fun _ held => held) (fun _ => False.elim)
        fun _ _ held => .fail held)
  unfold retrySwap
  split
  · exact observe_performSelfUpdate_silent silent (fun _ held => held) settled
  · exact observe_performSelfUpdate_silent silent (fun _ held => held) settled
  · refine .bind ?_
    apply Ensures.loadState_bind
    split
    · have cleared : Silent base (saved { host.state with selfUpdateBlocked := false } host) :=
        silent.save ⟨rfl, rfl, rfl, rfl⟩
      exact .tryWrite silent (.pure silent) (.pure cleared)
    · exact .pure (.pure silent)

theorem retryDeferredSelfUpdate_silent :
    Keeps host (retryDeferredSelfUpdate runtime process input) (Silent base) := by
  apply Ensures.loadState_bind
  split
  · exact .pure silent
  · refine .bind ?_
    exact .lift (fun _ _ => silent) fun _ _ => retrySwap_silent silent

end

end

end Yaog.Agent
