import Yaog.Agent.Rollout

/-!
# Boots, runs and updates

The programs of the agent keep the rollout, and so does a node over any sequence of events.
-/

namespace Yaog.Agent

open Data Durable Std

variable {initial process : Binary} {host : Host} {prev : State} {pending : PendingUpdate} {stops : Host → Prop}
  {ends : Bool → Host → Prop} {transition : Transition}

/-- A boot that was not cut: the rollout is kept, and also when the boot is counted. -/
structure Booted (initial process : Binary) (trial : Bool) (ending : Ending) (host : Host) : Prop
    extends Left initial process ending host where
  counted : trial = true → Rollout initial { host with completedBoots := host.completedBoots + 1 }

theorem Booted.untried (rollout : Rollout initial host) (live : host.live = .complete process) :
    Booted initial process false .continues host :=
  ⟨⟨rollout, fun _ => .own live⟩, nofun⟩

theorem rollback_skips (differs : sameVersion process.version pending.target = false) (holds : ends false host) :
    Ensures host (rollback process pending) stops ends := by
  apply Ensures.read_bind
  rw [differs, Bool.false_and]
  exact .pure holds

theorem rollback_restores {source : Binary}
    (same : sameVersion process.version pending.target = true) (backup : host.backup = some (.complete source))
    (before : stops host) (restored : ends true { host with live := .complete source, backup := none, restored := true })
    (failed : ends false { host with restoreFailed := true }) :
    Ensures host (rollback process pending) stops ends := by
  apply Ensures.read_bind
  rw [same, backup]
  refine .bind ?_
  apply Ensures.attemptExact before
  · refine .bind ?_
    apply Ensures.advance
    exact .pure failed
  · refine .bind ?_
    apply Ensures.advance
    refine .pure ?_
    rw [backup]
    exact restored

/-- The process that made a rollback goes on over the restored binary if it cannot be replaced. -/
theorem afterAbandon_keeps (rollout : Rollout initial host) (current : host.transition = some transition)
    (live : host.live = .complete transition.source)
    (older : compareVersions transition.source.version transition.target.version = .lt)
    (trying : host.restoreFailed = false → host.completedBoots ≤ maxSelfUpdateAttempts) (reported : Bool) :
    Ensures host (afterAbandon reported true) (Rollout initial) (Booted initial transition.target true) := by
  have left (ending : Ending) : Booted initial transition.target true ending (noteStranded ending host) := by
    refine ⟨⟨rollout.stranded ending, fun continues => ⟨transition.source, live, .inr (.inl ⟨?_, older⟩)⟩⟩, fun _ => ?_⟩
    · rw [continues]
      exact Bool.or_true _
    · exact (rollout.stranded ending).recount current live fun restorable => Nat.succ_le_succ (trying restorable)
  refine .bind ?_
  refine ensures_iff.mpr (Meets.reExec rollout ?_ ?_)
  · exact .bind (.advance (.pure (left .replaced)))
  · exact .bind (.advance (.pure (left .continues)))

section

variable (rollout : Rollout initial host) (live : host.live = .complete process)

include rollout live

theorem rollbackAndAbandon_source (current : host.transition = some transition)
    (awaits : Awaits transition pending host.marks) (source : process = transition.source) :
    Ensures host (rollbackAndAbandon process pending) (Rollout initial) (Booted initial process false) := by
  subst source
  have abandoned := rollout.abandon current awaits (.inl live)
  refine .bind ?_
  apply rollback_skips awaits.source_differs
  apply Ensures.loadState_bind
  refine .bind ?_
  apply Ensures.attempt
  · exact rollout
  · exact .pure (.untried rollout live)
  · exact .pure (.untried abandoned live)
  · have dropped := abandoned.setBackup (fun _ _ busy => absurd rfl busy) none
    refine .bind ?_
    exact .dropBackup abandoned (.pure (.untried abandoned live)) (.pure (.untried dropped live))

theorem rollbackAndAbandon_target (waiting : host.state.pendingUpdate = some pending)
    (current : host.transition = some transition) (awaits : Awaits transition pending host.marks)
    (target : process = transition.target) (backup : host.backup = some (.complete transition.source))
    (trying : host.restoreFailed = false → host.completedBoots ≤ maxSelfUpdateAttempts) :
    Ensures host (rollbackAndAbandon process pending) (Rollout initial) (Booted initial process true) := by
  subst target
  have same : sameVersion transition.target.version pending.target = true := decide_eq_true awaits.target
  refine .bind ?_
  apply rollback_restores same backup rollout
  · have restored := rollout.restore current awaits waiting
    have abandoned := restored.abandon current awaits (.inl rfl)
    have older : compareVersions transition.source.version transition.target.version = .lt :=
      TransCmp.lt_of_lt_of_eq (OrientedCmp.gt_iff_lt.mp awaits.above) (OrientedCmp.eq_symm awaits.target)
    apply Ensures.loadState_bind
    refine .bind ?_
    apply Ensures.attempt
    · exact restored
    · exact afterAbandon_keeps restored current rfl older trying _
    · exact afterAbandon_keeps abandoned current rfl older trying _
    · exact afterAbandon_keeps abandoned current rfl older trying _
  · have failed : Rollout initial { host with restoreFailed := true } := rollout.unrestored host.completedBoots
    have abandoned := failed.abandon current awaits (.inr ⟨live, rfl⟩)
    have booted {after : Host} (rollout : Rollout initial after) (live : after.live = .complete transition.target)
        (failed : after.restoreFailed = true) : Booted initial transition.target true .continues after :=
      ⟨⟨rollout, fun _ => .own live⟩, fun _ => rollout.recount_unrestored failed _⟩
    apply Ensures.loadState_bind
    refine .bind ?_
    apply Ensures.attempt
    · exact failed
    · exact .pure (booted failed live rfl)
    · exact .pure (booted abandoned live rfl)
    · have dropped := abandoned.setBackup (fun _ _ busy => absurd rfl busy) none
      refine .bind ?_
      exact .dropBackup abandoned (.pure (booted abandoned live rfl))
        (.pure (booted dropped live rfl))

theorem resolveAttempt_keeps
    (waiting : host.state.pendingUpdate = some pending) {trial : Bool}
    (early : ∀ transition, host.transition = some transition → process = transition.target →
      host.restoreFailed = false → host.completedBoots < pending.attempts)
    (tried : trial = true ↔ ∃ transition, host.transition = some transition ∧ process = transition.target) :
    Ensures host (resolveAttempt process pending) (Rollout initial) (Booted initial process trial) := by
  obtain ⟨transition, current, awaits, where'⟩ := rollout.pending_cases live waiting
  rcases where' with source | ⟨target, backup, trying⟩
  · have untried : trial = false := by
      by_contra yes
      obtain ⟨other, found, same⟩ := tried.mp (Bool.not_eq_false _ ▸ yes)
      obtain rfl := Option.mem_unique found current
      exact awaits.distinct (source ▸ same)
    rw [untried]
    unfold resolveAttempt
    split
    · exact rollbackAndAbandon_source rollout live current awaits source
    · exact .pure (.untried rollout live)
  · rw [tried.mpr ⟨transition, current, target⟩]
    unfold resolveAttempt
    split
    · exact rollbackAndAbandon_target rollout live waiting current awaits target backup
        fun restorable => (trying restorable).capped
    · next within =>
      refine .pure ⟨⟨rollout, fun _ => .own live⟩, fun _ => ?_⟩
      refine rollout.countAttempt current (target ▸ live) backup waiting awaits fun restorable => ?_
      have counted := early transition current target restorable
      exact ⟨counted, Nat.le_trans counted (Nat.not_lt.mp within)⟩

theorem reconcileSelfUpdateEarly_keeps :
    Ensures host (reconcileSelfUpdateEarly process) (Rollout initial)
      (Booted initial process (host.onTrial process)) := by
  apply Ensures.loadState_bind
  split
  · next idle =>
    refine .pure ⟨⟨rollout, fun _ => .own live⟩, fun trial => ?_⟩
    rcases (rollout.onTrial_target live trial).2 with waiting | failed
    · exact absurd idle waiting
    · exact rollout.recount_unrestored failed _
  · next pending waiting =>
    have noted : Rollout initial (saved { host.state with
        pendingUpdate := some { pending with attempts := pending.attempts + 1 } } host) :=
      rollout.note waiting { pending with attempts := pending.attempts + 1 } rfl rfl (Nat.le_succ _) ⟨rfl, rfl, rfl⟩
    refine .bind ?_
    refine .write rollout noted ?_
    refine resolveAttempt_keeps noted live rfl (fun transition current target => ?_)
      (rollout.onTrial_iff live waiting)
    obtain ⟨other, found, awaits, where'⟩ := rollout.pending_cases live waiting
    obtain rfl := Option.mem_unique found current
    rcases where' with source | ⟨-, -, trying⟩
    · exact absurd (source.symm.trans target) awaits.distinct
    · exact fun restorable => Nat.lt_succ_of_le (trying restorable).counted

end

theorem reconcileSelfUpdatePromote_keeps {healthy : Bool} (serving : Serving initial process host) :
    Keeps host (reconcileSelfUpdatePromote process healthy) (Serving initial process) := by
  apply Ensures.loadState_bind
  split
  · exact .pure serving
  · next pending waiting =>
    split
    · exact .pure serving
    · have noted : Serving initial process (saved { host.state with
          pendingUpdate := some { pending with confirmed := true }
          health := "self-update to " ++ pending.target ++ " health-confirmed (probationary)" } host) := by
        refine ⟨serving.rollout.note waiting { pending with confirmed := true } rfl rfl (Nat.le_refl _) ⟨rfl, rfl, rfl⟩, ?_⟩
        obtain ⟨binary, live, own | restored | ⟨update, held, older⟩⟩ := serving.runs
        · exact ⟨binary, live, .inl own⟩
        · exact ⟨binary, live, .inr (.inl restored)⟩
        · obtain rfl := Option.mem_unique held waiting
          exact ⟨binary, live, .inr (.inr ⟨_, rfl, older⟩)⟩
      refine .require_bind (fun _ => serving) fun _ => ?_
      exact .write serving noted noted

theorem Serving.finalise (serving : Serving initial process host) (waiting : host.state.pendingUpdate = some pending)
    (same : sameVersion process.version pending.target = true) :
    Serving initial process (finalisedUpdate pending host.state host) := by
  obtain ⟨binary, live, place⟩ := serving.runs
  obtain ⟨transition, current, awaits, where'⟩ := serving.rollout.pending_cases live waiting
  have held : host.live = .complete transition.source ∨ host.live = .complete transition.target := by
    rcases where' with rfl | ⟨rfl, -⟩
    · exact .inl live
    · exact .inr live
  refine ⟨serving.rollout.finalise current awaits held, binary, live, ?_⟩
  rcases place with own | restored | ⟨update, found, older⟩
  · exact .inl own
  · exact .inr (.inl restored)
  · obtain rfl := Option.mem_unique found waiting
    exact nomatch (of_decide_eq_true same).symm.trans older

theorem finalizeSelfUpdate_keeps (serving : Serving initial process host) :
    Keeps host (finalizeSelfUpdate process) (Serving initial process) := by
  apply Ensures.loadState_bind
  split
  · exact .pure serving
  · next pending waiting =>
    split
    · exact .pure serving
    · next confirmed =>
      have same : sameVersion process.version pending.target = true := by
        simp only [Bool.or_eq_true, Bool.not_eq_true', not_or, Bool.not_eq_false] at confirmed
        exact confirmed.2
      have final := serving.finalise waiting same
      refine .bind ?_
      apply Ensures.attempt
      · exact serving
      · exact .pure serving
      · exact .pure final
      · exact .dropBackup final final ⟨final.rollout.setBackup (fun _ _ busy => absurd rfl busy) none, final.runs⟩

theorem sameUpdate_intentState {runtime : Runtime} {config : Config} {manifest : ManifestInfo} {bundle : Bundle}
    {epoch : Int} {action : Action} {now : Stamp} {intent : State}
    (computed : intentState runtime config prev manifest bundle epoch action now = .ok intent) :
    SameUpdate prev intent := by
  unfold intentState at computed
  cases pending : pendingApply runtime config manifest bundle epoch action now with
  | error reason =>
    rw [pending] at computed
    cases computed
  | ok record =>
    rw [pending] at computed
    simp only [bind, Except.bind] at computed
    split at computed
    · cases computed
      exact ⟨rfl, rfl, rfl⟩
    · cases computed
      exact ⟨rfl, rfl, rfl⟩

/-- A process that runs the program stays on the rollout, wherever a cut stops it. -/
abbrev Proceeds (initial process : Binary) (host : Host) (program : Program Ending) : Prop :=
  Ensures host program (Serving initial process) (Left initial process)

section

variable {runtime : Runtime} {input : RunInput} {catalog : Option AgentCatalog} {decision : UpdateDecision}

section

variable (kept : Kept initial process prev host) {nodeID : String} {state : State}

include kept

theorem Kept.reported (reports : List State) : Kept initial process prev { host with reports } :=
  { kept with rollout := kept.rollout.congr ⟨⟨rfl, rfl, rfl⟩, rfl, rfl, rfl, rfl, rfl, rfl, rfl, id⟩ }

theorem observe_performSelfUpdate {catalog : AgentCatalog} {release : Release}
    (armable : Armable prev process catalog.version)
    {next : Except AgentError Ending → Program Ending}
    (swapped : ∀ ending after, Left initial process ending after →
      Proceeds initial process after (next (.ok ending)))
    (failed : ∀ reason after, Kept initial process prev after →
      Proceeds initial process after (next (.error reason))) :
    Proceeds initial process host (do
      let result ← Durable.observe (performSelfUpdate nodeID process catalog release)
      next result) := by
  refine ensures_iff.mpr (.bind (Meets.observe ((performSelfUpdate_keeps kept armable).weaken ?_) ?_))
  · exact fun ending after left => ensures_iff.mp (swapped ending after left)
  · exact fun reason after kept => ensures_iff.mp (failed reason after kept)

omit kept in
theorem Left.required {ending : Ending} (left : Left initial process ending host) :
    Proceeds initial process host (do
      Durable.require (ending = .replaced) .reExec
      pure ending) := by
  refine .require_bind (fun stays => ⟨left.rollout, left.runs ?_⟩) fun _ => .pure left
  cases ending with
  | continues => rfl
  | replaced => exact absurd rfl stays

theorem Kept.failed (same : SameUpdate prev state) (config : Config) (now : Stamp)
    (reports : List State) : Serving initial process { saved (failureState config state now) host with reports } := by
  have recorded : Kept initial process prev (saved (failureState config state now) { host with reports }) :=
    (kept.reported reports).save ⟨same.floor, same.pending, same.abandoned⟩
  exact recorded.serving

theorem forcedUpdate_keeps
    (decided : decideSelfUpdate catalog process.version prev.agentVersionFloor prev.abandonedAgentVersion = decision) :
    Proceeds initial process host (forcedUpdate process input prev catalog decision) := by
  unfold forcedUpdate
  split
  · next catalog =>
    refine observe_performSelfUpdate kept (decideSelfUpdate_armable decided (.inl rfl)) ?_ ?_
    · exact fun ending after left => .bind (.pure left.required)
    · intro reason after kept
      refine .bind ?_
      exact .orRecord kept.serving (fun reports _ => kept.failed ⟨rfl, rfl, rfl⟩ input.config input.now reports) nofun
  · refine .bind ?_
    exact .recordFailure kept.serving (.fail kept.serving) fun reports _ =>
      Ensures.fail (kept.failed ⟨rfl, rfl, rfl⟩ input.config input.now reports)

theorem Kept.executed (config : Config) (candidate : Candidate) :
    Kept initial process prev (executed config candidate host) :=
  { kept with rollout := kept.rollout.congr ⟨⟨rfl, rfl, rfl⟩, rfl, rfl, rfl, rfl, rfl, rfl, rfl, id⟩ }

omit kept in
theorem Serving.resave (serving : Serving initial process host) (same : SameUpdate host.state state) :
    Serving initial process (saved state host) :=
  ⟨serving.rollout.saved same, (same.pending ▸ serving.runs : Runs process host state.pendingUpdate)⟩

omit kept in
theorem recordSelfUpdateBlocked_keeps {reason : AgentError} (serving : Serving initial process host) :
    Keeps host (recordSelfUpdateBlocked nodeID reason) (Serving initial process) := by
  apply Ensures.loadState_bind
  split
  · exact .pure serving
  · exact .tryWrite serving serving (serving.resave ⟨rfl, rfl, rfl⟩)

theorem deferredUpdate_keeps
    (decided : decideSelfUpdate catalog process.version prev.agentVersionFloor prev.abandonedAgentVersion = decision) :
    Proceeds initial process host (deferredUpdate process input catalog decision) := by
  have blocked {after : Host} (serving : Serving initial process after) (reason : AgentError) :
      Proceeds initial process after (do
        recordSelfUpdateBlocked input.config.nodeID reason
        pure .continues) :=
    Ensures.bind ((recordSelfUpdateBlocked_keeps serving).weaken fun _ _ serving => .pure serving.left)
  unfold deferredUpdate
  split
  · refine observe_performSelfUpdate kept (decideSelfUpdate_armable decided (.inr rfl)) ?_ ?_
    · intro ending after left
      cases ending with
      | replaced => exact .pure left
      | continues => exact blocked ⟨left.rollout, left.runs rfl⟩ .reExec
    · exact fun reason after kept => blocked kept.serving reason
  · exact .pure kept.serving.left

end

theorem run_keeps (serving : Serving initial process host) :
    Proceeds initial process host (run runtime process input) := by
  have kept := serving.kept
  apply ensures_iff.mpr
  refine Meets.run (fun _ held => held)
    (@fun prev after (here : Kept initial process host.state after ∧ SameUpdate host.state prev) => here.1.serving) ?_
    ⟨kept, rfl, rfl, rfl⟩ fun candidate _ _ _ catalog => ⟨ensures_iff.mp (forcedUpdate_keeps kept rfl), ?_⟩
  · exact fun ⟨kept, same⟩ _ => kept.failed same input.config input.now _
  · intro intent computed
    have same := sameUpdate_intentState computed
    have noted : Kept initial process host.state (saved intent host) := kept.save same
    have started := noted.executed input.config candidate
    refine ⟨⟨noted, rfl, rfl, rfl⟩, fun _ => ⟨started, same⟩, fun _ => ⟨started.serving, fun policy => ?_⟩⟩
    have done : Kept initial process host.state (committed input candidate host intent policy) :=
      started.save ⟨same.floor, same.pending, same.abandoned⟩
    exact ⟨done.serving, ensures_iff.mp (deferredUpdate_keeps (done.reported _) rfl)⟩

theorem retrySwap_keeps (kept : Kept initial process prev host)
    (decided : decideSelfUpdate catalog process.version prev.agentVersionFloor prev.abandonedAgentVersion = decision) :
    Proceeds initial process host (retrySwap process input catalog decision) := by
  have swap {catalog : AgentCatalog} (armable : Armable prev process catalog.version) :
      Proceeds initial process host (do
        let result ← Durable.observe (performSelfUpdate input.config.nodeID process catalog input.release)
        settleRetry input.config.nodeID result) := by
    refine observe_performSelfUpdate kept armable (fun _ _ left => left.required) fun reason after kept => ?_
    refine .bind ?_
    exact (recordSelfUpdateBlocked_keeps kept.serving).weaken fun _ _ serving => .fail serving
  unfold retrySwap
  split
  · exact swap (decideSelfUpdate_armable decided (.inr rfl))
  · exact swap (decideSelfUpdate_armable decided (.inl rfl))
  · have serving := kept.serving
    refine .bind ?_
    apply Ensures.loadState_bind
    split
    · have cleared : Serving initial process (saved { host.state with selfUpdateBlocked := false } host) :=
        serving.resave ⟨rfl, rfl, rfl⟩
      exact .tryWrite serving (.pure serving.left) (.pure cleared.left)
    · exact .pure (.pure serving.left)

theorem retryDeferredSelfUpdate_keeps (serving : Serving initial process host) :
    Proceeds initial process host (retryDeferredSelfUpdate runtime process input) := by
  apply Ensures.loadState_bind
  split
  · exact .pure serving.left
  · exact .lift_bind (fun _ _ => serving) fun bundle _ => retrySwap_keeps serving.kept rfl

end

end Yaog.Agent
