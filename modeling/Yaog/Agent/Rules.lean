import Yaog.Agent.Run

/-!
# Rules for the programs of the agent
-/

def Yaog.Agent.Unapplied (before reports : List Yaog.Agent.State) : Prop :=
  reports = before ∨ ∃ payload, reports = before ++ [payload] ∧ payload.lastResult ≠ .ok

namespace Yaog.Data.Durable.Ensures

open Agent

variable {host : Host} {stops : Host → Prop} {α : Type} {ends : Unit → Host → Prop}

theorem loadState {ends : State → Host → Prop} (holds : ends host.state host) :
    Ensures host loadState stops ends :=
  Ensures.bind (Ensures.read (.pure holds))

theorem loadState_bind {next : State → Program α} {ends : α → Host → Prop}
    (holds : Ensures host (next host.state) stops ends) : Ensures host (Agent.loadState >>= next) stops ends :=
  .bind (.loadState holds)

theorem dropBackup (before : stops host) (kept : ends () host)
    (dropped : ends () { host with backup := none }) : Ensures host dropBackup stops ends :=
  Ensures.tryWrite before kept dropped

theorem orCleanUp {reported : Bool} {cleanUp : Program Unit} {reason : AgentError}
    (passed : reported = true → ends () host) (cleaned : reported = false → Ensures host cleanUp stops fun _ => stops) :
    Ensures host (orCleanUp reported cleanUp reason) stops ends := by
  unfold Agent.orCleanUp
  split
  · next yes => exact .pure (passed yes)
  · next no =>
    exact .bind ((cleaned (Bool.eq_false_iff.mpr no)).weaken fun _ _ held => .fail held)

variable {config : Config} {prev : State} {now : Stamp}

theorem persistAndReport {state : State} {ends : Bool → Host → Prop} (before : stops host) (skipped : ends false host)
    (unreported : ends false (saved state host))
    (reported : ends true { saved state host with reports := host.reports ++ [state] }) :
    Ensures host (persistAndReport state) stops ends := by
  refine .bind ?_
  apply Ensures.attempt before
  · exact .bind (.advance (.pure skipped))
  · exact .bind (.advance (.pure unreported))
  · exact .bind (.advance (.pure reported))

theorem recordFailure (before : stops host) (skipped : ends () host)
    (recorded : ∀ reports, Unapplied host.reports reports →
      ends () { saved (failureState config prev now) host with reports }) :
    Ensures host (recordFailure config prev now) stops ends := by
  refine .bind ?_
  apply Ensures.persistAndReport before (.pure skipped)
  · exact .pure (recorded host.reports (.inl rfl))
  · exact .pure (recorded _ (.inr ⟨_, rfl, nofun⟩))

theorem orRecord {result : Except AgentError α} {ends : α → Host → Prop} (before : stops host)
    (recorded : ∀ reports, Unapplied host.reports reports →
      stops { saved (failureState config prev now) host with reports })
    (passed : ∀ value, result = .ok value → ends value host) :
    Ensures host (orRecord config prev now result) stops ends := by
  cases result with
  | ok value => exact .pure (passed value rfl)
  | error reason =>
    refine .bind ?_
    exact .recordFailure before (.fail before) fun reports sent => .fail (recorded reports sent)

end Yaog.Data.Durable.Ensures

namespace Yaog.Agent

open Data Durable

/-- The host once the success of a candidate is saved. -/
def committed (input : RunInput) (candidate : Candidate) (host : Host) (intent : State) (policy : Bytes) : Host :=
  saved (successState input.config intent candidate.manifest candidate.signed candidate.epoch input.config.action policy
    input.now) (executed input.config candidate (saved intent host))

/-- What a run comes past once its gates are open; at `stage prev` a failure is recorded over `prev`. -/
structure Passage (runtime : Runtime) (process : Binary) (input : RunInput) (host : Host) (stage : State → Host → Prop)
    (halts fails : Host → Prop) (ends : Ending → Host → Prop) (candidate : Candidate) (catalog : Option AgentCatalog)
    (decision : UpdateDecision) : Prop where
  forced : Meets host (forcedUpdate process input host.state catalog decision) halts fails ends
  applied : ∀ intent, intentState runtime input.config host.state candidate.manifest candidate.bundle candidate.epoch
    input.config.action input.now = .ok intent →
      let started := executed input.config candidate (saved intent host)
      stage host.state (saved intent host) ∧ (input.installed = false → stage intent started) ∧
      (input.installed = true → fails started ∧
        ∀ policy, let after := committed input candidate host intent policy
          fails after ∧ Meets { after with reports := after.reports ++ [after.state] }
            (deferredUpdate process input catalog decision) halts fails ends)

variable {runtime : Runtime} {process : Binary} {input : RunInput} {host : Host} {stage : State → Host → Prop}
  {halts fails : Host → Prop} {ends : Ending → Host → Prop}

theorem Meets.reExec (before : halts host) (replaced : ends .replaced host) (continues : ends .continues host) :
    Meets host reExec halts fails ends := by
  intro plan
  cases plan with
  | nil => exact replaced
  | cons fault rest =>
    cases fault with
    | applied | unreported => exact replaced
    | refused => exact continues
    | halted => exact before

theorem Meets.loadState_bind {α : Type} {next : State → Program α} {ends : α → Host → Prop}
    (holds : Meets host (next host.state) halts fails ends) : Meets host (loadState >>= next) halts fails ends :=
  holds

section

variable (weaker : ∀ after, fails after → halts after) (stays : ∀ {prev after}, stage prev after → fails after)
  (refused : ∀ {prev after reports}, stage prev after → Unapplied after.reports reports →
    fails { saved (failureState input.config prev input.now) after with reports })

include weaker stays refused

attribute [local irreducible] Ensures Meets

theorem Meets.orRecord_bind {α : Type} {prev : State} {result : Except AgentError α} {next : α → Program Ending}
    (here : stage prev host) (passed : ∀ value, result = .ok value → Meets host (next value) halts fails ends) :
    Meets host (orRecord input.config prev input.now result >>= next) halts fails ends := by
  refine .bind ?_
  refine (Ensures.orRecord (stays here) (fun _ sent => refused here sent) passed).meets weaker fun _ failed => failed

theorem Meets.applyAdmitted {candidate : Candidate} {catalog : Option AgentCatalog} {decision : UpdateDecision}
    (begins : stage host.state host)
    (passage : Passage runtime process input host stage halts fails ends candidate catalog decision) :
    Meets host (applyAdmitted runtime process input host.state candidate catalog decision) halts fails ends := by
  refine Meets.orRecord_bind weaker stays refused begins fun _ _ => ?_
  refine Meets.orRecord_bind weaker stays refused begins fun intent computed => ?_
  obtain ⟨noted, failed, installed⟩ := passage.applied intent computed
  refine .bind ?_
  refine Ensures.meets ?_ weaker fun _ failed => failed
  apply Ensures.attempt (stays begins)
  · exact Meets.orRecord_bind weaker stays refused begins nofun
  · exact Meets.orRecord_bind weaker stays refused noted nofun
  · refine Meets.orRecord_bind weaker stays refused noted fun _ _ => ?_
    refine .bind ?_
    refine Ensures.meets ?_ weaker fun _ failed => failed
    apply Ensures.bind
    apply Ensures.advance
    refine .bind ?_
    cases script : input.installed with
    | false => exact .orRecord (stays (failed script)) (fun _ sent => refused (failed script) sent) nofun
    | true =>
      obtain ⟨started, committed⟩ := installed script
      refine .pure ?_
      refine .bind ?_
      apply Ensures.persistAndReport started
      · exact .require (fun _ => started) nofun
      · exact .require (fun _ => (committed _).1) nofun
      · exact .require (fun unsaved => absurd rfl unsaved) fun _ => (committed _).2

/-- A property that every point of a run keeps is kept by the run. -/
theorem Meets.run (begins : stage host.state host)
    (admitted : ∀ candidate, validatePendingApply runtime input.config host.state = .ok () →
      ¬((host.state.membershipVerified ∨ 0 < host.state.membershipEpoch) ∧ input.config.operatorCredPEM = []) →
      admission runtime input.config host.state input.fetched = .ok candidate →
      ∀ catalog, Passage runtime process input host stage halts fails ends candidate catalog
        (decideSelfUpdate catalog process.version host.state.agentVersionFloor host.state.abandonedAgentVersion)) :
    Meets host (run runtime process input) halts fails ends := by
  have quiet := stays begins
  have gate {α : Type} {program : Program α} {told : α → Host → Prop} (holds : Ensures host program fails told) :
      Meets host program halts fails told := holds.meets weaker fun _ failed => failed
  refine .bind ?_
  refine gate (Ensures.require (fun _ => quiet) fun _ => ?_)
  refine .bind ?_
  refine gate (Ensures.require (fun _ => quiet) fun _ => ?_)
  apply Meets.loadState_bind
  refine .bind ?_
  refine gate (Ensures.require (fun _ => quiet) fun _ => ?_)
  refine .bind ?_
  refine gate (.lift (fun _ _ => quiet) fun _ custody => ?_)
  refine .bind ?_
  refine gate (Ensures.require (fun _ => quiet) fun sticky => ?_)
  refine Meets.orRecord_bind weaker stays refused begins fun candidate accepted => ?_
  generalize (if input.config.selfUpdate then parseAgentCatalog runtime candidate.bundle else none) = catalog
  have passage := admitted candidate custody sticky accepted catalog
  dsimp only
  split
  · exact passage.forced
  · exact Meets.applyAdmitted weaker stays refused begins passage

end

end Yaog.Agent
