import Yaog.Agent.SelfUpdate

/-!
# A run of the agent

Fetch, verify, check against the floors, write the intent, execute `install.sh`, commit.
-/

namespace Yaog.Agent

open Data Controller

/-- What a run is given: the fetched bundle, whether staging and `install.sh` succeed, the clock, and what
a self-update would find. -/
structure RunInput where
  config : Config
  fetched : Option Bundle
  staged : Bool := true
  installed : Bool := true
  now : Stamp
  release : Release

/-- A bundle that passed every gate before the intent. -/
structure Candidate where
  bundle : Bundle
  manifest : ManifestInfo
  signed : Bool
  policy : Bytes
  epoch : Int
  deriving DecidableEq

def Config.action (config : Config) : Action := if config.installArgs.length = 1 then .uninstall else .apply

def validInstallArgs (args : List String) : Bool := args = [] || args = ["--uninstall"]

section

variable (runtime : Runtime) (process : Binary) (input : RunInput)

/-- `candidateTelemetryPolicy`. -/
def candidateTelemetryPolicy (bundle : Bundle) (operatorCredentialConfigured : Bool) : Except AgentError Bytes :=
  match bundle.get? policyFile, bundle.get? successorPolicyFile with
  | none, none => .ok []
  | some _, some _ => .error .policy
  | some policy, none => canonical policy false
  | none, some policy => canonical policy true
where
  canonical (policy : Bytes) (successor : Bool) : Except AgentError Bytes :=
    if !operatorCredentialConfigured then .error .policyUncredentialed
    else
      match runtime.canonicalPolicy successor policy with
      | none => .error .policy
      | some bytes => .ok bytes

def verified {α : Type} (result : Except VerifyError α) : Except AgentError α := result.mapError .verify

def manifestData (bundle : Bundle) : Except AgentError Bytes :=
  match bundle.get? manifestFile with
  | none => .error .missingManifest
  | some data => .ok data

/-- The gates of `run` from the fetched bundle on; every refusal is recorded as a failure. -/
def admission (config : Config) (prev : State) (fetched : Option Bundle) : Except AgentError Candidate :=
  match fetched with
  | none => .error .fetch
  | some bundle => do
      let _ ← verified (validateBundlePaths runtime.toPlatform bundle)
      let data ← manifestData bundle
      let manifest ← parseManifest runtime data
      refuse (manifest.nodeID ≠ "" ∧ manifest.nodeID ≠ config.nodeID) .manifestNode
      let result ← verified (verifyBundle runtime.toPlatform bundle config.pinnedPubPEM)
      let policy ← candidateTelemetryPolicy runtime bundle (config.operatorCredPEM ≠ [])
      let epoch ← verified (verifyMembership runtime.toPlatform bundle config.membership prev.membershipFloor)
      checkRollback (effectiveRollbackState prev) manifest.compiledAt
      validateCandidateAgainstPending runtime prev manifest bundle config.action
      .ok { bundle, manifest, signed := result.signed, policy, epoch }

/-- `parseAgentCatalog`. -/
def parseAgentCatalog (bundle : Bundle) : Option AgentCatalog :=
  match bundle.get? artifactsFile with
  | none => none
  | some raw =>
    match runtime.decodeCatalog raw with
    | none => none
    | some catalog => if trimSpace catalog.version = "" then none else some catalog

def reportIf (reported : Bool) (state : State) (host : Host) : Host :=
  if reported then { host with reports := host.reports ++ [state] } else host

/-- `persistAndReport`: whether the state was saved. -/
def persistAndReport (state : State) : Program Bool := do
  let reported ← Durable.attempt (saved state)
  Durable.advance (reportIf reported state)
  pure reported

/-- `recordFailure`, made on a best-effort basis. -/
def recordFailure (config : Config) (prev : State) (now : Stamp) : Program Unit := do
  let _ ← persistAndReport (failureState config prev now)
  pure ()

def orRecord {α : Type} (config : Config) (prev : State) (now : Stamp) (result : Except AgentError α) : Program α :=
  match result with
  | .ok value => pure value
  | .error reason => do
      recordFailure config prev now
      Durable.fail reason

def forcedUpdate (prev : State) (catalog : Option AgentCatalog) (decision : UpdateDecision) : Program Ending :=
  match catalog, decision with
  | some catalog, .forced => do
      let result ← Durable.observe (performSelfUpdate input.config.nodeID process catalog input.release)
      let ending ← orRecord input.config prev input.now result
      Durable.require (ending = .replaced) .reExec
      pure ending
  | _, _ => do
      recordFailure input.config prev input.now
      Durable.fail .belowMinVersion

/-- `install.sh` starts: from here on the host may have been changed. -/
def executed (config : Config) (candidate : Candidate) (host : Host) : Host :=
  { host with
    executions := host.executions ++ [{
      bundle := candidate.bundle
      compiledAt := candidate.manifest.compiledAt
      epoch := candidate.epoch
      verified := config.operatorCredPEM ≠ []
      state := host.state }] }

/-- `apply` and the record of its result. -/
def applyCandidate (input : RunInput) (candidate : Candidate) (intent : State) : Program Unit := do
  Durable.advance (executed input.config candidate)
  let _ ← orRecord input.config intent input.now (if input.installed then .ok () else .error AgentError.install)
  let policy := if input.config.action = .uninstall then [] else candidate.policy
  let durable ← persistAndReport (successState input.config intent candidate.manifest candidate.signed candidate.epoch
    input.config.action policy input.now)
  Durable.require (durable = true) .commit

def recordSelfUpdateBlocked (nodeID : String) (reason : AgentError) : Program Unit := do
  let state ← loadState
  if reason = .inFlight then pure ()
  else Durable.tryWrite (saved { state with nodeID, selfUpdateBlocked := true })

def settleDeferred (nodeID : String) : Except AgentError Ending → Program Ending
  | .ok .replaced => pure .replaced
  | .ok .continues => do
      recordSelfUpdateBlocked nodeID .reExec
      pure .continues
  | .error reason => do
      recordSelfUpdateBlocked nodeID reason
      pure .continues

def deferredUpdate (catalog : Option AgentCatalog) (decision : UpdateDecision) : Program Ending :=
  match catalog, decision with
  | some catalog, .afterApply => do
      let result ← Durable.observe (performSelfUpdate input.config.nodeID process catalog input.release)
      settleDeferred input.config.nodeID result
  | _, _ => pure .continues

def applyAdmitted (prev : State) (candidate : Candidate) (catalog : Option AgentCatalog) (decision : UpdateDecision) :
    Program Ending := do
  let _ ← orRecord input.config prev input.now (if input.staged then .ok () else .error AgentError.stage)
  let intent ← orRecord input.config prev input.now
    (intentState runtime input.config prev candidate.manifest candidate.bundle candidate.epoch
      input.config.action input.now)
  let persisted ← Durable.attempt (saved intent)
  let _ ← orRecord input.config prev input.now
    (if persisted then .ok () else .error AgentError.persistIntent)
  applyCandidate input candidate intent
  deferredUpdate process input catalog decision

def run : Program Ending := do
  Durable.require (trimSpace input.config.nodeID ≠ "") .emptyNodeID
  Durable.require (validInstallArgs input.config.installArgs = true) .installArgs
  let prev ← loadState
  Durable.require (prev.nodeID = "" ∨ prev.nodeID = input.config.nodeID) .wrongNode
  Durable.lift (validatePendingApply runtime input.config prev)
  Durable.require (¬((prev.membershipVerified ∨ 0 < prev.membershipEpoch) ∧ input.config.operatorCredPEM = []))
    .trustDowngrade
  let candidate ← orRecord input.config prev input.now (admission runtime input.config prev input.fetched)
  let catalog := if input.config.selfUpdate then parseAgentCatalog runtime candidate.bundle else none
  let decision := decideSelfUpdate catalog process.version prev.agentVersionFloor prev.abandonedAgentVersion
  if isForced catalog process.version then forcedUpdate process input prev catalog decision
  else applyAdmitted runtime process input prev candidate catalog decision

def clearBlocked : Program Unit := do
  let state ← loadState
  if state.selfUpdateBlocked then Durable.tryWrite (saved { state with selfUpdateBlocked := false }) else pure ()

def settleRetry (nodeID : String) : Except AgentError Ending → Program Ending
  | .ok ending => do
      Durable.require (ending = .replaced) .reExec
      pure ending
  | .error reason => do
      recordSelfUpdateBlocked nodeID reason
      Durable.fail reason

def retrySwap (catalog : Option AgentCatalog) (decision : UpdateDecision) : Program Ending :=
  match catalog, decision with
  | some catalog, .afterApply | some catalog, .forced => do
      let result ← Durable.observe (performSelfUpdate input.config.nodeID process catalog input.release)
      settleRetry input.config.nodeID result
  | _, _ => do
      clearBlocked
      pure .continues

def verifiedFetch (config : Config) (state : State) (fetched : Option Bundle) : Except AgentError Bundle :=
  match fetched with
  | none => .error .fetch
  | some bundle => do
      let _ ← verified (verifyBundle runtime.toPlatform bundle config.pinnedPubPEM)
      let _ ← verified (verifyMembership runtime.toPlatform bundle config.membership state.membershipFloor)
      .ok bundle

/-- `RetryDeferredSelfUpdate`. -/
def retryDeferredSelfUpdate : Program Ending := do
  let state ← loadState
  if !state.selfUpdateBlocked || state.pendingUpdate.isSome || state.pendingApply.isSome then pure .continues
  else do
    let bundle ← Durable.lift (verifiedFetch runtime input.config state input.fetched)
    let catalog := parseAgentCatalog runtime bundle
    let decision := decideSelfUpdate catalog process.version state.agentVersionFloor state.abandonedAgentVersion
    retrySwap process input catalog decision

/-- A node with its running agent, if one runs. -/
structure System where
  host : Host
  process : Option Binary := none

inductive Event where
  | boot (plan : List Fault)
  | run (input : RunInput) (plan : List Fault)
  | retry (input : RunInput) (plan : List Fault)
  | promote (healthy : Bool) (plan : List Fault)
  | finalise (plan : List Fault)
  | stop

def Host.onTrial (host : Host) (binary : Binary) : Bool :=
  match host.transition, host.marks.head? with
  | some _, some (.finalised _) => false
  | some transition, _ => binary = transition.target
  | none, _ => false

def countBoot (trial : Bool) (host : Host) : Host := if trial then { host with boots := host.boots + 1 } else host

def countCompleted (trial : Bool) (ended : Ended Host AgentError Ending) : Host :=
  match ended.outcome with
  | .done _ => if trial then { ended.state with completedBoots := ended.state.completedBoots + 1 } else ended.state
  | _ => ended.state

def goesOn : Outcome AgentError Ending → Bool
  | .done .continues | .failed _ => true
  | .done .replaced | .halted => false

def System.step (system : System) : Event → System
  | .boot plan =>
    match system.host.live with
    | .torn => { system with process := none }
    | .complete binary =>
      let trial := system.host.onTrial binary
      let ended := reconcileSelfUpdateEarly binary (countBoot trial system.host) plan
      { host := countCompleted trial ended
        process := if ended.outcome = .done .continues then some binary else none }
  | .run input plan =>
    match system.process with
    | none => system
    | some process =>
      let ended := run runtime process input system.host plan
      { host := ended.state, process := if goesOn ended.outcome then some process else none }
  | .retry input plan =>
    match system.process with
    | none => system
    | some process =>
      let ended := retryDeferredSelfUpdate runtime process input system.host plan
      { host := ended.state, process := if goesOn ended.outcome then some process else none }
  | .promote healthy plan =>
    match system.process with
    | none => system
    | some process =>
      let ended := reconcileSelfUpdatePromote process healthy system.host plan
      { host := ended.state, process := if ended.outcome = .done () then some process else none }
  | .finalise plan =>
    match system.process with
    | none => system
    | some process =>
      let ended := finalizeSelfUpdate process system.host plan
      { host := ended.state, process := if ended.outcome = .halted then none else some process }
  | .stop => { system with process := none }

def System.start (binary : Binary) : System := { host := { live := .complete binary } }

def System.after (system : System) (events : List Event) : System := events.foldl (System.step runtime) system

end

end Yaog.Agent
