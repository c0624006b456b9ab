import Yaog.Agent.State
import Yaog.Agent.Version
import Yaog.Data.Durable

/-!
# Signed self-updates

The agent replaces its own binary: it backs up the running one, renames the new one over it and starts it.
-/

namespace Yaog.Agent

open Data Controller

/-- An agent binary: the version it reports and the hex digest of its bytes. -/
structure Binary where
  version : String
  sha256 : Bytes
  deriving DecidableEq, Repr

/-- What a file holds: a whole binary, or a part of one. -/
inductive Image where
  | complete (binary : Binary)
  | torn
  deriving DecidableEq, Repr

def Image.getD : Image → Binary → Binary
  | .complete binary, _ => binary
  | .torn, other => other

/-- An update, from the binary that is live when it is armed; the process that arms it runs another one only if
it could not be replaced before. -/
structure Transition where
  source : Binary
  target : Binary
  running : Binary

/-- The points of an update that the history records. -/
inductive Mark where
  | armed (version : String)
  | finalised (version : String)
  | abandoned (version : String)
  deriving DecidableEq, Repr

/-- One execution of `install.sh`, with the durable state at that time. -/
structure Execution where
  bundle : Bundle
  compiledAt : String
  epoch : Int
  /-- The membership of the bundle was verified. -/
  verified : Bool
  state : State

/-- The files of a node that the agent owns. The fields below the backup are a history: nothing reads
them. -/
structure Host where
  state : State := {}
  live : Image
  backup : Option Image := none
  transition : Option Transition := none
  /-- The newest one first. -/
  marks : List Mark := []
  /-- The boots of the current target, and those of them whose early reconciliation was not cut. -/
  boots : Nat := 0
  completedBoots : Nat := 0
  /-- The current update was rolled back, and the rename of a rollback has failed. -/
  restored : Bool := false
  restoreFailed : Bool := false
  /-- Some process went on over a binary that it had restored, since it could not start it. -/
  stranded : Bool := false
  executions : List Execution := []
  /-- The states that were reported, the newest one last. -/
  reports : List State := []

abbrev Program := Durable Host AgentError

def loadState : Program State := do
  let host ← Durable.read
  pure host.state

def saved (state : State) (host : Host) : Host := { host with state }

/-- How a program of the agent leaves its process. -/
inductive Ending where
  | continues | replaced
  deriving DecidableEq, Repr

inductive UpdateDecision where
  | skip | refuse | forced | afterApply

def isForced (catalog : Option AgentCatalog) (running : String) : Bool :=
  match catalog with
  | none => false
  | some catalog => trimSpace catalog.minVersion ≠ "" && compareVersions running catalog.minVersion = .lt

def decideSelfUpdate (catalog : Option AgentCatalog) (running floor abandoned : String) : UpdateDecision :=
  match catalog with
  | none => .skip
  | some catalog =>
    let desired := catalog.version
    let forced := isForced (some catalog) running
    if trimSpace desired = "" then .skip
    else if compareVersions desired running = .eq ∧ forced = false then .skip
    else if abandoned ≠ "" ∧ compareVersions desired abandoned = .eq then .refuse
    else if compareVersions desired running = .lt then .refuse
    else if floor ≠ "" ∧ compareVersions desired floor = .lt then .refuse
    else if forced then
      if compareVersions desired catalog.minVersion = .lt then .refuse else .forced
    else .afterApply

/-- What the machine and the network give to a self-update: the architecture, the download, and whether
the new binary runs. -/
structure Release where
  arch : String
  download : Option Binary
  runs : Bool := true

def fetchBinary (catalog : AgentCatalog) (release : Release) : Except AgentError Binary :=
  match catalog.bins.lookup ("linux-" ++ release.arch) with
  | none => .error .noPin
  | some pin =>
    if pin.asset = "" ∨ pin.sha256 = [] then .error .noPin
    else
      match release.download with
      | none => .error .download
      | some binary =>
        if ¬equalFold binary.sha256 pin.sha256 then .error .hashMismatch
        else if ¬release.runs ∨ compareVersions binary.version catalog.version ≠ .eq then
          .error .selfTest
        else .ok binary

def orCleanUp (reported : Bool) (cleanUp : Program Unit) (reason : AgentError) : Program Unit :=
  if reported then pure ()
  else do
    cleanUp
    Durable.fail reason

def dropBackup : Program Unit := Durable.tryWrite fun host => { host with backup := none }

/-- `copyFile(self, bak)`: the backup is truncated before it is written. -/
def copyFile : Program Unit := do
  let opened ← Durable.attempt fun host => { host with backup := some .torn }
  orCleanUp opened (pure ()) .backUp
  let copied ← Durable.attempt fun host => { host with backup := some host.live }
  orCleanUp copied dropBackup .backUp

/-- `renameOrCopy(partial, self)`. -/
def renameOrCopy (binary : Binary) : Program Unit := do
  let renamed ← Durable.attemptExact fun host => { host with live := .complete binary }
  orCleanUp renamed dropBackup .installBinary

def armed (nodeID : String) (process binary : Binary) (target : String) (state : State) (host : Host) : Host :=
  { host with
    state := { state with
      nodeID
      pendingUpdate := some { source := process.version, target, attempts := 0 } }
    transition := some { source := host.live.getD process, target := binary, running := process }
    marks := .armed target :: host.marks
    boots := 0
    completedBoots := 0
    restored := false
    restoreFailed := false }

/-- `performSelfUpdate` up to the rename. -/
def swapBinary (nodeID : String) (process : Binary) (catalog : AgentCatalog) (release : Release) : Program Unit := do
  Durable.require (release.arch = "amd64" ∨ release.arch = "arm64") .arch
  let state ← loadState
  Durable.require (state.pendingUpdate = none) .inFlight
  let binary ← Durable.lift (fetchBinary catalog release)
  let state ← loadState
  Durable.require (state.pendingUpdate = none) .inFlight
  Durable.write (armed nodeID process binary catalog.version state) .breadcrumb
  copyFile
  renameOrCopy binary

/-- `execFn`: the process is replaced by the live binary, or goes on if that fails. -/
def reExec : Program Ending := do
  let started ← Durable.attemptExact id
  pure (if started then .replaced else .continues)

/-- `performSelfUpdate`. An error is one before the swap; after it the process has been replaced, or goes on with the
new binary in place. -/
def performSelfUpdate (nodeID : String) (process : Binary) (catalog : AgentCatalog) (release : Release) :
    Program Ending := do
  swapBinary nodeID process catalog release
  reExec

def maxSelfUpdateAttempts : Nat := 3

def abandonedUpdate (pending : PendingUpdate) (state : State) (host : Host) : Host :=
  { host with
    state := { state with
      pendingUpdate := none
      abandonedAgentVersion := pending.target
      abandonedReason := "the update repeatedly failed to apply and hit the retry cap"
      health := "self-update to " ++ pending.target ++ " abandoned: attempt cap 3 exceeded" }
    marks := .abandoned pending.target :: host.marks }

def restoreBackup : Program Bool :=
  Durable.attemptExact fun host => { host with live := host.backup.getD host.live, backup := none }

def noteRestore (renamed : Bool) (host : Host) : Host :=
  if renamed then { host with restored := true } else { host with restoreFailed := true }

/-- The first half of `rollbackAndAbandon`: whether the old binary was restored. -/
def rollback (process : Binary) (pending : PendingUpdate) : Program Bool := do
  let host ← Durable.read
  if sameVersion process.version pending.target && host.backup.isSome then do
    let renamed ← restoreBackup
    Durable.advance (noteRestore renamed)
    pure renamed
  else pure false

def noteStranded (ending : Ending) (host : Host) : Host :=
  { host with stranded := host.stranded || ending = .continues }

def afterAbandon (reported rolledBack : Bool) : Program Ending :=
  if rolledBack then do
    let ending ← reExec
    Durable.advance (noteStranded ending)
    pure ending
  else if reported then do
    dropBackup
    pure .continues
  else pure .continues

def rollbackAndAbandon (process : Binary) (pending : PendingUpdate) : Program Ending := do
  let rolledBack ← rollback process pending
  let state ← loadState
  let reported ← Durable.attempt (abandonedUpdate pending state)
  afterAbandon reported rolledBack

def resolveAttempt (process : Binary) (pending : PendingUpdate) : Program Ending :=
  if maxSelfUpdateAttempts < pending.attempts then rollbackAndAbandon process pending else pure .continues

/-- `reconcileSelfUpdateEarlyLocked`, the first thing a process does. -/
def reconcileSelfUpdateEarly (process : Binary) : Program Ending := do
  let state ← loadState
  match state.pendingUpdate with
  | none => pure .continues
  | some pending =>
    let pending := { pending with attempts := pending.attempts + 1 }
    Durable.write (saved { state with pendingUpdate := some pending }) .reconcile
    resolveAttempt process pending

def confirmUpdate (pending : PendingUpdate) (state : State) (healthy : Bool) : Program Unit := do
  Durable.require (healthy = true) .healthGate
  Durable.write (saved { state with
    pendingUpdate := some { pending with confirmed := true }
    health := "self-update to " ++ pending.target ++ " health-confirmed (probationary)" }) .reconcile

/-- `ReconcileSelfUpdatePromote`. -/
def reconcileSelfUpdatePromote (process : Binary) (healthy : Bool) : Program Unit := do
  let state ← loadState
  match state.pendingUpdate with
  | none => pure ()
  | some pending =>
    if !sameVersion process.version pending.target || pending.confirmed then pure ()
    else confirmUpdate pending state healthy

def finalisedUpdate (pending : PendingUpdate) (state : State) (host : Host) : Host :=
  { host with
    state := { state with
      pendingUpdate := none
      agentVersionFloor := pending.target
      abandonedAgentVersion := ""
      abandonedReason := ""
      selfUpdateBlocked := false
      health := "self-updated to " ++ pending.target }
    marks := .finalised pending.target :: host.marks }

/-- The end of `FinalizeSelfUpdate`: the backup goes once the state is saved. -/
def dropBackupIf (reported : Bool) : Program Unit := if reported then dropBackup else pure ()

/-- `FinalizeSelfUpdate`. -/
def finalizeSelfUpdate (process : Binary) : Program Unit := do
  let state ← loadState
  match state.pendingUpdate with
  | none => pure ()
  | some pending =>
    if !pending.confirmed || !sameVersion process.version pending.target then pure ()
    else do
      let reported ← Durable.attempt (finalisedUpdate pending state)
      dropBackupIf reported

end Yaog.Agent
