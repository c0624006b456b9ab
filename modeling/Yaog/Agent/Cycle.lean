import Yaog.Agent.Run

/-!
# Controller cycles

The daemon of a node asks the controller for a new generation, fetches its bundle, and rotates its key, idles or applies
the bundle.
-/

namespace Yaog.Agent

open Data Controller

/-- The envelope of `/config`. Its files are missing if one of them does not decode. -/
structure ConfigResponse where
  generation : Int
  files : Option Bundle
  rekeyRequested : Bool := false

structure ControllerClient where
  lastFetchedGen : Int := 0
  lastRekeyRequested : Bool := false
  priorGen : Int := 0

namespace ControllerClient

/-- `Fetch`: what the envelope says is kept also when its files are refused. -/
def fetch (client : ControllerClient) : Option ConfigResponse → ControllerClient × Option Bundle
  | none => (client, none)
  | some response =>
    ({ client with lastFetchedGen := response.generation, lastRekeyRequested := response.rekeyRequested },
      response.files)

/-- The `applied_generation` that `Report` sends with a state. -/
def reportGeneration (client : ControllerClient) (payload : State) : Int :=
  if payload.lastResult = .ok then client.lastFetchedGen else client.priorGen

end ControllerClient

inductive PollReply where
  | failed | timedOut
  | changed (generation : Int)
  deriving DecidableEq, Repr

/-- `Poll`, answered from the tenant's generation; none if the request fails. -/
def poll (after : Int) : Option Int → PollReply
  | none => .failed
  | some generation => if after < generation then .changed generation else .timedOut

/-- What one cycle meets: the tenant's generation, the two envelopes, whether the steps of a rotation succeed,
and what the apply needs. -/
structure CycleInput where
  generation : Option Int
  config : Option ConfigResponse
  leased : Bool := true
  regenerated : Bool := true
  registered : Bool := true
  refetched : Option ConfigResponse
  request : RunInput
  plan : List Fault := []

inductive CycleEnd where
  | failed
  | timedOut
  | rekeyed (resume : Int)
  | idled (resume : Int)
  | applied (resume : Int)
  /-- The process was replaced, or died. -/
  | gone
  deriving DecidableEq, Repr

/-- The node with its daemon. The fields below the flag are a history. -/
structure Node where
  system : System
  client : ControllerClient := {}
  /-- `lastAppliedGen` of the loop. -/
  cursor : Int := 0
  finalized : Bool := false
  /-- The generations of the bundles whose script was started. -/
  executed : List Int := []
  /-- The generation of the last bundle whose script succeeded. -/
  lastApplied : Int := 0
  /-- Each report with what it should have said. -/
  reports : List (Int × Int) := []
  /-- `AppliedGeneration` in the registry of the controller. -/
  registry : Int := 0

section

variable (runtime : Runtime)

def alreadyApplied (state : State) (files : Bundle) : Bool :=
  match files.get? manifestFile with
  | none => false
  | some data =>
    match parseManifest runtime data with
    | .error _ => false
    | .ok manifest => manifest.checksum ≠ "" && state.lastResult = .ok && state.lastChecksum = manifest.checksum

/-- The script was started since the base, and exits with success: `Applied` of the run's result. -/
def RunInput.applied (input : RunInput) (base host : Host) : Bool :=
  input.installed && base.executions.length < host.executions.length

def Node.note (node : Node) (client : ControllerClient) (host : Host) (input : RunInput) (delivered : Bool) : Node :=
  let payloads := host.reports.drop node.system.host.reports.length
  let lastApplied := if input.applied node.system.host host then client.lastFetchedGen else node.lastApplied
  let generations := payloads.map client.reportGeneration
  { node with
    client
    executed := node.executed ++
      List.replicate (host.executions.length - node.system.host.executions.length) client.lastFetchedGen
    lastApplied
    reports := node.reports ++ generations.map (·, lastApplied)
    registry := if delivered then generations.getLast?.getD node.registry else node.registry }

/-- The apply of a cycle. The run fetches the bundle again; nothing reads the fields of the client before the
next fetch if it stops before that. -/
def applyCycle (node : Node) (client : ControllerClient) (process : Binary) (input : CycleInput) (delivered : Bool) :
    Node × CycleEnd :=
  let (client, files) := { client with priorGen := node.cursor }.fetch input.refetched
  let ended := run runtime process { input.request with fetched := files } node.system.host input.plan
  let noted := node.note client ended.state input.request delivered
  match ended.outcome with
  | .done .continues =>
    ({ noted with system := { host := ended.state, process := some process } }, .applied client.lastFetchedGen)
  | .failed _ => ({ noted with system := { host := ended.state, process := some process } }, .failed)
  | .done .replaced | .halted => ({ noted with system := { host := ended.state } }, .gone)

def rekeyCycle (node : Node) (client : ControllerClient) (polled : Int) (input : CycleInput) : Node × CycleEnd :=
  let node := { node with client }
  if !input.regenerated then (node, .failed)
  else if !input.registered then (node, .failed)
  else (node, .rekeyed (if polled < client.lastFetchedGen then client.lastFetchedGen else polled))

/-- `RunControllerCycle`. -/
def runControllerCycle (node : Node) (process : Binary) (input : CycleInput) (delivered : Bool) : Node × CycleEnd :=
  match poll node.cursor input.generation with
  | .failed => (node, .failed)
  | .timedOut => (node, .timedOut)
  | .changed polled =>
    let (client, files) := node.client.fetch input.config
    match files with
    | none => ({ node with client }, .failed)
    | some files =>
      if !input.leased then ({ node with client }, .failed)
      else if client.lastRekeyRequested then rekeyCycle node client polled input
      else if client.lastFetchedGen ≤ node.cursor && alreadyApplied runtime node.system.host.state files then
        ({ node with client }, .idled polled)
      else applyCycle runtime node client process input delivered

/-- A retried update fetches the bundle through the same client. -/
structure RetryInput where
  config : Option ConfigResponse
  request : RunInput
  plan : List Fault := []

structure StepInput where
  cycle : CycleInput
  /-- Whether a report of the cycle reaches the controller. -/
  delivered : Bool := true
  finalise : List Fault := []
  /-- A deferred update, when its interval has passed. -/
  retry : Option RetryInput := none

inductive NodeEvent where
  | boot (after : Int) (plan : List Fault)
  | promote (healthy : Bool) (plan : List Fault)
  | step (input : StepInput)
  | stop

def Node.finalise (node : Node) (plan : List Fault) : Node :=
  if node.finalized then node
  else { node with system := node.system.step runtime (.finalise plan), finalized := true }

def CycleEnd.cursor (before : Int) : CycleEnd → Int
  | .rekeyed resume | .idled resume | .applied resume => resume
  | .failed | .timedOut | .gone => before

def CycleEnd.retries : CycleEnd → Bool
  | .rekeyed _ | .idled _ | .timedOut => true
  | .failed | .applied _ | .gone => false

def Node.retry (node : Node) : Option RetryInput → Node
  | none => node
  | some input =>
    let (client, files) := node.client.fetch input.config
    { node with
      client
      system := node.system.step runtime (.retry { input.request with fetched := files } input.plan) }

/-- `step` of the loop. -/
def Node.loop (node : Node) (process : Binary) (input : StepInput) : Node :=
  let (node, ended) := runControllerCycle runtime node process input.cycle input.delivered
  let node := node.finalise runtime input.finalise
  let node := { node with cursor := ended.cursor node.cursor }
  if ended.retries then node.retry runtime input.retry else node

def Node.step (node : Node) : NodeEvent → Node
  | .boot after plan =>
    { node with
      system := node.system.step runtime (.boot plan)
      client := {}
      cursor := after
      finalized := false }
  | .promote healthy plan => { node with system := node.system.step runtime (.promote healthy plan) }
  | .step input =>
    match node.system.process with
    | none => node
    | some process => node.loop runtime process input
  | .stop => { node with system := node.system.step runtime .stop }

def Node.start (binary : Binary) : Node := { system := System.start binary }

def Node.after (node : Node) (events : List NodeEvent) : Node := events.foldl (Node.step runtime) node

end

end Yaog.Agent
