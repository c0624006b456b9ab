import Yaog.Controller.Deploy
import Yaog.Normalize.Pins

/-!
# The telemetry policy of a deployment

Devices and URL probes need an agent of the successor protocol. A deployment compiles a copy of the
stored design: normally every ready node must have advertised the capabilities its policy needs, and a
deployment that upgrades the agents first leaves the newer fields out of the copy. The copy is checked
before it is healed or compiled, and the check fills the defaults of its domains.
-/

namespace Yaog.Controller

open Compiler Data Normalize Validator List

def hasURLProbe (node : Node) : Bool := node.telemetryProbes.any fun probe => probe.type = "url"

/-- `RequiresSuccessor`. -/
def requiresSuccessor (node : Node) : Bool := node.telemetryDevices.isSome || hasURLProbe node

/-- `sort.Strings`. -/
def sortTexts (texts : List String) : List String :=
  texts.insertionSort fun first second => textLE first second = true

def requiredCapabilities (node : Node) : List String :=
  if requiresSuccessor node then
    sortTexts (["telemetry-policy-v2"] ++ (if hasURLProbe node then ["url-probes-v1"] else [])
      ++ if node.telemetryDevices.isSome then ["device-telemetry-v1"] else [])
  else []

/-- `ProjectLegacy`: the probes an older agent understands stay. -/
def projectLegacy (node : Node) : Node :=
  { node with
    telemetryDevices := none
    telemetryProbes := node.telemetryProbes.filter fun probe => probe.type ≠ "url" }

def heldBack (node : Node) : Node := if requiresSuccessor node then projectLegacy node else node

/-- `requireTelemetryProbeKeystone` refuses such a result unless a credential is pinned. -/
def carriesTelemetryPolicy (result : CompileResult) : Bool :=
  result.topology.nodes.any fun node => node.telemetryProbes ≠ [] || requiresSuccessor node

/-- `TelemetryPolicyDeployMode`; an empty mode is the normal one. -/
inductive PolicyDeployMode where
  | unset | normal | upgradeAgentsFirst
  | unknown (text : String)

inductive PolicyDeployError where
  | manualNode (reason : ManualNodeInvalid)
  | schema (findings : List Finding)
  | readiness (nodeIDs : List String)
  | unsupportedMode (text : String)

def PolicyDeployError.message (quote : String → String) : PolicyDeployError → String
  | .manualNode reason => "Manual node " ++ reason.node ++ " is invalid: " ++ reason.detail
  | .schema _ => "topology failed schema validation"
  | .readiness nodeIDs =>
    "controller: successor telemetry policy requires agent upgrades for nodes: " ++ ", ".intercalate nodeIDs
  | .unsupportedMode text => "controller: unsupported telemetry policy deploy mode " ++ quote text

section

variable (env : Externals) (capabilities : String → Option (List String))

def lacksCapabilities (node : Node) : Bool :=
  !node.isManual && requiresSuccessor node &&
    !(capabilities node.id).any fun available => (requiredCapabilities node).all (· ∈ available)

/-- The rollout decision on the checked copy: what is compiled, and the ready nodes whose policy is held
back. -/
def decidePolicy (mode : PolicyDeployMode) (projected ready : Topology) :
    Except PolicyDeployError (Topology × List String) :=
  match mode with
  | .upgradeAgentsFirst => .ok
      ({ projected with nodes := projected.nodes.map heldBack },
        sortTexts ((projected.nodes.filter fun node =>
          requiresSuccessor node && node.id ∈ ready.nodes.map (·.id)).map (·.id)))
  | .unset | .normal =>
    match (ready.nodes.filter (lacksCapabilities capabilities)).map (·.id) with
    | [] => .ok (projected, [])
    | blocked => .error (.readiness (sortTexts blocked))
  | .unknown text => .error (.unsupportedMode text)

/-- `PrepareTelemetryPolicyDeployment`. The ready part shares its domains with the copy, so the defaults
that its check fills show in the copy. -/
def prepareTelemetryPolicyDeployment (mode : PolicyDeployMode) (topo : Topology) (nodes : List RegistryNode) :
    Except PolicyDeployError (Topology × List String) :=
  match projectEnrolledSubgraph topo nodes with
  | .error reason => .error (.manualNode reason)
  | .ok (ready, _) =>
    match errors (validateSchema env ready.withDefaults) with
    | [] => decidePolicy capabilities mode { topo with domains := ready.withDefaults.domains } ready
    | findings => .error (.schema findings)

end

/-- A stage as `CompileAndStage` runs it: the stored pins are healed and the telemetry policy decided. -/
def StageEnv.deploying (env : StageEnv) (capabilities : String → Option (List String)) (mode : PolicyDeployMode) :
    StageEnv :=
  { env with
    heal := healed
    deployment := fun topo nodes =>
      ((prepareTelemetryPolicyDeployment env.externals capabilities mode topo nodes).mapError
        (PolicyDeployError.message env.externals.quote)).map (·.1)
    probes := carriesTelemetryPolicy }

/-- A change of nodes that shows neither in who they are nor in whether they are ready. -/
structure KeepsIdentity (change : Node → Node) : Prop where
  sameID : ∀ node, (change node).id = node.id
  sameClient : ∀ node, (change node).isClient = node.isClient
  sameKey : ∀ registry node, readyKey registry (change node) = readyKey registry node

theorem KeepsIdentity.unchanged : KeepsIdentity id := ⟨fun _ => rfl, fun _ => rfl, fun _ _ => rfl⟩

theorem KeepsIdentity.heldBack : KeepsIdentity heldBack := by
  constructor
  all_goals
    intros
    unfold Controller.heldBack
    split <;> rfl

section

variable {change : Node → Node} (keeps : KeepsIdentity change) (topo : Topology) (domains : List Domain)

include keeps

theorem KeepsIdentity.atClient :
    Normalize.atClient { topo with domains, nodes := topo.nodes.map change } = Normalize.atClient topo := by
  funext nodeID
  simp only [Normalize.atClient, Topology.node?, ← map_reverse, find?_map, Option.any_map, Function.comp_def,
    keeps.sameID, keeps.sameClient]

theorem KeepsIdentity.dropIdleClients (ready : List String) (nodes : List Node) :
    dropIdleClients { topo with domains, nodes := topo.nodes.map change } ready (nodes.map change) =
      dropIdleClients topo ready nodes := by
  induction nodes generalizing ready with
  | nil => rfl
  | cons node rest ih =>
    rw [map_cons, Controller.dropIdleClients, Controller.dropIdleClients, keeps.sameID, keeps.sameClient, ih, ih]
    rfl

theorem KeepsIdentity.readyIDs (registry : List RegistryNode) :
    readyIDs { topo with domains, nodes := topo.nodes.map change } registry = readyIDs topo registry := by
  have start : ((topo.nodes.map change).filter fun node => readyKey registry node ≠ "").map (·.id) =
      (topo.nodes.filter fun node => readyKey registry node ≠ "").map (·.id) := by
    simp only [filter_map, map_map, Function.comp_def, keeps.sameID, keeps.sameKey]
  rw [Controller.readyIDs, Controller.readyIDs, start]
  exact keeps.dropIdleClients topo domains _ _

end

section

variable (topo : Topology) (registry : List RegistryNode)

theorem clientTargetEnrolled_withoutPins : clientTargetEnrolled topo.withoutPins = clientTargetEnrolled topo := by
  funext clientID ready
  simp only [clientTargetEnrolled, Topology.withoutPins, any_map]
  rfl

theorem dropIdleClients_withoutPins (ready : List String) (nodes : List Node) :
    dropIdleClients topo.withoutPins ready nodes = dropIdleClients topo ready nodes := by
  induction nodes generalizing ready with
  | nil => rfl
  | cons node rest ih => rw [dropIdleClients, dropIdleClients, clientTargetEnrolled_withoutPins, ih, ih]

theorem readyIDs_withoutPins : readyIDs topo.withoutPins registry = readyIDs topo registry :=
  dropIdleClients_withoutPins topo _ _

theorem enrolledSubgraph_withoutPins :
    enrolledSubgraph topo.withoutPins registry =
      ((enrolledSubgraph topo registry).1.withoutPins, (enrolledSubgraph topo registry).2) := by
  simp only [enrolledSubgraph, readyIDs_withoutPins]
  simp only [Topology.withoutPins, filter_map]
  rfl

theorem projectEnrolledSubgraph_withoutPins :
    projectEnrolledSubgraph topo.withoutPins registry =
      (projectEnrolledSubgraph topo registry).map fun projected => (projected.1.withoutPins, projected.2) := by
  rw [projectEnrolledSubgraph, projectEnrolledSubgraph, enrolledSubgraph_withoutPins]
  have same : validateManualNodes topo.withoutPins registry = validateManualNodes topo registry := rfl
  rw [same]
  cases validateManualNodes topo registry <;> rfl

theorem topologyExceedsBounds_withoutPins : topologyExceedsBounds topo.withoutPins = topologyExceedsBounds topo := by
  simp only [topologyExceedsBounds, Topology.withoutPins, length_map]
  rfl

theorem withDefaults_withoutPins : topo.withoutPins.withDefaults = topo.withDefaults.withoutPins := by
  rw [Topology.withDefaults, topologyExceedsBounds_withoutPins, Topology.withDefaults]
  split
  · rfl
  · simp only [Topology.withoutPins, map_map]
    rfl

theorem validateSchema_withoutPins (env : Externals) :
    validateSchema env topo.withoutPins = validateSchema env topo := by
  have edges : validateEdgesSchema env topo.withoutPins = validateEdgesSchema env topo :=
    validateEdgesSchema_design env topo
  have bounds : boundsFindings topo.withoutPins = boundsFindings topo := by
    simp only [boundsFindings, Topology.withoutPins, length_map]
    rfl
  rw [validateSchema, topologyExceedsBounds_withoutPins, bounds, edges]
  rfl

end

section

variable (env : Externals) (capabilities : String → Option (List String)) (mode : PolicyDeployMode)

theorem decidePolicy_withoutPins (projected ready : Topology) :
    decidePolicy capabilities mode projected.withoutPins ready.withoutPins =
      (decidePolicy capabilities mode projected ready).map fun copy => (copy.1.withoutPins, copy.2) := by
  have nodes : ready.withoutPins.nodes = ready.nodes := rfl
  cases mode with
  | upgradeAgentsFirst => rfl
  | unknown text => rfl
  | unset | normal =>
    simp only [decidePolicy, nodes]
    cases (ready.nodes.filter (lacksCapabilities capabilities)).map (·.id) <;> rfl

theorem prepare_withoutPins (topo : Topology) (nodes : List RegistryNode) :
    prepareTelemetryPolicyDeployment env capabilities mode topo.withoutPins nodes =
      (prepareTelemetryPolicyDeployment env capabilities mode topo nodes).map
        fun copy => (copy.1.withoutPins, copy.2) := by
  rw [prepareTelemetryPolicyDeployment, prepareTelemetryPolicyDeployment, projectEnrolledSubgraph_withoutPins]
  cases projectEnrolledSubgraph topo nodes with
  | error reason => rfl
  | ok projected =>
    simp only [Except.map, withDefaults_withoutPins, validateSchema_withoutPins]
    cases errors (validateSchema env projected.1.withDefaults) with
    | cons finding rest => rfl
    | nil =>
      exact decidePolicy_withoutPins capabilities mode { topo with domains := projected.1.withDefaults.domains }
        projected.1

variable {env capabilities mode} {topo copy : Topology} {nodes : List RegistryNode} {omitted : List String}

theorem prepare_copies
    (prepared : prepareTelemetryPolicyDeployment env capabilities mode topo nodes = .ok (copy, omitted)) :
    ∃ domains change, KeepsIdentity change ∧ copy = { topo with domains, nodes := topo.nodes.map change } := by
  unfold prepareTelemetryPolicyDeployment at prepared
  split at prepared
  case h_1 => cases prepared
  case h_2 ready skipped projected =>
    split at prepared
    case h_2 => cases prepared
    case h_1 accepted =>
      unfold decidePolicy at prepared
      split at prepared
      case h_1 =>
        obtain ⟨rfl, -⟩ := Prod.mk.inj (Except.ok.inj prepared)
        exact ⟨_, heldBack, .heldBack, rfl⟩
      case h_4 => cases prepared
      all_goals
        split at prepared
        case h_1 =>
          obtain ⟨rfl, -⟩ := Prod.mk.inj (Except.ok.inj prepared)
          exact ⟨_, id, .unchanged, by rw [map_id]⟩
        case h_2 => cases prepared

theorem prepare_healed (topo : Topology) :
    prepareTelemetryPolicyDeployment env capabilities mode (healed topo) nodes =
      (prepareTelemetryPolicyDeployment env capabilities mode topo nodes).map fun copy => (healed copy.1, copy.2) := by
  have blind := prepare_withoutPins env capabilities mode (healed topo) nodes
  rw [healed_withoutPins, prepare_withoutPins] at blind
  cases before : prepareTelemetryPolicyDeployment env capabilities mode topo nodes with
  | error reason =>
    cases after : prepareTelemetryPolicyDeployment env capabilities mode (healed topo) nodes with
    | error other =>
      rw [before, after] at blind
      exact congrArg Except.error (Except.error.inj blind).symm
    | ok copy =>
      rw [before, after] at blind
      cases blind
  | ok copy =>
    cases after : prepareTelemetryPolicyDeployment env capabilities mode (healed topo) nodes with
    | error other =>
      rw [before, after] at blind
      cases blind
    | ok other =>
      rw [before, after] at blind
      obtain ⟨same, omitted⟩ := Prod.mk.inj (Except.ok.inj blind)
      obtain ⟨domains, change, keeps, isCopy⟩ := prepare_copies before
      obtain ⟨otherDomains, otherChange, -, isOther⟩ := prepare_copies after
      have edges : other.1.edges = (healed copy.1).edges := by
        rw [isOther, isCopy]
        exact (healed_edges_congr (keeps.atClient topo domains) rfl).symm
      have whole : other.1 = healed copy.1 := by
        rw [← healed_withoutPins copy.1] at same
        exact Topology.eq_of_withoutPins same.symm edges
      exact congrArg Except.ok (Prod.ext whole omitted.symm)

end

end Yaog.Controller
