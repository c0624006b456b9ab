import Yaog.Validator.Accepted

/-!
# Checks that read only the design

The compiler writes overlay addresses, capabilities, pins and compiled ports. Erasing them leaves the
design; most checks give the same findings on a topology and on its design.
-/

namespace Yaog

open List

def Node.design (node : Node) : Node := { node with overlayIP := "", capabilities := {} }

def Edge.design (edge : Edge) : Edge :=
  { edge with
    compiledPort := 0, pinnedFromPort := 0, pinnedToPort := 0, pinnedFromTransitIP := ""
    pinnedToTransitIP := "", pinnedFromLinkLocal := "", pinnedToLinkLocal := "" }

def ResolvedEdge.bare (link : ResolvedEdge) : ResolvedEdge :=
  { link with fromNode := link.fromNode.design, toNode := link.toNode.design }

def Topology.bare (topo : Topology) : Topology :=
  { topo with nodes := topo.nodes.map Node.design, allocSchemaVersion := 0 }

def ResolvedEdge.design (link : ResolvedEdge) : ResolvedEdge where
  edge := link.edge.design
  fromNode := link.fromNode.design
  toNode := link.toNode.design

def Topology.design (topo : Topology) : Topology :=
  { topo with
    nodes := topo.nodes.map Node.design, edges := topo.edges.map Edge.design, allocSchemaVersion := 0 }

@[simp] theorem Node.design_id (node : Node) : node.design.id = node.id := rfl

@[simp] theorem Node.design_isClient (node : Node) : node.design.isClient = node.isClient := rfl

section

variable (edge : Edge)

@[simp] theorem Edge.design_id : edge.design.id = edge.id := rfl

@[simp] theorem Edge.design_fromNodeID : edge.design.fromNodeID = edge.fromNodeID := rfl

@[simp] theorem Edge.design_toNodeID : edge.design.toNodeID = edge.toNodeID := rfl

@[simp] theorem Edge.design_isEnabled : edge.design.isEnabled = edge.isEnabled := rfl

@[simp] theorem Edge.design_endpointHost : edge.design.endpointHost = edge.endpointHost := rfl

@[simp] theorem Edge.design_linkKey : edge.design.linkKey = edge.linkKey := rfl

end

namespace Topology

variable (topo : Topology) (id : String)

@[simp] theorem design_node? : topo.design.node? id = (topo.node? id).map Node.design := by
  rw [node?, design, ← map_reverse, find?_map]
  rfl

@[simp] theorem bare_node? : topo.bare.node? id = (topo.node? id).map Node.design := by
  rw [node?, bare, ← map_reverse, find?_map]
  rfl

@[simp] theorem bare_resolve (edge : Edge) :
    topo.bare.resolve edge = (topo.resolve edge).map ResolvedEdge.bare := by
  rw [resolve, resolve, bare_node?, bare_node?]
  split
  · cases topo.node? edge.fromNodeID <;> cases topo.node? edge.toNodeID <;> rfl
  · rfl

theorem bare_resolvedEdges : topo.bare.resolvedEdges = topo.resolvedEdges.map ResolvedEdge.bare := by
  rw [resolvedEdges, resolvedEdges, map_filterMap]
  congr 1
  funext edge
  exact topo.bare_resolve edge

theorem bare_firstEdges : topo.bare.firstEdges = topo.firstEdges.map ResolvedEdge.bare := by
  rw [firstEdges, bare_resolvedEdges, firstEdges]
  exact Data.keepFirst_map ResolvedEdge.bare (fun _ => rfl) topo.resolvedEdges

@[simp] theorem design_nodeIndex : topo.design.nodeIndex id = topo.nodeIndex id := by
  rw [nodeIndex, design, zipIdx_map, ← map_reverse, find?_map, Option.map_map]
  rfl

@[simp] theorem design_resolve (edge : Edge) :
    topo.design.resolve edge.design = (topo.resolve edge).map ResolvedEdge.design := by
  have ends : edge.design.fromNodeID = edge.fromNodeID ∧ edge.design.toNodeID = edge.toNodeID ∧
      edge.design.isEnabled = edge.isEnabled := ⟨rfl, rfl, rfl⟩
  rw [resolve, resolve, design_node?, design_node?, ends.1, ends.2.1, ends.2.2]
  split
  · cases topo.node? edge.fromNodeID <;> cases topo.node? edge.toNodeID <;> rfl
  · rfl

theorem design_resolvedEdges :
    topo.design.resolvedEdges = topo.resolvedEdges.map ResolvedEdge.design := by
  rw [resolvedEdges, design, filterMap_map, resolvedEdges, map_filterMap]
  congr 1
  funext edge
  exact topo.design_resolve edge

theorem design_firstEdges : topo.design.firstEdges = topo.firstEdges.map ResolvedEdge.design := by
  rw [firstEdges, design_resolvedEdges, firstEdges]
  exact Data.keepFirst_map ResolvedEdge.design (fun _ => rfl) topo.resolvedEdges

end Topology

namespace Validator

variable (env : Externals) (topo : Topology)

theorem validateEdgesSchema_design : validateEdgesSchema env topo.design = validateEdgesSchema env topo :=
  eachIndexed_map

theorem validateNodeDomainRefs_design : validateNodeDomainRefs topo.design = validateNodeDomainRefs topo :=
  eachIndexed_map

theorem validateEdgeNodeRefs_design : validateEdgeNodeRefs topo.design = validateEdgeNodeRefs topo := by
  simp only [validateEdgeNodeRefs, Topology.design_node?, Option.isNone_map]
  exact eachIndexed_map

theorem take_any {α β : Type} (items : List α) (change : α → β) (i : Nat) (test : β → Bool) :
    ((items.map change).take i).any test = (items.take i).any fun item => test (change item) := by
  rw [← map_take, any_map]
  rfl

theorem take_find? {α β : Type} (items : List α) (change : α → β) (i : Nat) (test : β → Bool) :
    ((items.map change).take i).find? test =
      ((items.take i).find? fun item => test (change item)).map change := by
  rw [← map_take, find?_map]
  rfl

private theorem eachIndexed_congr {α β : Type} {items : List α} {change : α → β} {check : Nat → β → List Finding}
    {check' : Nat → α → List Finding} (same : ∀ i item, check i (change item) = check' i item) :
    eachIndexed (items.map change) check = eachIndexed items check' := by
  rw [eachIndexed_map]
  congr 1
  funext i item
  exact same i item

theorem validateIDUniqueness_design : validateIDUniqueness topo.design = validateIDUniqueness topo := by
  have nodes : validateNodeIDs topo.design = validateNodeIDs topo := by
    refine eachIndexed_congr fun i node => ?_
    have first : ((topo.design.nodes.take i).find? fun other =>
          other.id ≠ "" && portableNodeIDKey other.id = portableNodeIDKey node.design.id) =
        ((topo.nodes.take i).find? fun other =>
          other.id ≠ "" && portableNodeIDKey other.id = portableNodeIDKey node.id).map Node.design :=
      take_find? topo.nodes Node.design i _
    simp only [first]
    simp only [Topology.design, take_any]
    cases (topo.nodes.take i).find? fun other =>
      other.id ≠ "" && portableNodeIDKey other.id = portableNodeIDKey node.id <;> rfl
  have edges : validateEdgeIDs topo.design = validateEdgeIDs topo := by
    refine eachIndexed_congr fun i edge => ?_
    simp only [Topology.design, take_any]
    rfl
  rw [validateIDUniqueness, nodes, edges]
  rfl

theorem validateNodeNameCollisions_design :
    validateNodeNameCollisions env topo.design = validateNodeNameCollisions env topo := by
  refine eachIndexed_congr fun i node => ?_
  have named : ((topo.design.nodes.take i).find? fun other => other.name = node.design.name) =
      ((topo.nodes.take i).find? fun other => other.name = node.name).map Node.design :=
    take_find? topo.nodes Node.design i _
  have colliding : ((topo.design.nodes.take i).find? fun other =>
        other.name ≠ "" && wgInterfaceName env other.name = wgInterfaceName env node.design.name) =
      ((topo.nodes.take i).find? fun other =>
        other.name ≠ "" && wgInterfaceName env other.name = wgInterfaceName env node.name).map Node.design :=
    take_find? topo.nodes Node.design i _
  simp only [named, colliding]
  cases (topo.nodes.take i).find? fun other => other.name = node.name <;>
    cases (topo.nodes.take i).find? fun other =>
      other.name ≠ "" && wgInterfaceName env other.name = wgInterfaceName env node.name <;> rfl

theorem validateEffectivePortRanges_design :
    validateEffectivePortRanges topo.design = validateEffectivePortRanges topo := by
  have count : ∀ nodeID, interfaceCount topo.design nodeID = interfaceCount topo nodeID := by
    intro nodeID
    rw [interfaceCount, Topology.design_firstEdges, countP_map, countP_map]
    rfl
  simp only [validateEffectivePortRanges, count, Topology.design_nodeIndex]
  rw [Topology.design, flatMap_map]
  rfl

theorem validateClientEdges_design : validateClientEdges topo.design = validateClientEdges topo := by
  have outbound : ∀ nodeID, clientOutbound topo.design nodeID = clientOutbound topo nodeID := by
    intro nodeID
    simp only [clientOutbound, Topology.design_node?, Option.any_map]
    rw [Topology.design, countP_map]
    rfl
  have edges : eachIndexed topo.design.edges (validateClientEdge topo.design) =
      eachIndexed topo.edges (validateClientEdge topo) := by
    refine eachIndexed_congr fun i edge => ?_
    simp only [validateClientEdge, Topology.design_node?, Edge.design_fromNodeID, Edge.design_toNodeID,
      Edge.design_isEnabled, Edge.design_endpointHost]
    cases topo.node? edge.fromNodeID <;> cases topo.node? edge.toNodeID <;> rfl
  rw [validateClientEdges, validateClientEdges, edges]
  congr 1
  rw [Topology.design, flatMap_map]
  congr 1
  simp only [validateClientNode]
  rw [← Topology.design]
  simp only [outbound]
  rfl

theorem validateMimicTransport_design :
    validateMimicTransport topo.design env = validateMimicTransport topo env := by
  refine eachIndexed_congr fun i edge => ?_
  simp only [Topology.design_node?, Edge.design_fromNodeID, Edge.design_toNodeID]
  cases topo.node? edge.fromNodeID <;> cases topo.node? edge.toNodeID <;> rfl

theorem interfaceEntries_design : interfaceEntries topo.design env = interfaceEntries topo env := by
  rw [interfaceEntries, Topology.design_firstEdges, flatMap_map]
  rfl

theorem validateInterfaceNameUniqueness_design :
    validateInterfaceNameUniqueness topo.design env = validateInterfaceNameUniqueness topo env := by
  have names : ∀ nodeID, ((topo.node? nodeID).map Node.design).map (·.name) = (topo.node? nodeID).map (·.name) := by
    intro nodeID
    cases topo.node? nodeID <;> rfl
  simp only [validateInterfaceNameUniqueness, interfaceEntries_design, Topology.design_node?, names,
    Topology.design_nodeIndex]

theorem validateSinglePrimaryPerPair_design :
    validateSinglePrimaryPerPair topo.design = validateSinglePrimaryPerPair topo := by
  refine eachIndexed_congr fun i edge => ?_
  have explicit : ∀ other : Edge, (topo.design.resolve other.design).isSome = (topo.resolve other).isSome := by
    intro other
    rw [Topology.design_resolve, Option.isSome_map]
  have first : ((topo.design.edges.take i).find? fun other =>
        (other.role = .primary && (topo.design.resolve other).isSome) && edgePinKey other = edgePinKey edge.design) =
      ((topo.edges.take i).find? fun other =>
        (other.role = .primary && (topo.resolve other).isSome) && edgePinKey other = edgePinKey edge).map
        Edge.design := by
    refine (take_find? topo.edges Edge.design i _).trans ?_
    simp only [explicit]
    rfl
  simp only [explicit]
  rw [first]
  cases (topo.edges.take i).find? fun other =>
    (other.role = .primary && (topo.resolve other).isSome) && edgePinKey other = edgePinKey edge <;> rfl

theorem validateBackupClientEdges_design :
    validateBackupClientEdges topo.design = validateBackupClientEdges topo := by
  refine eachIndexed_congr fun i edge => ?_
  simp only [Topology.design_node?, Option.any_map]
  rfl

theorem validateLinkDirection_design : validateLinkDirection topo.design = validateLinkDirection topo := by
  have pairs : ∀ edge, pairEdgeIDs topo.design edge.design = pairEdgeIDs topo edge := by
    intro edge
    rw [pairEdgeIDs, Topology.design, filter_map, map_map]
    rfl
  refine eachIndexed_congr fun i edge => ?_
  simp only [Topology.design_resolve, pairs]
  cases topo.resolve edge <;> rfl

theorem hasEnabledEndpointEdge_design (fromID toID : String) :
    hasEnabledEndpointEdge topo.design fromID toID = hasEnabledEndpointEdge topo fromID toID := by
  rw [hasEnabledEndpointEdge, Topology.design, any_map]
  rfl

theorem validateAllocationPins_bare : validateAllocationPins env topo.bare = validateAllocationPins env topo := by
  have earlier : ∀ i, (topo.bare.edges.take i).filterMap topo.bare.resolve =
      ((topo.edges.take i).filterMap topo.resolve).map ResolvedEdge.bare := by
    intro i
    rw [map_filterMap]
    congr 1
    funext edge
    exact topo.bare_resolve edge
  have rounds : ∀ i edge, validateEdgePins env topo.bare i edge = validateEdgePins env topo i edge := by
    intro i edge
    rw [validateEdgePins, earlier, Topology.bare_resolve, validateEdgePins]
    simp only [flatMap_map]
    cases topo.resolve edge <;> rfl
  rw [validateAllocationPins, validateAllocationPins]
  congr 1
  funext i edge
  exact rounds i edge

section

variable {env : Externals} {topo : Topology}

theorem isValid_validateNodesSchema :
    isValid (validateNodesSchema env topo) = true ↔ isValid (validateNodesSchema env topo.design) = true ∧
      ∀ node ∈ topo.nodes, node.overlayIP ≠ "" → (Net.parseIP node.overlayIP).isSome = true := by
  have designed : isValid (validateNodesSchema env topo.design) = true ↔
      ∀ i node, topo.nodes[i]? = some node → isValid (validateNodeSchema env i node.design) = true := by
    rw [validateNodesSchema, Topology.design, eachIndexed_map, isValid_eachIndexed]
  have split : ∀ i node, isValid (validateNodeSchema env i node) = true ↔
      isValid (validateNodeSchema env i node.design) = true ∧
        (node.overlayIP ≠ "" → (Net.parseIP node.overlayIP).isSome = true) := by
    intro i node
    have rest : validateNodeIdentity env s!"nodes[{i}]" node.design = validateNodeIdentity env s!"nodes[{i}]" node ∧
        validateNodeModes env s!"nodes[{i}]" node.design = validateNodeModes env s!"nodes[{i}]" node ∧
        validateNodeNetwork env s!"nodes[{i}]" node.design = validateNodeNetwork env s!"nodes[{i}]" node ∧
        validateNodeHosts env s!"nodes[{i}]" node.design = validateNodeHosts env s!"nodes[{i}]" node :=
      ⟨rfl, rfl, rfl, rfl⟩
    have blank : isValid (validateNodeOverlayIP s!"nodes[{i}]" node.design) = true := rfl
    have overlay : isValid (validateNodeOverlayIP s!"nodes[{i}]" node) = true ↔
        (node.overlayIP ≠ "" → (Net.parseIP node.overlayIP).isSome = true) := by
      rw [validateNodeOverlayIP, isValid_report_error]
      cases Net.parseIP node.overlayIP <;> simp
    simp only [validateNodeSchema, isValid_append, rest, blank, overlay]
    grind
  rw [designed, validateNodesSchema, isValid_eachIndexed]
  constructor
  · intro rounds
    refine ⟨fun i node found => ((split i node).mp (rounds i node found)).1, fun node member => ?_⟩
    obtain ⟨i, found⟩ := getElem?_of_mem member
    exact ((split i node).mp (rounds i node found)).2
  · rintro ⟨rounds, overlay⟩ i node found
    exact (split i node).mpr ⟨rounds i node found, overlay node (mem_of_getElem? found)⟩

def deadLink (topo : Topology) (link : ResolvedEdge) : Bool :=
  (!link.fromNode.capabilities.hasPublicIP && !link.toNode.capabilities.hasPublicIP
      && link.edge.type = .direct && link.edge.endpointHost = "")
    && (!hasEnabledEndpointEdge topo link.toNode.id link.fromNode.id
      && !canBeDialed link.fromNode && !canBeDialed link.toNode)

theorem isValid_validateNATReachability :
    isValid (validateNATReachability topo) = true ↔ ∀ link ∈ topo.resolvedEdges, deadLink topo link = false := by
  have pair : ∀ path link, isValid (natPairFinding topo path link) = true ↔ deadLink topo link = false := by
    intro path link
    rw [natPairFinding, deadLink]
    split
    case isTrue behind =>
      rw [behind, Bool.true_and]
      split
      case isTrue dead => simp [dead, isValid, errors, error]
      case isFalse open_ =>
        rw [Bool.not_eq_true] at open_
        rw [open_]
        exact ⟨fun _ => rfl, fun _ => rfl⟩
    case isFalse reachable =>
      rw [Bool.not_eq_true] at reachable
      rw [reachable, Bool.false_and]
      exact ⟨fun _ => rfl, fun _ => rfl⟩
  have nodes : ∀ {items : List Node} {check : Node → List Finding},
      (∀ node, isValid (check node) = true) → isValid (items.flatMap check) = true :=
    fun warns => isValid_flatMap.mpr fun node _ => warns node
  rw [validateNATReachability, isValid_append,
    and_iff_left (nodes fun node => isValid_report_warning _ _ _ _), isValid_eachIndexed]
  constructor
  · intro rounds link member
    obtain ⟨inEdges, enabled, isFrom, isTo⟩ := mem_resolvedEdges.mp member
    obtain ⟨i, found⟩ := getElem?_of_mem inEdges
    have resolved : topo.resolve link.edge = some link := by simp [Topology.resolve, enabled, isFrom, isTo]
    have round := rounds i link.edge found
    rw [resolved, isValid_append] at round
    exact (pair _ _).mp round.2
  · intro alive i edge found
    cases resolved : topo.resolve edge with
    | none => rfl
    | some link =>
      have member : link ∈ topo.resolvedEdges :=
        mem_filterMap.mpr ⟨edge, mem_of_getElem? found, resolved⟩
      rw [isValid_append, and_iff_right (isValid_report_warning _ _ _ _)]
      exact (pair _ _).mpr (alive link member)

theorem Accepted.of_design {out : Topology} (accepted : Accepted env topo) (same : out.design = topo.design)
    (version : out.allocSchemaVersion ≤ currentAllocSchemaVersion)
    (overlay : ∀ node ∈ out.nodes, node.overlayIP ≠ "" → (Net.parseIP node.overlayIP).isSome = true)
    (addresses : isValid (validateIPSemantics out) = true)
    (reachable : ∀ link ∈ out.resolvedEdges, deadLink out link = false)
    (pins : isValid (validateAllocationPins env out) = true) : Accepted env out := by
  have transfer : ∀ check : Topology → List Finding, (∀ topo, check topo.design = check topo) →
      isValid (check topo) = true → isValid (check out) = true := by
    intro check designed valid
    rw [← designed, same, designed]
    exact valid
  have domains : out.domains = topo.domains := by
    have equal := congrArg Topology.domains same
    exact equal
  have nodesLength : out.nodes.length = topo.nodes.length := by
    simpa [Topology.design] using congrArg (fun design : Topology => design.nodes.length) same
  have edgesLength : out.edges.length = topo.edges.length := by
    simpa [Topology.design] using congrArg (fun design : Topology => design.edges.length) same
  constructor
  case bounded =>
    have bounded := accepted.bounded
    simp only [topologyExceedsBounds, Bool.or_eq_false_iff, decide_eq_false_iff_not, nodesLength, edgesLength,
      domains] at bounded ⊢
    exact ⟨⟨⟨⟨not_lt.mpr version, bounded.1.1.1.2⟩, bounded.1.1.2⟩, bounded.1.2⟩, bounded.2⟩
  case project => exact transfer _ (fun _ => rfl) accepted.project
  case domains => exact transfer _ (fun _ => rfl) accepted.domains
  case nodes =>
    refine isValid_validateNodesSchema.mpr ⟨?_, overlay⟩
    rw [same]
    exact (isValid_validateNodesSchema.mp accepted.nodes).1
  case edges => exact transfer _ (validateEdgesSchema_design env) accepted.edges
  case domainRefs => exact transfer _ validateNodeDomainRefs_design accepted.domainRefs
  case nodeRefs => exact transfer _ validateEdgeNodeRefs_design accepted.nodeRefs
  case addresses => exact addresses
  case identifiers => exact transfer _ validateIDUniqueness_design accepted.identifiers
  case names => exact transfer _ (validateNodeNameCollisions_design env) accepted.names
  case ports => exact transfer _ validateEffectivePortRanges_design accepted.ports
  case reachability => exact isValid_validateNATReachability.mpr reachable
  case clients => exact transfer _ validateClientEdges_design accepted.clients
  case mimic => exact transfer (validateMimicTransport · env) (validateMimicTransport_design env) accepted.mimic
  case interfaces =>
    exact transfer (validateInterfaceNameUniqueness · env) (validateInterfaceNameUniqueness_design env) accepted.interfaces
  case primaries => exact transfer _ validateSinglePrimaryPerPair_design accepted.primaries
  case backups => exact transfer _ validateBackupClientEdges_design accepted.backups
  case directions => exact transfer _ validateLinkDirection_design accepted.directions
  case pins => exact pins
  case routePolicies => exact transfer _ (fun _ => rfl) accepted.routePolicies

end

end Validator

end Yaog
