import Yaog.Compiler.Compile
import Yaog.Controller.Registry

/-!
# Compiling the part of a stored design that is ready

A stage compiles the nodes whose public key is known and the edges between them, around what the
other edges occupy, and copies the allocations back into the stored design.
-/

namespace Yaog.Controller

open Compiler

section

variable (topo : Topology) (registry : List RegistryNode)

def enrolledKey (id : String) : String :=
  ((registry.reverse.find? fun node =>
    node.status = .approved && node.wgPublicKey ≠ "" && node.nodeID = id).map (·.wgPublicKey)).getD ""

def readyKey (node : Node) : String :=
  if node.isManual then node.wireGuardPublicKey else enrolledKey registry node.id

def clientTargetEnrolled (clientID : String) (ready : List String) : Bool :=
  topo.edges.any fun edge => edge.fromNodeID = clientID && edge.isEnabled && edge.toNodeID ∈ ready

def dropIdleClients : List String → List Node → List String
  | ready, [] => ready
  | ready, node :: rest =>
    if node.id ∈ ready && node.isClient && !clientTargetEnrolled topo node.id ready then
      dropIdleClients (ready.filter (· ≠ node.id)) rest
    else dropIdleClients ready rest

theorem dropIdleClients_subset {topo : Topology} {ready : List String} {nodes : List Node} :
    dropIdleClients topo ready nodes ⊆ ready := by
  induction nodes generalizing ready with
  | nil => exact fun _ member => member
  | cons node rest ih =>
    rw [dropIdleClients]
    split
    · exact fun other member => (List.mem_filter.mp (ih member)).1
    · exact ih

def readyIDs : List String :=
  dropIdleClients topo ((topo.nodes.filter fun node => readyKey registry node ≠ "").map (·.id)) topo.nodes

def withReadyKey (node : Node) : Node :=
  { node with wireGuardPublicKey := readyKey registry node, wireGuardPrivateKey := "" }

/-- `enrolledSubgraph`: the ready subgraph and the managed nodes left out. -/
def enrolledSubgraph : Topology × List String :=
  let ready := readyIDs topo registry
  ({ project := topo.project, domains := topo.domains, routePolicies := topo.routePolicies
     allocSchemaVersion := topo.allocSchemaVersion
     nodes := (topo.nodes.filter fun node => node.id ∈ ready).map (withReadyKey registry)
     edges := topo.edges.filter fun edge => edge.fromNodeID ∈ ready && edge.toNodeID ∈ ready },
    (topo.nodes.filter fun node => node.id ∉ ready && !node.isManual).map (·.id))

theorem mem_subgraph_ids {topo : Topology} {registry : List RegistryNode} {id : String} :
    id ∈ (enrolledSubgraph topo registry).1.nodes.map (·.id) ↔
      id ∈ topo.nodes.map (·.id) ∧ id ∈ readyIDs topo registry := by
  simp only [enrolledSubgraph, List.map_map, List.mem_map, List.mem_filter, decide_eq_true_eq, Function.comp_apply]
  constructor
  · rintro ⟨node, ⟨member, ready⟩, rfl⟩
    exact ⟨⟨node, member, rfl⟩, ready⟩
  · rintro ⟨⟨node, member, rfl⟩, ready⟩
    exact ⟨node, ⟨member, ready⟩, rfl⟩

def projectEnrolledSubgraph : Except ManualNodeInvalid (Topology × List String) :=
  match validateManualNodes topo registry with
  | some reason => .error reason
  | none => .ok (enrolledSubgraph topo registry)

def excludedResources (edge : Edge) : Resources :=
  match topo.node? edge.fromNodeID, topo.node? edge.toNodeID with
  | some fromNode, some toNode =>
    { ports :=
        if fromNode.isClient && !toNode.isClient then
          if 0 < edge.pinnedToPort then [(edge.toNodeID, edge.pinnedToPort)] else []
        else if toNode.isClient && !fromNode.isClient then
          if 0 < edge.pinnedFromPort then [(edge.fromNodeID, edge.pinnedFromPort)] else []
        else if !fromNode.isClient && !toNode.isClient && 0 < edge.pinnedFromPort && 0 < edge.pinnedToPort then
          [(edge.fromNodeID, edge.pinnedFromPort), (edge.toNodeID, edge.pinnedToPort)]
        else []
      transit :=
        if edge.pinnedFromTransitIP ≠ "" ∧ edge.pinnedToTransitIP ≠ "" then
          let fromPool := topo.transitCIDR fromNode
          let toPool := topo.transitCIDR toNode
          [(fromPool, edge.pinnedFromTransitIP), (fromPool, edge.pinnedToTransitIP)]
            ++ if toPool = fromPool then []
              else [(toPool, edge.pinnedFromTransitIP), (toPool, edge.pinnedToTransitIP)]
        else []
      linkLocals :=
        if edge.pinnedFromLinkLocal ≠ "" ∧ edge.pinnedToLinkLocal ≠ "" then
          [edge.pinnedFromLinkLocal, edge.pinnedToLinkLocal]
        else [] }
  | _, _ => {}

def buildReservedFromExcludedEdges (includedEdgeIDs : List String) : Resources :=
  ((topo.edges.filter fun edge => edge.id ∉ includedEdgeIDs && edge.isEnabled).map
    (excludedResources topo)).foldl Resources.union {}

end

def Topology.edge? (topo : Topology) (id : String) : Option Edge :=
  topo.edges.reverse.find? fun edge => edge.id = id

def persistNode (compiled : Topology) (node : Node) : Node :=
  match compiled.node? node.id with
  | some done => if done.overlayIP ≠ "" then { node with overlayIP := done.overlayIP } else node
  | none => node

def persistEdge (compiled : Topology) (edge : Edge) : Edge :=
  match Topology.edge? compiled edge.id with
  | some done =>
    { edge with
      compiledPort := done.compiledPort
      pinnedFromPort := done.pinnedFromPort, pinnedToPort := done.pinnedToPort
      pinnedFromTransitIP := done.pinnedFromTransitIP, pinnedToTransitIP := done.pinnedToTransitIP
      pinnedFromLinkLocal := done.pinnedFromLinkLocal, pinnedToLinkLocal := done.pinnedToLinkLocal }
  | none => edge

/-- The topology that `persistAllocations` stores. -/
def persistAllocations (full compiled : Topology) : Topology :=
  { full with
    nodes := full.nodes.map (persistNode compiled)
    edges := full.edges.map (persistEdge compiled)
    allocSchemaVersion := compiled.allocSchemaVersion }

section

variable (env : Externals) (mimicFallbackDefault : MimicFallback) (keys : Keys)

/-- The compile of `CompileSubgraphWithSigner`, without rendering. -/
def compileSubgraph (full subgraph : Topology) : Except CompileError CompileResult :=
  compileAt env
    { reserved := buildReservedFromExcludedEdges full (subgraph.edges.map (·.id))
      mimicFallbackDefault } keys subgraph

def stageTopology (full : Topology) (registry : List RegistryNode) : Option Topology :=
  match projectEnrolledSubgraph full registry with
  | .error _ => none
  | .ok (subgraph, _) =>
    if subgraph.nodes = [] then some full
    else (compileSubgraph env mimicFallbackDefault keys full subgraph).toOption.map fun result =>
      persistAllocations full result.topology

end

end Yaog.Controller
