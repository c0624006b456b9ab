import Yaog.Compiler.Windows

/-!
# Allocation does not read the policy of an edge

Direction, transport, fallback, endpoint, priority and weight of an edge reach the peers and the rendered files.
-/

namespace Yaog.Compiler

open Allocator Net Validator List

def Edge.withoutPolicy (edge : Edge) : Edge :=
  { edge with
    linkDirection := .unset, mimicFallback := .inherit, transport := .unset
    endpointHost := "", endpointPort := 0, priority := 0, weight := 0 }

def Topology.withoutPolicy (topo : Topology) : Topology := Topology.mapEdges topo Edge.withoutPolicy

def Edge.pins (edge : Edge) : String × EndValues × EndValues := (edge.id, Edge.fromEnd edge, Edge.toEnd edge)

theorem withoutPolicy_keepsLink : KeepsLink Edge.withoutPolicy where
  isEnabled := fun _ => rfl
  fromNodeID := fun _ => rfl
  toNodeID := fun _ => rfl
  linkKey := fun _ => rfl

theorem withDefaults_withoutPolicy {env : Externals} {topo : Topology} (accepted : Accepted env topo.withDefaults) :
    Topology.withoutPolicy topo.withDefaults =
      { Topology.withoutPolicy topo with domains := topo.domains.map Domain.withDefaults } := by
  have edges : (topo.edges.map Edge.withDefaults).map Edge.withoutPolicy = topo.edges.map Edge.withoutPolicy := by
    rw [map_map]
    exact map_congr_left fun edge _ => rfl
  rw [withDefaults_of_accepted accepted, Topology.withoutPolicy, Topology.mapEdges, edges]
  rfl

section

variable (links : List LinkEntity) (reserved : Resources)

theorem fillLinks_withoutPolicy (used : Resources) :
    fillLinks used (links.map (LinkEntity.mapEdge Edge.withoutPolicy)) = fillLinks used links := by
  induction links generalizing used with
  | nil => rfl
  | cons link rest ih =>
    have round : fillLink used (LinkEntity.mapEdge Edge.withoutPolicy link) = fillLink used link := rfl
    have key : (LinkEntity.mapEdge Edge.withoutPolicy link).linkKey = link.linkKey := rfl
    simp only [map_cons, fillLinks, round, key, ih]

theorem reservePins_withoutPolicy :
    reservePins reserved (links.map (LinkEntity.mapEdge Edge.withoutPolicy)) = reservePins reserved links := by
  rw [reservePins_eq, reservePins_eq, flatMap_map, flatMap_map, flatMap_map]
  rfl

theorem sortLinks_withoutPolicy : sortLinks (links.map (LinkEntity.mapEdge Edge.withoutPolicy)) =
    (sortLinks links).map (LinkEntity.mapEdge Edge.withoutPolicy) := by
  exact (map_insertionSort _ _ (LinkEntity.mapEdge Edge.withoutPolicy) links fun _ _ _ _ => Iff.rfl).symm

theorem preallocate_withoutPolicy :
    preallocateLinkResources (links.map (LinkEntity.mapEdge Edge.withoutPolicy)) reserved =
      preallocateLinkResources links reserved := by
  rw [preallocateLinkResources, reservePins_withoutPolicy, sortLinks_withoutPolicy, fillLinks_withoutPolicy,
    preallocateLinkResources]

end

theorem withCompiledPort_pins (edge : Edge) (port : Int) :
    Edge.pins (Edge.withCompiledPort edge port) = Edge.pins edge := by
  rw [Edge.withCompiledPort]
  split <;> rfl

theorem writeBack_pins (topo : Topology) (allocations : Allocations) (edge : Edge) :
    Edge.pins (writeBack (Topology.withoutPolicy topo) allocations (Edge.withoutPolicy edge)) =
      Edge.pins (writeBack topo allocations edge) := by
  have enabled : (clearClientPorts (Topology.withoutPolicy topo) (Edge.withoutPolicy edge)).isEnabled =
      (clearClientPorts topo edge).isEnabled := rfl
  have key : (clearClientPorts (Topology.withoutPolicy topo) (Edge.withoutPolicy edge)).linkKey =
      (clearClientPorts topo edge).linkKey := rfl
  simp only [writeBack, enabled, key]
  split
  case isFalse => rfl
  case isTrue =>
    split
    case h_1 => rfl
    case h_2 =>
      rw [withCompiledPort_pins, withCompiledPort_pins]
      rfl

theorem compiledTopology_pins (topo : Topology) (allocations : Allocations) :
    (compiledTopology (Topology.withoutPolicy topo) allocations).edges.map Edge.pins =
      (compiledTopology topo allocations).edges.map Edge.pins := by
  change ((topo.edges.map Edge.withoutPolicy).map _).map _ = (topo.edges.map _).map _
  rw [map_map, map_map, map_map]
  exact map_congr_left fun edge _ => writeBack_pins topo allocations edge

theorem Compiles.withoutPolicy {env : Externals} {settings : Settings} {keys : Keys} {topo : Topology}
    {nodes : List Node} {allocations : Allocations} {result : CompileResult}
    (run : Compiles env settings keys topo nodes allocations result) :
    allocateIPs (Topology.withoutPolicy topo) = .ok nodes ∧
      preallocateLinkResources (groupLinks (allocatedTopology (Topology.withoutPolicy topo) nodes)) settings.reserved =
        .ok allocations ∧
      result.topology.nodes = (allocatedTopology (Topology.withoutPolicy topo) nodes).nodes ∧
      result.topology.edges.map Edge.pins =
        (compiledTopology (allocatedTopology (Topology.withoutPolicy topo) nodes) allocations).edges.map Edge.pins := by
  have links := groupLinks_mapEdges withoutPolicy_keepsLink (allocatedTopology topo nodes)
  have pins := compiledTopology_pins (allocatedTopology topo nodes) allocations
  have addressed : allocateIPs (Topology.withoutPolicy topo) = allocateIPs topo := allocateIPs_congr rfl rfl
  have allocated := run.allocated
  rw [← preallocate_withoutPolicy, ← links] at allocated
  refine ⟨addressed.trans run.addressed, allocated, run.result_nodes, ?_⟩
  rw [run.topology, ← pins]
  rfl

/-- Two topologies that differ in the policy fields of their edges only are given the same overlay addresses and the
same pins. -/
theorem allocation_ignores_policy {env : Externals} {settings : Settings} {keys : Keys} {input input' : Topology}
    {result result' : CompileResult} (same : Topology.withoutPolicy input = Topology.withoutPolicy input')
    (compiled : compileAt env settings keys input = .ok result)
    (compiled' : compileAt env settings keys input' = .ok result') :
    result.topology.nodes.map (fun node => (node.id, node.overlayIP)) =
        result'.topology.nodes.map (fun node => (node.id, node.overlayIP)) ∧
      result.topology.edges.map Edge.pins = result'.topology.edges.map Edge.pins := by
  obtain ⟨nodes, allocations, run⟩ := compileAt_ok compiled
  obtain ⟨nodes', allocations', run'⟩ := compileAt_ok compiled'
  have domains : (Topology.withoutPolicy input).domains = (Topology.withoutPolicy input').domains := by rw [same]
  have topologies : Topology.withoutPolicy input.withDefaults = Topology.withoutPolicy input'.withDefaults := by
    rw [withDefaults_withoutPolicy run.accepted, withDefaults_withoutPolicy run'.accepted, same]
    exact congrArg (fun domains => { Topology.withoutPolicy input' with
      domains := domains.map Domain.withDefaults }) domains
  obtain ⟨addressed, allocated, newNodes, newPins⟩ := run.withoutPolicy
  obtain ⟨addressed', allocated', newNodes', newPins'⟩ := run'.withoutPolicy
  rw [← topologies] at addressed' allocated' newNodes' newPins'
  obtain rfl : nodes = nodes' := Except.ok.inj (addressed.symm.trans addressed')
  obtain rfl : allocations = allocations' := Except.ok.inj (allocated.symm.trans allocated')
  have sameNodes : result.topology.nodes = result'.topology.nodes := newNodes.trans newNodes'.symm
  exact ⟨by rw [sameNodes], newPins.trans newPins'.symm⟩

/-- The link of `samplePair` over TCP, to another endpoint and one way. -/
def samplePairPolicy : Topology :=
  { samplePair with
    edges := [{ sampleEdge "e1" "a" "b" with
      transport := .tcp, endpointHost := "g", endpointPort := 4000, priority := 3, weight := 5
      linkDirection := .forward }] }

theorem samplePair_policy_ignored : ∃ result result',
    sampleCompile samplePair = .ok result ∧
    sampleCompile samplePairPolicy = .ok result' ∧
    result.topology.edges.map Edge.pins = result'.topology.edges.map Edge.pins := by
  obtain ⟨result, compiled, -⟩ := samplePair_compiles
  obtain ⟨result', compiled'⟩ : ∃ result', sampleCompile samplePairPolicy = .ok result' := exists_ok (by decide +kernel)
  have same : Topology.withoutPolicy samplePair = Topology.withoutPolicy samplePairPolicy := rfl
  exact ⟨result, result', compiled, compiled', (allocation_ignores_policy same compiled compiled').2⟩

end Yaog.Compiler
