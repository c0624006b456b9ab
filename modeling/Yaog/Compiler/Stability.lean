import Yaog.Compiler.WriteBack

/-!
# Compiled topologies are stable

In a compiled topology every enabled edge carries the values of its link, all edges of a link agree,
and a later compile reads those values back before it hands out anything new.
-/

namespace Yaog.Compiler

open Allocator Net Validator List Option

def Edge.endAt (edge : Edge) (nodeID : String) : EndValues :=
  if edge.fromNodeID = nodeID then Edge.fromEnd edge else Edge.toEnd edge

/-- What a compile leaves in the edges of a topology. -/
structure Settled (topo : Topology) : Prop where
  cleared : ∀ edge ∈ topo.edges, clearClientPorts topo edge = edge
  complete : ∀ edge ∈ topo.edges, edge.isEnabled = true →
    (Edge.fromEnd edge).complete (Topology.hasClient topo edge.fromNodeID) ∧
      (Edge.toEnd edge).complete (Topology.hasClient topo edge.toNodeID)
  agree : ∀ edge ∈ topo.edges, ∀ other ∈ topo.edges, edge.isEnabled = true → other.isEnabled = true →
    edge.linkKey = other.linkKey → Edge.endAt edge other.fromNodeID = Edge.fromEnd other ∧
      Edge.endAt edge other.toNodeID = Edge.toEnd other
  compiledPort : ∀ edge ∈ topo.edges, edge.isEnabled = true → edge.endpointHost ≠ "" →
    edge.compiledPort = dialPort edge edge.pinnedToPort

section

variable {env : Externals} {topo : Topology} {reserved : Resources} {allocations : Allocations} {edge : Edge}
  {link : LinkEntity} {alloc : PairAllocation}

private theorem clearClientPorts_idem (topo : Topology) (edge : Edge) :
    clearClientPorts topo (clearClientPorts topo edge) = clearClientPorts topo edge := by
  refine clearClientPorts_eq (fun client => ?_) fun client => ?_
  · exact if_pos client
  · exact if_pos client

theorem settled_writeBack (accepted : Accepted env topo)
    (allocated : preallocateLinkResources (groupLinks topo) reserved = .ok allocations) :
    Settled (compiledTopology topo allocations) := by
  have clients : ∀ id, Topology.hasClient (compiledTopology topo allocations) id = Topology.hasClient topo id :=
    fun _ => rfl
  have origin : ∀ edge ∈ (compiledTopology topo allocations).edges, edge.isEnabled = true →
      ∃ before ∈ topo.edges, ∃ link alloc, before.isEnabled = true ∧
        Allocated topo reserved allocations before link alloc ∧
        edge = Edge.withEnds before (alloc.endAt before.fromNodeID) (alloc.endAt before.toNodeID) := by
    intro edge member enabled
    obtain ⟨before, wasMember, rfl⟩ := mem_map.mp member
    have wasEnabled : before.isEnabled = true := by
      rw [← writeBack_isEnabled topo allocations before]
      exact enabled
    obtain ⟨link, alloc, given⟩ := exists_allocated accepted allocated wasMember wasEnabled
    exact ⟨before, wasMember, link, alloc, wasEnabled, given, writeBack_eq accepted wasMember wasEnabled given⟩
  have complete : ∀ edge ∈ (compiledTopology topo allocations).edges, edge.isEnabled = true →
      (Edge.fromEnd edge).complete (Topology.hasClient topo edge.fromNodeID) ∧
        (Edge.toEnd edge).complete (Topology.hasClient topo edge.toNodeID) := by
    intro edge member enabled
    obtain ⟨before, wasMember, link, alloc, -, given, rfl⟩ := origin edge member enabled
    exact ⟨given.endAt_complete accepted wasMember (.inl rfl), given.endAt_complete accepted wasMember (.inr rfl)⟩
  constructor
  case complete => exact complete
  case cleared =>
    intro edge member
    cases enabled : edge.isEnabled with
    | true =>
      obtain ⟨fromEnd, toEnd⟩ := complete edge member enabled
      exact clearClientPorts_eq fromEnd.port_eq_zero toEnd.port_eq_zero
    | false =>
      obtain ⟨before, wasMember, rfl⟩ := mem_map.mp member
      rw [writeBack_isEnabled] at enabled
      have disabled : ¬ (clearClientPorts topo before).isEnabled = true := by
        change ¬ before.isEnabled = true
        simp [enabled]
      simp only [writeBack, disabled]
      exact clearClientPorts_idem topo before
  case agree =>
    intro edge member other member' enabled enabled' keys
    obtain ⟨before, wasMember, link, alloc, -, given, rfl⟩ := origin edge member enabled
    obtain ⟨before', wasMember', link', alloc', -, given', rfl⟩ := origin other member' enabled'
    have sameKey : before.linkKey = before'.linkKey := keys
    have sameAlloc : alloc = alloc' := by
      have lookup := given.lookup
      rw [sameKey, given'.lookup] at lookup
      exact (some.inj lookup).symm
    subst sameAlloc
    have pair := (accepted.linkKey_inj wasMember wasMember' sameKey).1
    have distinct := (accepted.edge_ends wasMember).2.2
    change (if before.fromNodeID = before'.fromNodeID then alloc.endAt before.fromNodeID
        else alloc.endAt before.toNodeID) = alloc.endAt before'.fromNodeID ∧
      (if before.fromNodeID = before'.toNodeID then alloc.endAt before.fromNodeID
        else alloc.endAt before.toNodeID) = alloc.endAt before'.toNodeID
    rcases pair with ⟨froms, tos⟩ | ⟨froms, tos⟩
    · rw [if_pos froms, if_neg (tos ▸ distinct), froms, tos]
      exact ⟨rfl, rfl⟩
    · rw [if_neg (tos ▸ distinct), if_pos froms, froms, tos]
      exact ⟨rfl, rfl⟩
  case compiledPort =>
    intro edge member enabled host
    obtain ⟨before, wasMember, link, alloc, -, given, rfl⟩ := origin edge member enabled
    exact if_neg host

theorem pinned_of_complete {link : LinkEntity}
    (fromEnd : (Edge.fromEnd link.primaryEdge).complete link.fromNode.isClient)
    (toEnd : (Edge.toEnd link.primaryEdge).complete link.toNode.isClient) (toNode : link.toNode.isClient = false) :
    pinnedPorts link = some (link.primaryEdge.pinnedFromPort, link.primaryEdge.pinnedToPort) ∧
      pinnedTransit link = some (link.primaryEdge.pinnedFromTransitIP, link.primaryEdge.pinnedToTransitIP) ∧
      pinnedLinkLocal link = some (link.primaryEdge.pinnedFromLinkLocal, link.primaryEdge.pinnedToLinkLocal) := by
  obtain ⟨fromPort, fromTransit, fromLL⟩ := fromEnd
  obtain ⟨toPort, toTransit, toLL⟩ := toEnd
  refine ⟨?_, if_pos ⟨fromTransit, toTransit⟩, if_pos ⟨fromLL, toLL⟩⟩
  simp only [toNode, Bool.false_eq_true, if_false] at toPort
  cases client : link.fromNode.isClient with
  | true =>
    simp only [client, if_true] at fromPort
    have zero : link.primaryEdge.pinnedFromPort = 0 := fromPort
    have positive : 0 < link.primaryEdge.pinnedToPort := toPort
    simp [pinnedPorts, client, toNode, zero, positive]
  | false =>
    simp only [client, Bool.false_eq_true, if_false] at fromPort
    have positive : 0 < link.primaryEdge.pinnedFromPort := fromPort
    have positive' : 0 < link.primaryEdge.pinnedToPort := toPort
    simp [pinnedPorts, client, toNode, positive, positive']

theorem expectedAllocation_pinned {done : List LinkEntity} {total : Nat} {ports : Int × Int}
    {transit linkLocal : String × String} (isPorts : pinnedPorts link = some ports)
    (isTransit : pinnedTransit link = some transit) (isLinkLocal : pinnedLinkLocal link = some linkLocal) :
    expectedAllocation reserved done total link = some
      { fromNodeID := link.fromNode.id, toNodeID := link.toNode.id
        fromPort := ports.1, toPort := ports.2
        localTransit := transit.1, remoteTransit := transit.2
        localLL := linkLocal.1, remoteLL := linkLocal.2 } := by
  simp only [expectedAllocation, expectedPorts, isPorts, expectedTransit, isTransit, expectedLinkLocal, isLinkLocal]

theorem writeBack_settled {old : Topology} (settled : Settled old) (accepted : Accepted env topo)
    (allocated : preallocateLinkResources (groupLinks topo) reserved = .ok allocations)
    (clients : ∀ edge ∈ old.edges, Topology.hasClient topo edge.fromNodeID = Topology.hasClient old edge.fromNodeID ∧
      Topology.hasClient topo edge.toNodeID = Topology.hasClient old edge.toNodeID)
    (isOld : edge ∈ old.edges) (member : edge ∈ topo.edges)
    (closed : edge.isEnabled = true → ∀ other ∈ topo.edges, other.isEnabled = true →
      other.linkKey = edge.linkKey → other ∈ old.edges) :
    writeBack topo allocations edge = edge := by
  have cleared : clearClientPorts topo edge = edge := by
    have before := settled.cleared edge isOld
    rw [clearClientPorts] at before ⊢
    rw [(clients edge isOld).1, (clients edge isOld).2]
    exact before
  cases enabled : edge.isEnabled with
  | false => simp [writeBack, cleared, enabled]
  | true =>
    obtain ⟨link, alloc, given⟩ := exists_allocated accepted allocated member enabled
    obtain ⟨inEdges, isEnabled, isFrom, isTo⟩ := groupLinks_edge given.member
    have wasOld := closed enabled link.primaryEdge inEdges isEnabled given.key
    obtain ⟨fromEnd, toEnd⟩ := settled.complete link.primaryEdge wasOld isEnabled
    rw [← (clients _ wasOld).1, hasClient_eq isFrom] at fromEnd
    rw [← (clients _ wasOld).2, hasClient_eq isTo] at toEnd
    obtain ⟨isPorts, isTransit, isLinkLocal⟩ :=
      pinned_of_complete fromEnd toEnd (groupLinks_toNode accepted given.member)
    have slots := given.expected
    rw [expectedAllocation_pinned isPorts isTransit isLinkLocal] at slots
    have ends : ∀ id, alloc.endAt id = Edge.endAt link.primaryEdge id := by
      intro id
      rw [← some.inj slots, PairAllocation.endAt, Edge.endAt, (Topology.node?_mem isFrom).2]
      rfl
    obtain ⟨atFrom, atTo⟩ := settled.agree link.primaryEdge wasOld edge isOld isEnabled enabled given.key
    rw [writeBack_eq accepted member enabled given, ends, ends, atFrom, atTo, Edge.withEnds]
    have port : (if edge.endpointHost = "" then edge.compiledPort else dialPort edge (Edge.toEnd edge).port) =
        edge.compiledPort := by
      split
      case isTrue => rfl
      case isFalse host => exact (settled.compiledPort edge isOld enabled host).symm
    rw [port]
    rfl

end

theorem withDefaults_of_accepted {env : Externals} {topo : Topology} (accepted : Accepted env topo.withDefaults) :
    topo.withDefaults = { topo with
      domains := topo.domains.map Domain.withDefaults, edges := topo.edges.map Edge.withDefaults } := by
  cases exceeds : topologyExceedsBounds topo with
  | false => simp [Topology.withDefaults, exceeds]
  | true =>
    have bounded := accepted.bounded
    simp [Topology.withDefaults, exceeds] at bounded

theorem Edge.withDefaults_eq {edge : Edge} (set : edge.transport ≠ .unset) : edge.withDefaults = edge := by
  rw [Edge.withDefaults, if_neg set]

namespace Compiles

variable {env : Externals} {settings : Settings} {keys : Keys} {input topo : Topology} {nodes : List Node}
  {allocations : Allocations} {result : CompileResult}

section

variable (run : Compiles env settings keys topo nodes allocations result) {edge : Edge}

include run

theorem allAddressed : AllAddressed topo nodes :=
  allocateIPs_allAddressed run.accepted run.addressed

theorem midAccepted : Accepted env (allocatedTopology topo nodes) :=
  allocatedTopology_accepted run.accepted run.allAddressed

theorem settled : Settled result.topology := by
  rw [run.topology]
  exact settled_writeBack run.midAccepted run.allocated

theorem result_nodes : result.topology.nodes = (allocatedTopology topo nodes).nodes := by
  rw [run.topology, compiledTopology]

theorem result_node? (id : String) : result.topology.node? id = (allocatedTopology topo nodes).node? id := by
  rw [run.topology]
  rfl

theorem result_carries : ∀ node ∈ result.topology.nodes, node.overlayIP ≠ "" := by
  intro node member
  rw [run.result_nodes] at member
  obtain ⟨after, wasAfter, rfl⟩ := mem_map.mp member
  exact run.allAddressed.carries run.accepted after wasAfter

theorem result_edge (member : edge ∈ result.topology.edges) : ∃ before ∈ topo.edges, edge.design = before.design := by
  rw [run.topology] at member
  obtain ⟨before, wasMember, rfl⟩ := mem_map.mp member
  exact ⟨before, wasMember, writeBack_design _ _ _⟩

omit run in
theorem result_transport (run : Compiles env settings keys input.withDefaults nodes allocations result) :
    ∀ edge ∈ result.topology.edges, edge.withDefaults = edge := by
  intro edge member
  obtain ⟨before, wasMember, same⟩ := run.result_edge member
  have sameTransport : edge.transport = before.transport := by
    have equal := congrArg Edge.transport same
    exact equal
  rw [withDefaults_of_accepted run.accepted] at wasMember
  obtain ⟨raw, -, rfl⟩ := mem_map.mp wasMember
  refine Edge.withDefaults_eq ?_
  rw [sameTransport, Edge.withDefaults]
  split
  case isTrue => exact nofun
  case isFalse set => exact set

theorem result_ends (member : edge ∈ result.topology.edges) :
    (∃ fromNode ∈ result.topology.nodes, result.topology.node? edge.fromNodeID = some fromNode) ∧
      ∃ toNode ∈ result.topology.nodes, result.topology.node? edge.toNodeID = some toNode := by
  obtain ⟨before, wasMember, same⟩ := run.result_edge member
  have fromID : edge.fromNodeID = before.fromNodeID := by
    rw [← Edge.design_fromNodeID, same, Edge.design_fromNodeID]
  have toID : edge.toNodeID = before.toNodeID := by rw [← Edge.design_toNodeID, same, Edge.design_toNodeID]
  obtain ⟨⟨fromNode, isFrom⟩, toNode, isTo⟩ := run.midAccepted.node?_isSome wasMember
  rw [fromID, toID, run.result_node?, run.result_node?, run.result_nodes]
  exact ⟨⟨fromNode, (Topology.node?_mem isFrom).1, isFrom⟩, toNode, (Topology.node?_mem isTo).1, isTo⟩

end

end Compiles

/-- A topology that holds every domain, node and edge of another one, at any positions. -/
structure Extends (larger old : Topology) : Prop where
  domains : old.domains ⊆ larger.domains
  nodes : old.nodes ⊆ larger.nodes
  edges : old.edges ⊆ larger.edges

def KeepsPrimaries (larger old : Topology) : Prop :=
  ∀ added ∈ larger.edges, added ∉ old.edges → isPrimaryClass added = true →
    ∀ edge ∈ old.edges, isPrimaryClass edge = true → ¬ added.samePair edge

section

variable {env : Externals} {settings settings' : Settings} {keys keys' : Keys} {input larger : Topology}
  {nodes nodes' : List Node} {allocations allocations' : Allocations} {result result' : CompileResult}

section

variable (run : Compiles env settings keys input.withDefaults nodes allocations result)
  (rerun : Compiles env settings' keys' larger.withDefaults nodes' allocations' result') {edge : Edge}

include rerun

theorem larger_nodes : larger.withDefaults.nodes = larger.nodes := by
  rw [withDefaults_of_accepted rerun.accepted]

include run

theorem old_edge_kept (larger_edges : result.topology.edges ⊆ larger.edges)
    (isOld : edge ∈ result.topology.edges) : edge ∈ (allocatedTopology larger.withDefaults nodes').edges := by
  rw [withDefaults_of_accepted rerun.accepted]
  exact mem_map.mpr ⟨edge, larger_edges isOld, run.result_transport edge isOld⟩

theorem old_clients (larger_nodes' : result.topology.nodes ⊆ larger.nodes) (isOld : edge ∈ result.topology.edges) :
    Topology.hasClient (allocatedTopology larger.withDefaults nodes') edge.fromNodeID =
        Topology.hasClient result.topology edge.fromNodeID ∧
      Topology.hasClient (allocatedTopology larger.withDefaults nodes') edge.toNodeID =
        Topology.hasClient result.topology edge.toNodeID := by
  have same : ∀ id, (∃ node ∈ result.topology.nodes, result.topology.node? id = some node) →
      Topology.hasClient (allocatedTopology larger.withDefaults nodes') id = Topology.hasClient result.topology id := by
    rintro id ⟨node, member, found⟩
    have isID := (Topology.node?_mem found).2
    have kept : node ∈ larger.withDefaults.nodes := by
      rw [larger_nodes rerun]
      exact larger_nodes' member
    have before := rerun.accepted.node?_eq kept
    rw [isID] at before
    have designs := Topology.bare_node? (allocatedTopology larger.withDefaults nodes') id
    rw [allocatedTopology_bare rerun.allAddressed, Topology.bare_node?, before, map_some] at designs
    obtain ⟨after, isAfter, sameDesign⟩ := map_eq_some_iff.mp designs.symm
    rw [hasClient_eq isAfter, hasClient_eq found, ← Node.design_isClient, sameDesign, Node.design_isClient]
  obtain ⟨fromEnd, toEnd⟩ := run.result_ends isOld
  exact ⟨same _ fromEnd, same _ toEnd⟩

theorem old_link_closed (extends_ : Extends larger result.topology) (separate : KeepsPrimaries larger result.topology)
    {other : Edge} (isOld : edge ∈ result.topology.edges) (enabled : edge.isEnabled = true)
    (member : other ∈ (allocatedTopology larger.withDefaults nodes').edges) (enabled' : other.isEnabled = true)
    (keys : other.linkKey = edge.linkKey) : other ∈ result.topology.edges := by
  have inLarger := old_edge_kept run rerun extends_.edges isOld
  obtain ⟨pair, backups, ids⟩ := rerun.midAccepted.linkKey_inj member inLarger keys
  cases backup : other.isBackup with
  | true =>
    have same := inj_on_of_nodup_map rerun.midAccepted.edgeIDs_nodup member inLarger (ids backup)
    rw [same]
    exact isOld
  | false =>
    rw [withDefaults_of_accepted rerun.accepted] at member
    obtain ⟨raw, isRaw, rfl⟩ := mem_map.mp member
    by_cases wasOld : raw ∈ result.topology.edges
    · rw [run.result_transport raw wasOld]
      exact wasOld
    · have primary : isPrimaryClass raw = true := by
        change (raw.withDefaults.isEnabled && !raw.withDefaults.isBackup) = true
        simp [enabled', backup]
      have primary' : isPrimaryClass edge = true := by
        simp [isPrimaryClass, enabled, ← backups, backup]
      exact absurd pair (separate raw isRaw wasOld primary edge isOld primary')

theorem old_edge_unchanged (extends_ : Extends larger result.topology)
    (separate : KeepsPrimaries larger result.topology) (isOld : edge ∈ result.topology.edges) :
    writeBack (allocatedTopology larger.withDefaults nodes') allocations' edge = edge :=
  writeBack_settled run.settled rerun.midAccepted rerun.allocated
    (fun _ wasOld => old_clients run rerun extends_.nodes wasOld) isOld (old_edge_kept run rerun extends_.edges isOld)
    fun enabled _ inLarger enabled' same => old_link_closed run rerun extends_ separate isOld enabled inLarger enabled' same

theorem old_node_kept (larger_nodes' : result.topology.nodes ⊆ larger.nodes) {node : Node}
    (isOld : node ∈ result.topology.nodes) :
    ∃ kept ∈ result'.topology.nodes, kept.id = node.id ∧ kept.overlayIP = node.overlayIP := by
  have inLarger : node ∈ larger.withDefaults.nodes := by
    rw [larger_nodes rerun]
    exact larger_nodes' isOld
  obtain ⟨after, isAfter, step⟩ := forall₂_origin rerun.allAddressed.addressed.flip inLarger
  refine ⟨withInferredCapabilities after, ?_, ?_, step.kept (run.result_carries node isOld)⟩
  · rw [rerun.result_nodes]
    exact mem_map_of_mem isAfter
  · change after.id = node.id
    rw [step.same]

end

/-- Superset stability: a compile of a topology that extends a compiled one keeps the overlay address of
every old node and the pins and the compiled port of every old enabled edge. -/
theorem superset_stability (compiled : compileAt env settings keys input = .ok result)
    (extends_ : Extends larger result.topology) (separate : KeepsPrimaries larger result.topology)
    (recompiled : compileAt env settings' keys' larger = .ok result') :
    (∀ node ∈ result.topology.nodes, (∃ kept ∈ result'.topology.nodes, kept.id = node.id) ∧
      ∀ kept ∈ result'.topology.nodes, kept.id = node.id → kept.overlayIP = node.overlayIP) ∧
    ∀ edge ∈ result.topology.edges, edge.isEnabled = true →
      (∃ kept ∈ result'.topology.edges, kept.id = edge.id) ∧
      ∀ kept ∈ result'.topology.edges, kept.id = edge.id →
        Edge.fromEnd kept = Edge.fromEnd edge ∧ Edge.toEnd kept = Edge.toEnd edge ∧
          kept.compiledPort = edge.compiledPort := by
  obtain ⟨nodes, allocations, run⟩ := compileAt_ok compiled
  obtain ⟨nodes', allocations', rerun⟩ := compileAt_ok recompiled
  constructor
  · intro node isOld
    obtain ⟨kept, member, sameID, sameIP⟩ := old_node_kept run rerun extends_.nodes isOld
    refine ⟨⟨kept, member, sameID⟩, fun other isOther otherID => ?_⟩
    rw [rerun.result_nodes] at member isOther
    rw [← sameIP, inj_on_of_nodup_map rerun.midAccepted.nodeIDs_nodup isOther member (otherID.trans sameID.symm)]
  · intro edge isOld _
    have unchanged := old_edge_unchanged run rerun extends_ separate isOld
    have inLarger := old_edge_kept run rerun extends_.edges isOld
    rw [rerun.topology]
    refine ⟨⟨edge, mem_map.mpr ⟨edge, inLarger, unchanged⟩, rfl⟩, fun other isOther otherID => ?_⟩
    obtain ⟨before, wasMember, rfl⟩ := mem_map.mp isOther
    have beforeID : before.id = edge.id := by
      rw [← otherID, ← Edge.design_id before, ← writeBack_design, Edge.design_id]
    rw [inj_on_of_nodup_map rerun.midAccepted.edgeIDs_nodup wasMember inLarger beforeID, unchanged]
    exact ⟨rfl, rfl, rfl⟩

end

def sampleEnv : Externals where
  sha256 := fun _ _ => 0
  quote := id
  validateProbes := fun _ => none

def sampleRouter (id domainID : String) : Node where
  id := id
  name := id
  role := .router
  domainID := domainID
  capabilities := { hasPublicIP := true }

def sampleEdge (id fromNodeID toNodeID : String) : Edge where
  id := id
  fromNodeID := fromNodeID
  toNodeID := toNodeID
  type := .direct
  endpointHost := "h"

/-- Two routers of one domain and a link between them. -/
def samplePair : Topology where
  project := { id := "p", name := "p" }
  domains := [{ id := "d1", name := "d1", cidr := "10.11.0.0/24" }]
  nodes := [sampleRouter "a" "d1", sampleRouter "b" "d1"]
  edges := [sampleEdge "e1" "a" "b"]

abbrev sampleCompile (topo : Topology) : Except CompileError CompileResult :=
  compileAt sampleEnv {} (fun _ => none) topo

theorem exists_ok {ε α : Type} {attempt : Except ε α} (evaluated : attempt.toOption.isSome = true) :
    ∃ value, attempt = .ok value := by
  cases attempt with
  | error reason => cases evaluated
  | ok value => exact ⟨value, rfl⟩

theorem ok_of_view {ε α β : Type} {attempt : Except ε α} {view : α → β} {seen : β}
    (evaluated : attempt.toOption.map view = some seen) : ∃ value, attempt = .ok value ∧ view value = seen := by
  cases attempt with
  | error reason => cases evaluated
  | ok value => exact ⟨value, rfl, some.inj evaluated⟩

def samplePairCompiled : Topology :=
  { samplePair with
    domains := samplePair.domains.map Domain.withDefaults
    nodes := [{ sampleRouter "a" "d1" with
        overlayIP := "10.11.0.1"
        capabilities := { canAcceptInbound := true, canForward := true, hasPublicIP := true } },
      { sampleRouter "b" "d1" with
        overlayIP := "10.11.0.2"
        capabilities := { canAcceptInbound := true, canForward := true, hasPublicIP := true } }]
    edges := [{ sampleEdge "e1" "a" "b" with
      transport := .udp, compiledPort := 51820, pinnedFromPort := 51820, pinnedToPort := 51820
      pinnedFromTransitIP := "10.10.0.1", pinnedToTransitIP := "10.10.0.2"
      pinnedFromLinkLocal := "fe80::1", pinnedToLinkLocal := "fe80::2" }]
    allocSchemaVersion := 1 }

/-- A third router and its link, put in front. -/
def sampleGrown : Topology :=
  { samplePairCompiled with
    nodes := sampleRouter "c" "d1" :: samplePairCompiled.nodes
    edges := sampleEdge "e0" "c" "a" :: samplePairCompiled.edges }

theorem samplePair_compiles : ∃ result, sampleCompile samplePair = .ok result ∧ result.topology = samplePairCompiled :=
  ok_of_view (by decide +kernel)

theorem superset_stability_sample : ∃ result result',
    sampleCompile samplePair = .ok result ∧ sampleCompile sampleGrown = .ok result' ∧
    ∀ edge ∈ result.topology.edges, edge.isEnabled = true → ∀ kept ∈ result'.topology.edges,
      kept.id = edge.id → Edge.fromEnd kept = Edge.fromEnd edge ∧ Edge.toEnd kept = Edge.toEnd edge ∧
        kept.compiledPort = edge.compiledPort := by
  obtain ⟨result, compiled, isResult⟩ := samplePair_compiles
  obtain ⟨result', recompiled⟩ : ∃ result', sampleCompile sampleGrown = .ok result' := exists_ok (by decide +kernel)
  have holds : Extends sampleGrown result.topology := by
    rw [isResult]
    exact ⟨List.Subset.refl _, subset_cons_self _ _, subset_cons_self _ _⟩
  have separate : KeepsPrimaries sampleGrown result.topology := by
    rw [isResult]
    unfold KeepsPrimaries
    decide
  refine ⟨result, result', compiled, recompiled, fun edge isOld enabled kept => ?_⟩
  exact ((superset_stability compiled holds separate recompiled).2 edge isOld enabled).2 kept

end Yaog.Compiler
