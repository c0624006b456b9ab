import Yaog.Compiler.PortOwnership

/-!
# What the compiled port of an edge says

The write-back puts into every enabled edge with a host the port its own override and the allocation of its link give.
-/

namespace Yaog.Compiler

open Allocator Net Validator Option

/-- A node reaches the other end of a link at `endpoint`: in its one peer over the link, or in its one configuration
if it is a client. -/
def ReachesAt (env : Externals) (result : CompileResult) (link : ResolvedEdge) (nodeID endpoint : String) : Prop :=
  if Topology.hasClient result.topology nodeID then
    ∃ config, result.clientConfigs.filter (fun config => config.nodeID = nodeID) = [config] ∧
      config.routerEndpoint = endpoint
  else ∃ peer, peersOver env result.peers link nodeID = [peer] ∧ peer.endpoint = endpoint

def CompiledPortsTold (env : Externals) (result : CompileResult) : Prop :=
  ∀ edge ∈ result.topology.edges, edge.isEnabled = true → edge.endpointHost ≠ "" →
    ∃ link ∈ result.topology.firstEdges, link.linkKey = edge.linkKey ∧
      ReachesAt env result link edge.fromNodeID (formatEndpoint edge.endpointHost edge.compiledPort)

/-- Where a node dials over a link: the from-end through the edge that represents the link, the to-end the other way. -/
def linkTarget (topo : Topology) (link : LinkEntity) (nodeID : String) : Option DialTarget :=
  if link.primaryEdge.fromNodeID = nodeID then forwardTarget link.primaryEdge
  else reverseTarget topo link.primaryEdge link.fromNode

def portAcross (link : LinkEntity) (ports : Int × Int) (nodeID : String) : Int :=
  if link.primaryEdge.fromNodeID = nodeID then ports.2 else ports.1

/-- A target has the host of an edge and, in front of the same port, the same port to dial. -/
structure DialTarget.Serves (target : DialTarget) (edge : Edge) (remotePort : Int) : Prop where
  host : target.host = edge.endpointHost
  port : (if 0 < target.port then target.port else remotePort) = dialPort edge remotePort

def EdgesServed (reserved : Resources) (topo : Topology) : Prop :=
  ∀ edge ∈ topo.edges, edge.isEnabled = true → edge.endpointHost ≠ "" →
    ∃ link ∈ groupLinks topo, link.linkKey = edge.linkKey ∧
      ∃ target, linkTarget topo link edge.fromNodeID = some target ∧
        ∃ ports, TakesPorts reserved (groupLinks topo) link ports ∧
          target.Serves edge (portAcross link ports edge.fromNodeID)

theorem endpointText_eq_iff {target : Option DialTarget} {edge : Edge} {remotePort : Int} (positive : 0 ≤ remotePort) :
    endpointText target remotePort = formatEndpoint edge.endpointHost (dialPort edge remotePort) ↔
      ∃ found, target = some found ∧ found.Serves edge remotePort := by
  have dialed : ∀ port : Int, 0 ≤ if 0 < port then port else remotePort := by
    intro port
    split <;> omega
  cases target with
  | none =>
    constructor
    · intro empty
      exact absurd empty.symm (formatEndpoint_ne _ _)
    · rintro ⟨found, missing, -⟩
      cases missing
  | some found =>
    simp only [some.injEq, exists_eq_left']
    refine (formatEndpoint_inj (dialed found.port) (dialed edge.endpointPort)).trans ?_
    constructor
    · rintro ⟨host, port⟩
      exact ⟨host, port⟩
    · rintro ⟨host, port⟩
      exact ⟨host, port⟩

section

variable {env : Externals} {fallback : MimicFallback} {keys : Keys} {topo : Topology} {reserved : Resources}
  {allocations : Allocations} {peers : Peers} {link : ResolvedEdge} {alloc : PairAllocation} {edge : Edge}

theorem client_edge (accepted : Accepted env topo) (first : link ∈ topo.firstEdges)
    (client : link.fromNode.isClient = true) (member : edge ∈ topo.edges) (enabled : edge.isEnabled = true)
    (key : edge.linkKey = link.linkKey) : edge = link.edge := by
  have resolved := firstEdges_resolved first
  obtain ⟨inEdges, -, isFrom, -⟩ := mem_resolvedEdges.mp resolved
  obtain ⟨fromNode, toNode, -, isTo, isLink⟩ := accepted.resolve_eq member enabled
  have other := List.mem_filterMap.mpr ⟨edge, member, isLink⟩
  rcases (accepted.linkKey_inj inEdges member key.symm).1 with ⟨froms, -⟩ | ⟨froms, -⟩
  · exact accepted.client_edge_unique resolved other client froms.symm
  · -- no edge ends at a client
    rw [froms, isTo] at isFrom
    have notClient := accepted.toNode_not_client other
    rw [some.inj isFrom, client] at notClient
    cases notClient

theorem Derives.peersOver_edge (derives : Derives env fallback keys topo reserved peers allocations)
    (first : link ∈ topo.firstEdges)
    (given : LinkAllocated topo reserved allocations link alloc)
    (inferred : Inferred link.fromNode) (notClient : link.fromNode.isClient = false)
    (member : edge ∈ topo.edges) (key : edge.linkKey = link.linkKey) :
    ∃ peer, peersOver env peers link edge.fromNodeID = [peer] ∧
      peer.endpoint = endpointText (linkTarget topo (linkEntity topo link) edge.fromNodeID)
        (portAcross (linkEntity topo link) (alloc.fromPort, alloc.toPort) edge.fromNodeID) := by
  have resolved := firstEdges_resolved first
  obtain ⟨inEdges, -, -, -⟩ := mem_resolvedEdges.mp resolved
  obtain ⟨fromID, toID⟩ := resolved_ids resolved
  have toNotClient := derives.accepted.toNode_not_client resolved
  have ends := (derives.accepted.edge_ends inEdges).2.2
  have representative : (linkEntity topo link).primaryEdge = link.edge := rfl
  rw [linkTarget, portAcross, representative]
  rcases (derives.accepted.linkKey_inj inEdges member key.symm).1 with ⟨froms, -⟩ | ⟨-, tos⟩
  · rw [if_pos froms, if_pos froms, ← froms, ← fromID]
    exact ⟨_, derives.peersOver_from first given notClient, forwardPeer_endpoint _ _ _ _ _ toNotClient⟩
  · rw [← tos, if_neg ends, if_neg ends, ← toID]
    refine ⟨_, derives.peersOver_to first given, ?_⟩
    rw [toPeer, notClient, if_neg Bool.false_ne_true]
    exact reversePeer_endpoint env fallback keys alloc resolved inferred

theorem writeBack_compiledPort (accepted : Accepted env topo)
    (given : LinkAllocated topo reserved allocations link alloc) (member : edge ∈ topo.edges)
    (enabled : edge.isEnabled = true) (key : edge.linkKey = link.linkKey) (host : edge.endpointHost ≠ "") :
    (writeBack topo allocations edge).compiledPort =
      dialPort edge (portAcross (linkEntity topo link) (alloc.fromPort, alloc.toPort) edge.fromNodeID) := by
  obtain ⟨inEdges, -, isFrom, -⟩ := groupLinks_edge given.member
  have ends := (accepted.edge_ends inEdges).2.2
  have fromID : alloc.fromNodeID = (linkEntity topo link).primaryEdge.fromNodeID :=
    given.filled.fromNodeID.trans (Topology.node?_mem isFrom).2
  have own : Allocated topo reserved allocations edge (linkEntity topo link) alloc :=
    ⟨given.member, key.symm, (congrArg (lookupAllocation allocations) key).trans given.lookup, given.expected⟩
  rw [writeBack_eq accepted member enabled own, Edge.withEnds]
  simp only [if_neg host, PairAllocation.endAt, portAcross, fromID]
  rcases own.samePair accepted member with ⟨froms, tos⟩ | ⟨froms, tos⟩
  · rw [if_pos froms, ← tos, if_neg ends]
  · rw [if_pos froms, ← tos, if_neg ends]

theorem Allocated.portAcross_nonneg (given : LinkAllocated topo reserved allocations link alloc)
    (nodeID : String) : 0 ≤ portAcross (linkEntity topo link) (alloc.fromPort, alloc.toPort) nodeID := by
  have fromPort := given.filled.fromPort
  have toPort := given.filled.toPort
  rw [portAcross]
  split at fromPort <;> split at toPort <;> split <;> omega

end

section

variable {env : Externals} {settings : Settings} {keys : Keys} {topo : Topology} {nodes : List Node}
  {allocations : Allocations} {result : CompileResult} {link : ResolvedEdge} {alloc : PairAllocation} {edge : Edge}

theorem Compiles.reachesAt_iff (run : Compiles env settings keys topo nodes allocations result)
    (first : link ∈ (allocatedTopology topo nodes).firstEdges)
    (given : Allocated (allocatedTopology topo nodes) settings.reserved allocations link.edge
      (linkEntity (allocatedTopology topo nodes) link) alloc)
    (member : edge ∈ topo.edges) (enabled : edge.isEnabled = true) (key : edge.linkKey = link.linkKey)
    (host : edge.endpointHost ≠ "") :
    ReachesAt env result (ResolvedEdge.writtenBack (allocatedTopology topo nodes) allocations link) edge.fromNodeID
        (formatEndpoint edge.endpointHost (writeBack (allocatedTopology topo nodes) allocations edge).compiledPort) ↔
      ∃ target, linkTarget (allocatedTopology topo nodes) (linkEntity (allocatedTopology topo nodes) link)
          edge.fromNodeID = some target ∧
        target.Serves edge (portAcross (linkEntity (allocatedTopology topo nodes) link) (alloc.fromPort, alloc.toPort)
          edge.fromNodeID) := by
  have derives := run.derives
  have resolved := firstEdges_resolved first
  obtain ⟨-, -, isFrom, -⟩ := mem_resolvedEdges.mp resolved
  obtain ⟨fromNode, toNode, isFrom', -, isLink⟩ := derives.accepted.resolve_eq member enabled
  have sameClients : Topology.hasClient result.topology edge.fromNodeID = fromNode.isClient := by
    rw [run.topology]
    exact hasClient_eq isFrom'
  rw [ReachesAt, sameClients, writeBack_compiledPort derives.accepted given member enabled key host]
  cases client : link.fromNode.isClient with
  | true =>
    obtain rfl := client_edge derives.accepted first client member enabled key
    obtain rfl : fromNode = link.fromNode := mem_unique isFrom' isFrom
    obtain ⟨config, single, endpoint⟩ := clientConfig_of_link settings.mimicFallbackDefault keys derives.accepted
      first given client
    have across : portAcross (linkEntity (allocatedTopology topo nodes) link) (alloc.fromPort, alloc.toPort)
        link.edge.fromNodeID = alloc.toPort := if_pos rfl
    have target : linkTarget (allocatedTopology topo nodes) (linkEntity (allocatedTopology topo nodes) link)
        link.edge.fromNodeID = some (Edge.dialTarget link.edge) := (if_pos rfl).trans (if_neg host)
    rw [client, if_pos rfl, run.clientConfigs, ← (resolved_ids resolved).1, single, (resolved_ids resolved).1,
      target, across]
    constructor
    · intro _
      exact ⟨_, rfl, rfl, rfl⟩
    · intro _
      exact ⟨config, rfl, endpoint⟩
  | false =>
    have notClient : fromNode.isClient = false := by
      obtain ⟨inEdges, -, -, isTo⟩ := mem_resolvedEdges.mp resolved
      rcases (derives.accepted.linkKey_inj inEdges member key.symm).1 with ⟨froms, -⟩ | ⟨-, tos⟩
      · rw [froms, isFrom'] at isFrom
        rwa [some.inj isFrom]
      · rw [tos, isFrom'] at isTo
        rw [some.inj isTo]
        exact derives.accepted.toNode_not_client resolved
    obtain ⟨peer, single, endpoint⟩ := derives.peersOver_edge first given
      (allocatedTopology_inferred (Topology.node?_mem isFrom).1) client member key
    rw [notClient, if_neg Bool.false_ne_true, peersOver_writtenBack, single]
    simp only [List.cons.injEq, and_true, exists_eq_left', endpoint]
    exact endpointText_eq_iff (given.portAcross_nonneg _)

theorem linkTarget_congr {link link' : LinkEntity} (same : link'.bare = link.bare) (nodeID : String) :
    linkTarget (allocatedTopology topo nodes) link' nodeID = linkTarget topo link nodeID := by
  have endpoints : link'.bare.fromNode.publicEndpoints = link.bare.fromNode.publicEndpoints := by rw [same]
  have sameEndpoints : link'.fromNode.publicEndpoints = link.fromNode.publicEndpoints := endpoints
  rw [linkTarget, linkTarget, LinkEntity.edge_of_bare same, reverseTarget, reverseTarget, sameEndpoints]
  rfl

/-- In a compile, the compiled port of every edge is that of the rendered endpoint exactly when every edge is served
by the target of its link and direction. -/
theorem compiled_ports_told_iff {input : Topology} (compiled : compileAt env settings keys input = .ok result) :
    CompiledPortsTold env result ↔ EdgesServed settings.reserved input.withDefaults := by
  obtain ⟨nodes, allocations, run⟩ := compileAt_ok compiled
  have derives := run.derives
  have links := allocated_groupLinks run.allAddressed
  constructor
  · intro told edge member enabled host
    have written : writeBack (allocatedTopology input.withDefaults nodes) allocations edge ∈ result.topology.edges := by
      rw [run.topology]
      exact List.mem_map_of_mem member
    obtain ⟨found, isFirst, key, reaches⟩ := told _ written (by rwa [writeBack_isEnabled])
      (by rwa [writeBack_endpointHost])
    rw [run.topology, compiled_firstEdges] at isFirst
    obtain ⟨resolved, first, rfl⟩ := List.mem_map.mp isFirst
    rw [writtenBack_linkKey, writeBack_linkKey] at key
    rw [writeBack_fromNodeID, writeBack_endpointHost] at reaches
    obtain ⟨alloc, given⟩ := derives.given first
    obtain ⟨target, isTarget, serves⟩ := (run.reachesAt_iff first given member enabled key.symm host).mp reaches
    obtain ⟨link, inLinks, same⟩ := exists_input_link run.allAddressed first
    have primary : resolved.edge = link.primaryEdge := LinkEntity.edge_of_bare same
    refine ⟨link, inLinks, ?_, target, ?_, (alloc.fromPort, alloc.toPort), ?_, ?_⟩
    · rw [← key, LinkEntity.linkKey, ← primary]
      rfl
    · rw [← linkTarget_congr same, isTarget]
    · rw [takesPorts_congr links.symm same.symm, given.takesPorts_iff]
    · rw [portAcross, ← primary]
      exact serves
  · intro served written isWritten enabled host
    rw [run.topology] at isWritten
    obtain ⟨edge, member, rfl⟩ := List.mem_map.mp isWritten
    rw [writeBack_isEnabled] at enabled
    rw [writeBack_endpointHost] at host
    obtain ⟨link, inLinks, key, target, isTarget, ports, taken, serves⟩ := served edge member enabled host
    obtain ⟨resolved, first, same⟩ := exists_allocated_first run.allAddressed inLinks
    obtain ⟨alloc, given⟩ := derives.given first
    have primary : resolved.edge = link.primaryEdge := LinkEntity.edge_of_bare same
    have sameKey : edge.linkKey = resolved.linkKey := by
      rw [← key, LinkEntity.linkKey, ← primary]
      rfl
    rw [takesPorts_congr links.symm same.symm, given.takesPorts_iff] at taken
    subst taken
    refine ⟨ResolvedEdge.writtenBack (allocatedTopology input.withDefaults nodes) allocations resolved, ?_, ?_, ?_⟩
    · rw [run.topology, compiled_firstEdges]
      exact List.mem_map_of_mem first
    · rw [writtenBack_linkKey, writeBack_linkKey, sameKey]
    · rw [writeBack_fromNodeID, writeBack_endpointHost, run.reachesAt_iff first given member enabled sameKey host,
        linkTarget_congr same, isTarget]
      refine ⟨target, rfl, ?_⟩
      rw [portAcross, ← primary] at serves
      exact serves

end

/-- An edge each way, the second with a port for its direction. -/
def sampleBothWays : Topology :=
  { samplePair with
    edges := [{ sampleEdge "e1" "a" "b" with transport := .udp },
      { sampleEdge "e2" "b" "a" with transport := .udp, endpointPort := 40000 }] }

theorem sampleBothWays_told : ∃ result, sampleCompile sampleBothWays = .ok result ∧
    CompiledPortsTold sampleEnv result := by
  obtain ⟨result, compiled⟩ : ∃ result, sampleCompile sampleBothWays = .ok result := exists_ok (by decide +kernel)
  refine ⟨result, compiled, (compiled_ports_told_iff compiled).mpr ?_⟩
  have evaluated : ∀ edge ∈ sampleBothWays.withDefaults.edges, ∃ link ∈ groupLinks sampleBothWays.withDefaults,
      link.linkKey = edge.linkKey ∧ linkTarget sampleBothWays.withDefaults link edge.fromNodeID =
        some (Edge.dialTarget edge) ∧
        expectedPorts (reservePins {} (groupLinks sampleBothWays.withDefaults))
          (earlierLinks (groupLinks sampleBothWays.withDefaults) link) link = some (51820, 51820) := by
    decide +kernel
  intro edge member enabled host
  obtain ⟨link, inLinks, key, isTarget, taken⟩ := evaluated edge member
  exact ⟨link, inLinks, key, _, isTarget, _, taken, rfl, rfl⟩

/-- Two edges of one direction, the second with a port. -/
def sampleTwice : Topology :=
  { samplePair with edges := [sampleEdge "e1" "a" "b", { sampleEdge "e2" "a" "b" with endpointPort := 40000 }] }

/-- The second edge says 40000, and the link dials what the first edge says. -/
theorem sampleTwice_misleads : ∃ result, sampleCompile sampleTwice = .ok result ∧
    ¬ CompiledPortsTold sampleEnv result := by
  obtain ⟨result, compiled, edge, member, enabled, host, notClient, differ⟩ :
      ∃ result, sampleCompile sampleTwice = .ok result ∧
        ∃ edge ∈ result.topology.edges, edge.isEnabled = true ∧ edge.endpointHost ≠ "" ∧
          Topology.hasClient result.topology edge.fromNodeID = false ∧
          ∀ link ∈ result.topology.firstEdges, ∀ peer ∈ peersOver sampleEnv result.peers link edge.fromNodeID,
            peer.endpoint ≠ formatEndpoint edge.endpointHost edge.compiledPort :=
    exists_ok_and (by decide +kernel)
  refine ⟨result, compiled, fun told => ?_⟩
  obtain ⟨link, first, -, reaches⟩ := told edge member enabled host
  rw [ReachesAt, notClient, if_neg Bool.false_ne_true] at reaches
  obtain ⟨peer, single, endpoint⟩ := reaches
  exact differ link first peer (by simp [single]) endpoint

end Yaog.Compiler
