import Yaog.Compiler.PortOwnership
import Yaog.Controller.Reservations

/-!
# The prefixes that cover the addresses of links

An install script rewrites the transit addresses of its node, given by the pool of the node's domain, to the node's
overlay address.
-/

namespace Yaog.Renderer

open Allocator Compiler Controller Net Validator List

/-- `NodeTransitCIDRs`. -/
def nodeTransitCIDRs (topo : Topology) (node : Node) : List String :=
  match topo.domains.find? fun domain => domain.id = node.domainID with
  | some domain => if domain.transitCIDR ≠ "" then [domain.transitCIDR] else [defaultTransitCIDR]
  | none => [defaultTransitCIDR]

def PoolsRewritten (result : CompileResult) : Prop :=
  ∀ node ∈ result.topology.nodes, node.isClient = false → ∀ peer ∈ result.peersOf node.id,
    ∃ cidr ∈ nodeTransitCIDRs result.topology node, InPool peer.localTransitIP cidr

def ToEndsInOwnPool (reserved : Resources) (topo : Topology) : Prop :=
  ∀ link ∈ groupLinks topo, ∀ pair,
    expectedTransit (reservePins reserved (groupLinks topo)) (earlierLinks (groupLinks topo) link) link = some pair →
      InPool pair.2 (topo.transitCIDR link.toNode)

section

variable {env : Externals} {topo : Topology} {reserved : Resources} {allocations : Allocations} {edge : Edge}
  {link : LinkEntity} {alloc : PairAllocation}

theorem nodeTransitCIDRs_eq (accepted : Accepted env topo) (node : Node) :
    nodeTransitCIDRs topo node = [topo.transitCIDR node] := by
  have same : topo.domains.find? (fun domain => domain.id = node.domainID) = topo.domain? node.domainID := by
    cases search : topo.domains.find? fun domain => domain.id = node.domainID with
    | none =>
      have absent := find?_eq_none.mp search
      refine (find?_eq_none.mpr fun domain member => ?_).symm
      exact absent domain (mem_reverse.mp member)
    | some domain =>
      have named : domain.id = node.domainID := by simpa using find?_some search
      cases found : topo.domain? node.domainID with
      | none =>
        have absent := find?_eq_none.mp found domain (mem_reverse.mpr (mem_of_find?_eq_some search))
        simp [named] at absent
      | some other =>
        obtain ⟨inDomains, isID⟩ := Topology.domain?_mem found
        exact congrArg some (inj_on_of_nodup_map accepted.domainIDs_nodup (mem_of_find?_eq_some search)
          inDomains (named.trans isID.symm))
  rw [nodeTransitCIDRs, same, Topology.transitCIDR]
  cases topo.domain? node.domainID with
  | none => rfl
  | some domain => exact (apply_ite (fun cidr => [cidr]) _ _ _).symm

theorem allocated_inPool (accepted : Accepted env topo) (given : Allocated topo reserved allocations edge link alloc) :
    InPool alloc.localTransit link.transitCIDR ∧ InPool alloc.remoteTransit link.transitCIDR := by
  have slot : SlotOf topo reserved link alloc := given.expected
  have filled := given.filled
  constructor
  · refine slot.transit_inPool accepted given.member (mem_filter.mpr ⟨?_, ?_⟩)
    · simp [linkEnds, PairAllocation.near]
    · simpa using filled.localTransit
  · refine slot.transit_inPool accepted given.member (mem_filter.mpr ⟨?_, ?_⟩)
    · simp [linkEnds, PairAllocation.far]
    · simpa using filled.remoteTransit

theorem peer_transit {fallback : MimicFallback} {keys : Keys} {peers : Peers}
    (derives : Derives env fallback keys topo reserved peers allocations) {entry : String × PeerInfo}
    (member : entry ∈ peers) :
    ∃ resolved ∈ topo.firstEdges, ∃ alloc,
      Allocated topo reserved allocations resolved.edge (linkEntity topo resolved) alloc ∧
        (entry.1 = resolved.fromNode.id ∧ entry.2.localTransitIP = alloc.localTransit ∧
            entry.2.remoteTransitIP = alloc.remoteTransit ∨
          entry.1 = resolved.toNode.id ∧ entry.2.localTransitIP = alloc.remoteTransit ∧
            entry.2.remoteTransitIP = alloc.localTransit) := by
  obtain ⟨resolved, first, isEnd, isPeer⟩ := derives.over_link member
  obtain ⟨alloc, given⟩ := derives.given first
  refine ⟨resolved, first, alloc, given, ?_⟩
  obtain ⟨-, -, isFrom, -⟩ := mem_resolvedEdges.mp (firstEdges_resolved first)
  have toNotClient := derives.accepted.toNode_not_client (firstEdges_resolved first)
  rcases mem_pair.mp isEnd with atFrom | atTo
  · rw [atFrom] at isPeer
    cases client : resolved.fromNode.isClient with
    | true =>
      rw [derives.peersOver_client (Topology.node?_mem isFrom).1 client] at isPeer
      cases isPeer
    | false =>
      rw [derives.peersOver_from first given client, mem_singleton] at isPeer
      obtain ⟨-, -, localTransit, remoteTransit, -⟩ := forwardPeer_ends env fallback keys topo alloc toNotClient
      rw [isPeer]
      exact .inl ⟨atFrom, localTransit, remoteTransit⟩
  · rw [atTo, derives.peersOver_to first given, mem_singleton] at isPeer
    obtain ⟨-, -, localTransit, remoteTransit, -⟩ := toPeer_ends env fallback keys topo given.filled.fromNodeID
    rw [isPeer]
    exact .inr ⟨atTo, localTransit, remoteTransit⟩

end

section

variable {env : Externals} {settings : Settings} {keys : Keys} {input : Topology} {result : CompileResult}
  {nodeID : String} {peer : PeerInfo}

theorem mem_peersOf : peer ∈ result.peersOf nodeID ↔ (nodeID, peer) ∈ result.peers := by
  simp only [CompileResult.peersOf, mem_map, mem_filter, decide_eq_true_eq]
  constructor
  · rintro ⟨entry, ⟨member, rfl⟩, rfl⟩
    exact member
  · intro member
    exact ⟨(nodeID, peer), ⟨member, rfl⟩, rfl⟩

theorem mem_peersOf_of_over {resolved : ResolvedEdge}
    (isPeer : peer ∈ peersOver env result.peers resolved nodeID) : peer ∈ result.peersOf nodeID := by
  obtain ⟨entry, inFilter, rfl⟩ := mem_map.mp isPeer
  obtain ⟨member, matches_⟩ := mem_filter.mp inFilter
  rw [Bool.and_eq_true, decide_eq_true_eq] at matches_
  rw [mem_peersOf, ← matches_.1]
  exact member

section

variable {topo : Topology} {nodes : List Node} {allocations : Allocations} {resolved : ResolvedEdge} {link : LinkEntity}
  {alloc : PairAllocation} (run : Compiles env settings keys topo nodes allocations result)

include run

theorem taken_remoteTransit (same : (linkEntity (allocatedTopology topo nodes) resolved).bare = link.bare)
    (given : Allocated (allocatedTopology topo nodes) settings.reserved allocations resolved.edge
      (linkEntity (allocatedTopology topo nodes) resolved) alloc) {pair : String × String}
    (taken : expectedTransit (reservePins settings.reserved (groupLinks topo)) (earlierLinks (groupLinks topo) link) link =
      some pair) : alloc.remoteTransit = pair.2 := by
  have takes : Takes settings.reserved (groupLinks topo) link { port := 0, transitIP := pair.1, linkLocal := "" }
      { port := 0, transitIP := pair.2, linkLocal := "" } .transit := taken
  rw [takes_congr (allocated_groupLinks run.allAddressed).symm same.symm, takes_iff given.expected] at takes
  exact takes.2

theorem poolsRewritten_iff : PoolsRewritten result ↔ ToEndsInOwnPool settings.reserved topo := by
  have derives := run.derives
  have links := allocated_groupLinks run.allAddressed
  have rewritten : ∀ node, nodeTransitCIDRs result.topology node =
      [(allocatedTopology topo nodes).transitCIDR node] := by
    intro node
    rw [run.topology]
    exact nodeTransitCIDRs_eq derives.accepted node
  have isNode : ∀ {node : Node}, node ∈ result.topology.nodes ↔
      node ∈ (allocatedTopology topo nodes).nodes := by
    rw [run.topology]
    exact Iff.rfl
  have ownPool : ∀ {resolved link}, (linkEntity (allocatedTopology topo nodes) resolved).bare =
      LinkEntity.bare link → (allocatedTopology topo nodes).transitCIDR resolved.toNode =
        topo.transitCIDR link.toNode := by
    intro resolved link same
    have ids : resolved.toNode.domainID = link.toNode.domainID := congrArg (fun link => link.toNode.domainID) same
    rw [Topology.transitCIDR, ids]
    rfl
  constructor
  · intro covered link member pair taken
    obtain ⟨resolved, first, same⟩ := exists_allocated_first run.allAddressed member
    obtain ⟨alloc, given⟩ := derives.given first
    obtain ⟨-, -, -, isTo⟩ := mem_resolvedEdges.mp (firstEdges_resolved first)
    have toNotClient := derives.accepted.toNode_not_client (firstEdges_resolved first)
    have isPair := taken_remoteTransit run same given taken
    have isPeer : toPeer env settings.mimicFallbackDefault keys (allocatedTopology topo nodes) resolved alloc ∈
        peersOver env result.peers resolved resolved.toNode.id := by
      rw [derives.peersOver_to first given]
      exact mem_singleton_self _
    obtain ⟨cidr, isPool, inPool⟩ := covered resolved.toNode (isNode.mpr (Topology.node?_mem isTo).1) toNotClient _
      (mem_peersOf_of_over isPeer)
    rw [rewritten, mem_singleton] at isPool
    obtain ⟨-, -, localTransit, -⟩ := toPeer_ends env settings.mimicFallbackDefault keys
      (allocatedTopology topo nodes) given.filled.fromNodeID
    rwa [isPool, ownPool same, localTransit, isPair] at inPool
  · intro own node member notClient peer isPeer
    rw [rewritten]
    refine ⟨_, mem_singleton_self _, ?_⟩
    obtain ⟨resolved, first, alloc, given, ends⟩ := peer_transit derives (mem_peersOf.mp isPeer)
    obtain ⟨-, -, isFrom, isTo⟩ := mem_resolvedEdges.mp (firstEdges_resolved first)
    have isEnd : ∀ {other : Node}, other ∈ (allocatedTopology topo nodes).nodes → node.id = other.id →
        node = other := fun isOther ids =>
      inj_on_of_nodup_map derives.accepted.nodeIDs_nodup (isNode.mp member) isOther ids
    rcases ends with ⟨atFrom, localTransit, -⟩ | ⟨atTo, localTransit, -⟩
    · rw [isEnd (Topology.node?_mem isFrom).1 atFrom, localTransit]
      exact (allocated_inPool derives.accepted given).1
    · obtain ⟨link, inLinks, same⟩ := exists_input_link run.allAddressed first
      rw [isEnd (Topology.node?_mem isTo).1 atTo, localTransit, ownPool same]
      refine own link inLinks (alloc.localTransit, alloc.remoteTransit) ?_
      have takes : Takes settings.reserved (groupLinks (allocatedTopology topo nodes))
          (linkEntity (allocatedTopology topo nodes) resolved) alloc.near alloc.far .transit :=
        (takes_iff given.expected .transit).mpr ⟨rfl, rfl⟩
      rw [takes_congr links same] at takes
      exact takes

end

/-- In a compile, the pools an install script rewrites cover the addresses of its node exactly when every link takes
an address of its to-node's own pool for it. -/
theorem pools_rewritten_iff (compiled : compileAt env settings keys input = .ok result) :
    PoolsRewritten result ↔ ToEndsInOwnPool settings.reserved input.withDefaults := by
  obtain ⟨nodes, allocations, run⟩ := compileAt_ok compiled
  exact poolsRewritten_iff run

/-- In particular when the two ends of every link have one pool. -/
theorem poolsRewritten_of_shared (compiled : compileAt env settings keys input = .ok result)
    (shared : ∀ link ∈ groupLinks input.withDefaults, link.transitCIDR = input.withDefaults.transitCIDR link.toNode) :
    PoolsRewritten result := by
  obtain ⟨nodes, allocations, run⟩ := compileAt_ok compiled
  refine (poolsRewritten_iff run).mpr fun link member pair taken => ?_
  obtain ⟨resolved, first, same⟩ := exists_allocated_first run.allAddressed member
  obtain ⟨alloc, given⟩ := run.derives.given first
  have pool : (linkEntity (allocatedTopology input.withDefaults nodes) resolved).transitCIDR = link.transitCIDR :=
    congrArg (fun link => link.transitCIDR) same
  rw [← taken_remoteTransit run same given taken, ← shared link member, ← pool]
  exact (allocated_inPool run.derives.accepted given).2

end

theorem samplePair_rewritten : ∃ result, sampleCompile samplePair = .ok result ∧
    result.peers ≠ [] ∧ PoolsRewritten result := by
  obtain ⟨result, compiled, some⟩ : ∃ result, sampleCompile samplePair = .ok result ∧ result.peers ≠ [] :=
    exists_ok_and (by decide +kernel)
  have inPools : ∀ link ∈ groupLinks samplePair.withDefaults,
      (expectedTransit (reservePins {} (groupLinks samplePair.withDefaults))
        (earlierLinks (groupLinks samplePair.withDefaults) link) link).all (fun pair =>
          decide (InPool pair.2 (samplePair.withDefaults.transitCIDR link.toNode))) = true := by
    decide +kernel
  refine ⟨result, compiled, some, (pools_rewritten_iff compiled).mpr ?_⟩
  intro link member pair taken
  have inPool := inPools link member
  rw [Option.all_eq_true] at inPool
  exact of_decide_eq_true (inPool pair taken)

/-- The link between the domains takes both addresses from the pool of its from-node. -/
theorem sampleCrossDomain_not_rewritten :
    ∃ result, sampleCompile sampleCrossDomain = .ok result ∧ ¬ PoolsRewritten result := by
  obtain ⟨result, compiled, node, member, notClient, peer, isPeer, outside⟩ :
      ∃ result, sampleCompile sampleCrossDomain = .ok result ∧
        ∃ node ∈ result.topology.nodes, node.isClient = false ∧ ∃ peer ∈ result.peersOf node.id,
          ∀ cidr ∈ nodeTransitCIDRs result.topology node, ¬ InPool peer.localTransitIP cidr :=
    exists_ok_and (by decide +kernel)
  refine ⟨result, compiled, fun covered => ?_⟩
  obtain ⟨cidr, isPool, inPool⟩ := covered node member notClient peer isPeer
  exact outside cidr isPool inPool

/-- Every address of nodes and links lies in one of the prefixes. -/
structure RoutesAll (result : CompileResult) (cidrs : List String) : Prop where
  nodes : ∀ node ∈ result.topology.nodes, ∃ cidr ∈ cidrs, InPool node.overlayIP cidr
  edges : ∀ edge ∈ result.topology.edges, edge.isEnabled = true →
    ∀ text ∈ [edge.pinnedFromTransitIP, edge.pinnedToTransitIP], ∃ cidr ∈ cidrs, InPool text cidr
  peers : ∀ entry ∈ result.peers, ∀ text ∈ [entry.2.localTransitIP, entry.2.remoteTransitIP],
    ∃ cidr ∈ cidrs, InPool text cidr

section

variable {env : Externals} {settings : Settings} {keys : Keys} {topo input : Topology} {result : CompileResult}
  {allocations : Allocations}

theorem domain_routed {domain : Domain} (member : domain ∈ topo.domains) {cidr : String} (set : cidr ≠ "")
    (isPrefix : cidr = domain.cidr ∨ cidr = domainPool domain) : cidr ∈ clientDomainCIDRs topo := by
  have listed : cidr ∈ (topo.domains.map (·.cidr) ++ topo.domains.map fun domain =>
      if domain.transitCIDR = "" then defaultTransitCIDR else domain.transitCIDR).filter (· ≠ "") := by
    refine mem_filter.mpr ⟨mem_append.mpr ?_, by simpa using set⟩
    rcases isPrefix with rfl | rfl
    · exact .inl (mem_map_of_mem member)
    · refine .inr (mem_map.mpr ⟨domain, member, ?_⟩)
      rw [domainPool, ite_not]
  obtain ⟨first, kept, same⟩ := @Data.exists_kept _ _ _ id _ _ listed
  obtain rfl : first = cidr := same
  exact kept

theorem transitCIDR_routed (accepted : Accepted env topo) {node : Node} (member : node ∈ topo.nodes) :
    topo.transitCIDR node ∈ clientDomainCIDRs topo := by
  obtain ⟨domain, isDomain, inDomains⟩ := accepted.node_domain member
  obtain ⟨net, network, parsed, -⟩ := transitCIDR_net accepted member
  have set : topo.transitCIDR node ≠ "" := by
    intro blank
    rw [blank] at parsed
    cases parsed
  refine domain_routed inDomains set (.inr ?_)
  rw [Topology.transitCIDR, isDomain]
  rfl

theorem allocated_routed (accepted : Accepted env topo) {reserved : Resources} {edge : Edge} {link : LinkEntity}
    {alloc : PairAllocation} (given : Allocated topo reserved allocations edge link alloc) :
    ∀ text ∈ [alloc.localTransit, alloc.remoteTransit], ∃ cidr ∈ clientDomainCIDRs topo, InPool text cidr := by
  obtain ⟨resolved, inResolved, rfl⟩ := mem_groupLinks given.member
  have routed := transitCIDR_routed accepted (Topology.node?_mem (mem_resolvedEdges.mp inResolved).2.2.1).1
  obtain ⟨localInPool, remoteInPool⟩ := allocated_inPool accepted given
  intro text isText
  rcases mem_pair.mp isText with rfl | rfl
  · exact ⟨_, routed, localInPool⟩
  · exact ⟨_, routed, remoteInPool⟩

theorem endAt_transitIP (alloc : PairAllocation) (nodeID : String) :
    (alloc.endAt nodeID).transitIP ∈ [alloc.localTransit, alloc.remoteTransit] := by
  rw [PairAllocation.endAt]
  split
  · exact mem_cons_self
  · exact mem_cons_of_mem _ mem_cons_self

theorem clientConfig_domainCIDRs {fallback : MimicFallback}
    {config : ClientPeerInfo} (member : config ∈ deriveClientConfigs fallback keys topo allocations) :
    config.domainCIDRs = clientDomainCIDRs topo := by
  obtain ⟨node, -, configured⟩ := mem_filterMap.mp member
  exact (clientConfig_owner configured).2.2.2

/-- In a compile, the prefixes a client routes into its tunnel cover the whole overlay. -/
theorem clients_route_overlay (compiled : compileAt env settings keys input = .ok result) :
    ∀ config ∈ result.clientConfigs, RoutesAll result config.domainCIDRs := by
  obtain ⟨nodes, allocations, run⟩ := compileAt_ok compiled
  have derives := run.derives
  intro config isConfig
  rw [run.clientConfigs] at isConfig
  rw [clientConfig_domainCIDRs isConfig]
  constructor
  case nodes =>
    intro node member
    rw [run.topology] at member
    obtain ⟨domain, isDomain, inDomains⟩ := derives.accepted.node_domain member
    obtain ⟨before, wasMember, rfl⟩ := mem_map.mp member
    obtain ⟨net, ip, parsed, isIP, inside⟩ := run.allAddressed.inside before wasMember domain isDomain
    have set : domain.cidr ≠ "" := by
      intro blank
      rw [blank] at parsed
      cases parsed
    exact ⟨domain.cidr, domain_routed inDomains set (.inl rfl), ip, net, isIP, parsed, inside⟩
  case edges =>
    intro written isWritten enabled text isText
    rw [run.topology] at isWritten
    obtain ⟨edge, member, rfl⟩ := mem_map.mp isWritten
    rw [writeBack_isEnabled] at enabled
    obtain ⟨link, alloc, given⟩ := exists_allocated derives.accepted derives.allocated member enabled
    rw [writeBack_eq derives.accepted member enabled given] at isText
    refine allocated_routed derives.accepted given text ?_
    rcases mem_pair.mp isText with rfl | rfl
    · exact endAt_transitIP _ _
    · exact endAt_transitIP _ _
  case peers =>
    intro entry member text isText
    obtain ⟨resolved, -, alloc, given, ends⟩ := peer_transit derives member
    refine allocated_routed derives.accepted given text ?_
    rcases ends with ⟨-, localTransit, remoteTransit⟩ | ⟨-, localTransit, remoteTransit⟩
    · rwa [localTransit, remoteTransit] at isText
    · rw [localTransit, remoteTransit] at isText
      exact mem_pair.mpr (mem_pair.mp isText).symm

end

theorem sampleClient_routes : ∃ result, sampleCompile sampleClient = .ok result ∧
    ∃ config ∈ result.clientConfigs, RoutesAll result config.domainCIDRs := by
  obtain ⟨result, compiled, some⟩ : ∃ result, sampleCompile sampleClient = .ok result ∧ result.clientConfigs ≠ [] :=
    exists_ok_and (by decide +kernel)
  obtain ⟨config, isConfig⟩ := exists_mem_of_ne_nil _ some
  exact ⟨result, compiled, config, isConfig, clients_route_overlay compiled config isConfig⟩

end Yaog.Renderer
