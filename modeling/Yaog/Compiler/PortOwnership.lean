import Yaog.Compiler.Endpoints

/-!
# Which link owns the port an endpoint carries

An end of a link dials the port of the other end, or the port an operator gave on an edge of the link.
-/

namespace Yaog.Compiler

open Allocator Net Validator List

/-- The port in the endpoint of a peer is the one the node across listens on over the same link, or the operator's on
an enabled edge of the link in the direction of the dial. -/
def OwnsPort (env : Externals) (topo : Topology) (peers : Peers) (link : ResolvedEdge)
    (nodeID : String) (peer : PeerInfo) : Prop :=
  ∃ host port, peer.endpoint = formatEndpoint host port ∧
    ((∃ far ∈ peersOver env peers link peer.nodeID, port = far.listenPort) ∨
      ∃ edge ∈ topo.edges, edge.isEnabled = true ∧ edge.fromNodeID = nodeID ∧ edge.toNodeID = peer.nodeID ∧
        edge.linkKey = link.linkKey ∧ 0 < edge.endpointPort ∧ port = edge.endpointPort)

/-- Every peer runs over a link, and the port in its endpoint, if it has one, belongs to that link. -/
structure EndpointsOwned (env : Externals) (topo : Topology) (peers : Peers) : Prop where
  covered : ∀ entry ∈ peers, ∃ link ∈ topo.firstEdges, entry.1 ∈ [link.fromNode.id, link.toNode.id] ∧
    entry.2 ∈ peersOver env peers link entry.1
  owned : ∀ link ∈ topo.firstEdges, ∀ nodeID ∈ [link.fromNode.id, link.toNode.id],
    ∀ peer ∈ peersOver env peers link nodeID, peer.endpoint ≠ "" → OwnsPort env topo peers link nodeID peer

def TakesPorts (reserved : Resources) (links : List LinkEntity) (link : LinkEntity) (ports : Int × Int) : Prop :=
  expectedPorts (reservePins reserved links) (earlierLinks links link) link = some ports

/-- Where the to-end of a backup link finds an operator's port for its direction, that port is the one the from-end
of the backup link takes. -/
def BackupsDialOwnPorts (reserved : Resources) (topo : Topology) : Prop :=
  ∀ link ∈ groupLinks topo, link.backup = true → link.primaryEdge.linkDirection ≠ .forward →
    ∀ reverse, edgeInDirection topo link.primaryEdge.toNodeID link.primaryEdge.fromNodeID = some reverse →
      0 < reverse.endpointPort → ∃ toPort, TakesPorts reserved (groupLinks topo) link (reverse.endpointPort, toPort)

section

variable {env : Externals} {fallback : MimicFallback} {keys : Keys} {topo : Topology} {reserved : Resources}
  {allocations : Allocations} {peers : Peers} {link : ResolvedEdge} {alloc : PairAllocation} {edge reverse : Edge}
  {peer : PeerInfo} {node : Node} {ports : Int × Int}

theorem endpointHost_of_port (accepted : Accepted env topo) (member : edge ∈ topo.edges)
    (positive : 0 < edge.endpointPort) : edge.endpointHost ≠ "" := by
  obtain ⟨i, valid⟩ := accepted.edge_schema member
  simp only [validateEdgeSchema, isValid_append, isValid_report_error, Bool.and_eq_false_iff,
    decide_eq_false_iff_not] at valid
  tauto

theorem Derives.from_owns (derives : Derives env fallback keys topo reserved peers allocations)
    (member : link ∈ topo.firstEdges)
    (given : LinkAllocated topo reserved allocations link alloc)
    (isPeer : peer ∈ peersOver env peers link link.fromNode.id) (dials : peer.endpoint ≠ "") :
    OwnsPort env topo peers link link.fromNode.id peer := by
  have resolved := firstEdges_resolved member
  obtain ⟨inEdges, enabled, isFrom, -⟩ := mem_resolvedEdges.mp resolved
  obtain ⟨fromID, toID⟩ := resolved_ids resolved
  have toNotClient := derives.accepted.toNode_not_client resolved
  cases client : link.fromNode.isClient with
  | true =>
    rw [derives.peersOver_client (Topology.node?_mem isFrom).1 client] at isPeer
    cases isPeer
  | false =>
    rw [derives.peersOver_from member given client, mem_singleton] at isPeer
    subst isPeer
    have nodeID := (forwardPeer_ends env fallback keys topo alloc toNotClient).1
    rw [forwardPeer_endpoint _ _ _ _ _ toNotClient] at dials
    obtain ⟨target, isTarget, text⟩ := endpointText_ne dials
    obtain rfl : Edge.dialTarget link.edge = target := by
      rw [forwardTarget] at isTarget
      split at isTarget
      case isTrue => cases isTarget
      case isFalse => exact Option.some.inj isTarget
    refine ⟨_, _, (forwardPeer_endpoint _ _ _ _ _ toNotClient).trans text, ?_⟩
    rw [nodeID]
    split
    case isTrue override =>
      exact .inr ⟨link.edge, inEdges, enabled, fromID.symm, toID.symm, rfl, override, rfl⟩
    case isFalse =>
      refine .inl ⟨_, by rw [derives.peersOver_to member given, mem_singleton], ?_⟩
      exact (toPeer_ends env fallback keys topo given.filled.fromNodeID).2.1.symm

theorem reverse_linkKey (accepted : Accepted env topo) (inEdges : link.edge ∈ topo.edges)
    (primary : link.edge.isBackup = false)
    (search : edgeInDirection topo link.edge.toNodeID link.edge.fromNodeID = some reverse) :
    reverse.linkKey = link.linkKey := by
  obtain ⟨-, primaryClass, froms, tos⟩ := edgeInDirection_some accepted inEdges search
  rw [isPrimaryClass, Bool.and_eq_true, Bool.not_eq_true'] at primaryClass
  exact Edge.linkKey_eq (.inr ⟨froms, tos⟩) primaryClass.2 primary

theorem reverseTarget_of_edge (bothWays : edge.linkDirection ≠ .forward)
    (search : edgeInDirection topo edge.toNodeID edge.fromNodeID = some reverse) (host : reverse.endpointHost ≠ "") :
    reverseTarget topo edge node = some (Edge.dialTarget reverse) := by
  simp [reverseTarget, bothWays, search, Option.filter, host]

theorem reverseTarget_port {target : DialTarget}
    (isTarget : reverseTarget topo edge node = some target) (override : 0 < target.port) :
    edge.linkDirection ≠ .forward ∧ ∃ reverse, edgeInDirection topo edge.toNodeID edge.fromNodeID = some reverse ∧
      target = Edge.dialTarget reverse := by
  rw [reverseTarget] at isTarget
  split at isTarget
  case isTrue => cases isTarget
  case isFalse bothWays =>
    refine ⟨bothWays, ?_⟩
    split at isTarget
    case h_1 reverse filtered =>
      exact ⟨reverse, (Option.filter_eq_some_iff.mp filtered).1, (Option.some.inj isTarget).symm⟩
    case h_2 =>
      obtain ⟨endpoint, -, rfl⟩ := Option.map_eq_some_iff.mp isTarget
      exact absurd override (lt_irrefl 0)

theorem Derives.to_owns_iff (derives : Derives env fallback keys topo reserved peers allocations)
    (member : link ∈ topo.firstEdges)
    (given : LinkAllocated topo reserved allocations link alloc)
    (inferred : Inferred link.fromNode) :
    (∀ peer ∈ peersOver env peers link link.toNode.id, peer.endpoint ≠ "" →
        OwnsPort env topo peers link link.toNode.id peer) ↔
      (link.edge.isBackup = true → link.edge.linkDirection ≠ .forward →
        ∀ reverse, edgeInDirection topo link.edge.toNodeID link.edge.fromNodeID = some reverse →
          0 < reverse.endpointPort → alloc.fromPort = reverse.endpointPort) := by
  have resolved := firstEdges_resolved member
  obtain ⟨inEdges, enabled, isFrom, -⟩ := mem_resolvedEdges.mp resolved
  obtain ⟨fromID, toID⟩ := resolved_ids resolved
  have toNotClient := derives.accepted.toNode_not_client resolved
  have forward : alloc.fromNodeID = link.fromNode.id := given.filled.fromNodeID
  rw [derives.peersOver_to member given, forall_mem_singleton]
  cases client : link.fromNode.isClient with
  | true =>
    constructor
    · intro _ backup
      exact absurd client (by rw [derives.accepted.backup_not_client resolved backup]; exact Bool.false_ne_true)
    · intro _ dials
      simp [toPeer, client, routerPeer, basePeer, PeerInfo.ofClient] at dials
  | false =>
    have nodeID := (toPeer_ends env fallback keys topo forward).1
    have far : peersOver env peers link link.fromNode.id = [forwardPeer env fallback keys topo link alloc] :=
      derives.peersOver_from member given client
    have farPort := (forwardPeer_ends env fallback keys topo alloc toNotClient).2.1
    have text : (toPeer env fallback keys topo link alloc).endpoint =
        endpointText (reverseTarget topo link.edge link.fromNode) alloc.fromPort := by
      rw [toPeer, client, if_neg Bool.false_ne_true]
      exact reversePeer_endpoint env fallback keys alloc resolved inferred
    have fromPort : 0 < alloc.fromPort := by
      have filled := given.filled.fromPort
      have notClient : (linkEntity topo link).fromNode.isClient = false := client
      rwa [notClient, if_neg Bool.false_ne_true] at filled
    simp only [OwnsPort, text, nodeID, far, mem_singleton, exists_eq_left, farPort]
    constructor
    · -- the edge that gives the port is none of a backup's, so the port is that of the link
      intro owns backup bothWays reverse search positive
      have found := edgeInDirection_some derives.accepted inEdges search
      have host := endpointHost_of_port derives.accepted found.1 positive
      have target := @reverseTarget_of_edge topo link.edge reverse link.fromNode bothWays search host
      have dialed : endpointText (reverseTarget topo link.edge link.fromNode) alloc.fromPort =
          formatEndpoint reverse.endpointHost reverse.endpointPort := by
        rw [target]
        exact congrArg (formatEndpoint reverse.endpointHost) (if_pos positive)
      rw [dialed] at owns
      obtain ⟨host', port, same, isPort⟩ := owns (formatEndpoint_ne _ _)
      rcases isPort with rfl | ⟨edge, inEdges', -, leaves, -, key, positive', rfl⟩
      · exact ((formatEndpoint_inj (by omega) (by omega)).mp same).2.symm
      · obtain ⟨-, -, ids⟩ := derives.accepted.linkKey_inj inEdges inEdges' key.symm
        have isEdge := inj_on_of_nodup_map derives.accepted.edgeIDs_nodup inEdges inEdges' (ids backup)
        rw [← isEdge] at leaves
        exact absurd (fromID.trans leaves) (firstEdges_ends derives.accepted member)
    · intro own dials
      obtain ⟨target, isTarget, dialed⟩ := endpointText_ne dials
      rw [dialed]
      refine ⟨_, _, rfl, ?_⟩
      split
      case isFalse => exact .inl rfl
      case isTrue override =>
        obtain ⟨bothWays, reverse, search, rfl⟩ := reverseTarget_port isTarget override
        cases backup : link.edge.isBackup with
        | true => exact .inl (own backup bothWays reverse search override).symm
        | false =>
          obtain ⟨inEdges', primary, froms, tos⟩ := edgeInDirection_some derives.accepted inEdges search
          rw [isPrimaryClass, Bool.and_eq_true] at primary
          exact .inr ⟨reverse, inEdges', primary.1, froms.trans toID.symm, tos.trans fromID.symm,
            reverse_linkKey derives.accepted inEdges backup search, override, rfl⟩

theorem ownsPort_compiled {nodeID : String} :
    OwnsPort env (compiledTopology topo allocations) peers (ResolvedEdge.writtenBack topo allocations link) nodeID peer ↔
      OwnsPort env topo peers link nodeID peer := by
  simp only [OwnsPort, peersOver_writtenBack, compiledTopology, mem_map, exists_exists_and_eq_and,
    writeBack_isEnabled, writeBack_linkKey, writtenBack_linkKey, writeBack_fromNodeID, writeBack_toNodeID,
    writeBack_endpointPort]

theorem endpointsOwned_compiled :
    EndpointsOwned env (compiledTopology topo allocations) peers ↔ EndpointsOwned env topo peers := by
  have covered : ∀ entry : String × PeerInfo,
      (∃ link ∈ (compiledTopology topo allocations).firstEdges, entry.1 ∈ [link.fromNode.id, link.toNode.id] ∧
        entry.2 ∈ peersOver env peers link entry.1) ↔
      ∃ link ∈ topo.firstEdges, entry.1 ∈ [link.fromNode.id, link.toNode.id] ∧
        entry.2 ∈ peersOver env peers link entry.1 := by
    intro entry
    simp only [compiled_firstEdges, mem_map, exists_exists_and_eq_and, peersOver_writtenBack]
    rfl
  have owned : (∀ link ∈ (compiledTopology topo allocations).firstEdges, ∀ nodeID ∈ [link.fromNode.id, link.toNode.id],
      ∀ peer ∈ peersOver env peers link nodeID, peer.endpoint ≠ "" →
        OwnsPort env (compiledTopology topo allocations) peers link nodeID peer) ↔
      ∀ link ∈ topo.firstEdges, ∀ nodeID ∈ [link.fromNode.id, link.toNode.id],
        ∀ peer ∈ peersOver env peers link nodeID, peer.endpoint ≠ "" → OwnsPort env topo peers link nodeID peer := by
    rw [compiled_firstEdges, forall_mem_map]
    simp only [peersOver_writtenBack, ownsPort_compiled]
    rfl
  constructor
  · intro all
    exact ⟨fun entry member => (covered entry).mp (all.covered entry member), owned.mp all.owned⟩
  · intro all
    exact ⟨fun entry member => (covered entry).mpr (all.covered entry member), owned.mpr all.owned⟩

theorem takesPorts_congr {links links' : List LinkEntity} {link link' : LinkEntity}
    (sameLinks : links.map LinkEntity.bare = links'.map LinkEntity.bare) (same : link.bare = link'.bare) :
    TakesPorts reserved links link ports ↔ TakesPorts reserved links' link' ports :=
  @takes_congr reserved { port := ports.1, transitIP := "", linkLocal := "" }
    { port := ports.2, transitIP := "", linkLocal := "" } _ _ _ _ sameLinks same .port

theorem Allocated.takesPorts_iff {link : LinkEntity} (given : Allocated topo reserved allocations edge link alloc) :
    TakesPorts reserved (groupLinks topo) link ports ↔ (alloc.fromPort, alloc.toPort) = ports := by
  obtain ⟨found, transit, linkLocal, isPorts, -, -, rfl⟩ := expectedAllocation_some given.expected
  rw [TakesPorts, isPorts]
  exact Option.some_inj

end

section

variable {topo : Topology} {nodes : List Node}

theorem allocated_groupLinks (all : AllAddressed topo nodes) :
    (groupLinks (allocatedTopology topo nodes)).map LinkEntity.bare = (groupLinks topo).map LinkEntity.bare := by
  rw [← groupLinks_bare, allocatedTopology_bare all, groupLinks_bare]

theorem LinkEntity.edge_of_bare {link link' : LinkEntity} (same : link.bare = link'.bare) :
    link.primaryEdge = link'.primaryEdge := by
  have edges := congrArg LinkEntity.primaryEdge same
  exact edges

theorem exists_allocated_first (all : AllAddressed topo nodes) {link : LinkEntity} (member : link ∈ groupLinks topo) :
    ∃ resolved ∈ (allocatedTopology topo nodes).firstEdges,
      (linkEntity (allocatedTopology topo nodes) resolved).bare = link.bare := by
  obtain ⟨found, inLinks, same⟩ := mem_map.mp (allocated_groupLinks all ▸ mem_map_of_mem member)
  obtain ⟨resolved, first, rfl⟩ := mem_map.mp inLinks
  exact ⟨resolved, first, same⟩

theorem exists_input_link (all : AllAddressed topo nodes) {resolved : ResolvedEdge}
    (first : resolved ∈ (allocatedTopology topo nodes).firstEdges) :
    ∃ link ∈ groupLinks topo, (linkEntity (allocatedTopology topo nodes) resolved).bare = link.bare := by
  have inLinks : linkEntity (allocatedTopology topo nodes) resolved ∈ groupLinks (allocatedTopology topo nodes) :=
    mem_map_of_mem first
  obtain ⟨link, member, same⟩ := mem_map.mp (allocated_groupLinks all ▸ mem_map_of_mem inLinks)
  exact ⟨link, member, same.symm⟩

end

/-- In a compile, every endpoint of a peer carries a port of the peer's own link exactly when no backup link finds
the port an operator gave for the primary link of its pair. -/
theorem endpoint_ports_owned_iff {env : Externals} {settings : Settings} {keys : Keys} {input : Topology}
    {result : CompileResult} (compiled : compileAt env settings keys input = .ok result) :
    EndpointsOwned env result.topology result.peers ↔ BackupsDialOwnPorts settings.reserved input.withDefaults := by
  obtain ⟨nodes, allocations, run⟩ := compileAt_ok compiled
  have derives := run.derives
  have links := allocated_groupLinks run.allAddressed
  have inferred : ∀ resolved ∈ (allocatedTopology input.withDefaults nodes).firstEdges, Inferred resolved.fromNode := by
    intro resolved first
    obtain ⟨-, -, isFrom, -⟩ := mem_resolvedEdges.mp (firstEdges_resolved first)
    exact allocatedTopology_inferred (Topology.node?_mem isFrom).1
  rw [run.topology, endpointsOwned_compiled]
  constructor
  · intro owned link member backup bothWays reverse search positive
    obtain ⟨resolved, first, same⟩ := exists_allocated_first run.allAddressed member
    obtain ⟨alloc, given⟩ := derives.given first
    have edge : resolved.edge = link.primaryEdge := LinkEntity.edge_of_bare same
    simp only [takesPorts_congr links.symm same.symm, given.takesPorts_iff, Prod.mk.injEq, exists_and_left, exists_eq',
      and_true]
    have own := (derives.to_owns_iff first given (inferred resolved first)).mp
      (owned.owned resolved first _ (mem_pair.mpr (.inr rfl)))
    rw [edge] at own
    exact own backup bothWays reverse search positive
  · intro own
    refine ⟨fun entry => derives.over_link, fun resolved first nodeID isEnd => ?_⟩
    obtain ⟨alloc, given⟩ := derives.given first
    rcases mem_pair.mp isEnd with rfl | rfl
    · exact fun peer => derives.from_owns first given
    · refine (derives.to_owns_iff first given (inferred resolved first)).mpr ?_
      intro backup bothWays reverse search positive
      obtain ⟨link, member, same⟩ := exists_input_link run.allAddressed first
      have edge : resolved.edge = link.primaryEdge := LinkEntity.edge_of_bare same
      rw [edge] at backup bothWays search
      obtain ⟨toPort, taken⟩ := own link member backup bothWays reverse search positive
      rw [takesPorts_congr links.symm same.symm, given.takesPorts_iff] at taken
      exact congrArg Prod.fst taken

/-- A backup edge, and the primary edge of its pair the other way with a port for it. -/
def sampleBackup (primaryPort : Int) : Topology :=
  { samplePair with
    edges := [{ sampleEdge "e1" "a" "b" with role := .backup },
      { sampleEdge "e2" "b" "a" with endpointPort := primaryPort }] }

theorem sampleBackup_owned : ∃ result, sampleCompile (sampleBackup 0) = .ok result ∧
    EndpointsOwned sampleEnv result.topology result.peers := by
  obtain ⟨result, compiled⟩ : ∃ result, sampleCompile (sampleBackup 0) = .ok result := exists_ok (by decide +kernel)
  refine ⟨result, compiled, (endpoint_ports_owned_iff compiled).mpr ?_⟩
  intro link member backup bothWays reverse search positive
  have isEdge := mem_reverse.mp (mem_of_find?_eq_some search)
  have none : ∀ edge ∈ (sampleBackup 0).withDefaults.edges, ¬ 0 < edge.endpointPort := by decide +kernel
  exact absurd positive (none reverse isEdge)

/-- The to-end of the backup link dials the port that was given for the primary link. -/
theorem sampleBackup_dials_primary : ∃ result, sampleCompile (sampleBackup 40000) = .ok result ∧
    ¬ EndpointsOwned sampleEnv result.topology result.peers := by
  obtain ⟨result, compiled, link, first, isTo, peer, isPeer, text, listens, noOverride⟩ :
      ∃ result, sampleCompile (sampleBackup 40000) = .ok result ∧
        ∃ link ∈ result.topology.firstEdges, "b" = link.toNode.id ∧
          ∃ peer ∈ peersOver sampleEnv result.peers link "b", peer.endpoint = formatEndpoint "h" 40000 ∧
            (∀ far ∈ peersOver sampleEnv result.peers link peer.nodeID, far.listenPort = 51821) ∧
            ∀ edge ∈ result.topology.edges, edge.linkKey = link.linkKey → edge.endpointPort = 0 :=
    exists_ok_and (by decide +kernel)
  refine ⟨result, compiled, fun all => ?_⟩
  obtain ⟨host, port, endpoint, owned⟩ := all.owned link first "b" (mem_pair.mpr (.inr isTo)) peer isPeer
    (text ▸ by decide +kernel)
  have isPort : ∀ found : Int, 0 ≤ found → port = found → found = 40000 := by
    intro found positive same
    rw [same, text] at endpoint
    exact ((formatEndpoint_inj (by decide) positive).mp endpoint).2.symm
  rcases owned with ⟨far, isFar, listened⟩ | ⟨edge, member, -, -, -, key, positive, -⟩
  · have other := isPort 51821 (by decide) (listened.trans (listens far isFar))
    exact absurd other (by decide)
  · rw [noOverride edge member key] at positive
    exact absurd positive (by decide)

end Yaog.Compiler
