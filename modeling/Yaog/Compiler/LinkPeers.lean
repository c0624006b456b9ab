import Yaog.Compiler.Fixpoint

/-!
# The peers of a link

A `PeerInfo` does not name its link. It names its interface, and the validator lets no node have two
interfaces of one name, so the interface at an end stands for the link there.
-/

namespace Yaog

open List Option

def ResolvedEdge.across (link : ResolvedEdge) (nodeID : String) : Node :=
  if link.fromNode.id = nodeID then link.toNode else link.fromNode

def ResolvedEdge.interfaceAt (env : Externals) (link : ResolvedEdge) (nodeID : String) : String :=
  wgInterfaceNameForEdge env (link.across nodeID).name link.edge.id link.edge.isBackup

namespace Validator

variable {env : Externals} {topo : Topology}

theorem Accepted.interfaces_nodup (accepted : Accepted env topo) :
    ((interfaceEntries topo env).map fun entry => (entry.nodeID, entry.interfaceName)).Nodup := by
  change List.Pairwise (· ≠ ·) _
  rw [pairwise_map, pairwise_iff_getElem]
  intro i j iBound jBound before same
  have valid := isValid_eachIndexed.mp accepted.interfaces j _ (getElem?_eq_getElem jBound)
  split at valid
  case h_1 absent =>
    have earlier : (interfaceEntries topo env)[i] ∈ (interfaceEntries topo env).take j :=
      mem_take_iff_getElem.mpr ⟨i, by omega, rfl⟩
    have other := find?_eq_none.mp absent _ earlier
    simp [(Prod.mk.inj same).1, (Prod.mk.inj same).2] at other
  case h_2 => cases valid

theorem interfaceEntries_usable : ∀ entry ∈ interfaceEntries topo env, UsableName entry.interfaceName := by
  have one : ∀ (edge : Edge) (owner remote : Node), ∀ entry ∈ interfaceEntry env edge owner remote,
      UsableName entry.interfaceName := by
    intro edge owner remote entry member
    rw [interfaceEntry] at member
    split at member
    case isTrue => cases member
    case isFalse =>
      rw [mem_singleton.mp member]
      exact wgInterfaceNameForEdge_usable env remote.name edge.id edge.isBackup
  intro entry member
  obtain ⟨link, -, inLink⟩ := mem_flatMap.mp member
  exact (mem_append.mp inLink).elim (one _ _ _ entry) (one _ _ _ entry)

theorem Accepted.client_edge_unique (accepted : Accepted env topo) {link other : ResolvedEdge}
    (member : link ∈ topo.resolvedEdges) (member' : other ∈ topo.resolvedEdges)
    (client : link.fromNode.isClient = true) (same : other.edge.fromNodeID = link.edge.fromNodeID) :
    other.edge = link.edge := by
  obtain ⟨inEdges, enabled, isFrom, -⟩ := mem_resolvedEdges.mp member
  obtain ⟨inEdges', enabled', -, -⟩ := mem_resolvedEdges.mp member'
  obtain ⟨inNodes, isID⟩ := Topology.node?_mem isFrom
  have valid := accepted.clients
  rw [validateClientEdges, isValid_append] at valid
  have ownValid := isValid_flatMap.mp valid.2 _ inNodes
  simp only [validateClientNode, client, if_true, isValid_append, isValid_report_error,
    decide_eq_false_iff_not] at ownValid
  have single : clientOutbound topo link.fromNode.id = 1 := by omega
  rw [clientOutbound, countP_eq_length_filter] at single
  obtain ⟨only, isOnly⟩ := length_eq_one_iff.mp single
  have outbound : ∀ edge ∈ topo.edges, edge.isEnabled = true → edge.fromNodeID = link.edge.fromNodeID →
      edge = only := by
    intro edge isEdge isEnabled leaves
    have filtered : edge ∈ [only] := by
      rw [← isOnly]
      exact mem_filter.mpr ⟨isEdge, by simp [isEnabled, leaves, isID, isFrom, client]⟩
    exact mem_singleton.mp filtered
  rw [outbound _ inEdges' enabled' same, outbound _ inEdges enabled rfl]

end Validator

namespace Compiler

open Allocator Net Validator

def peersOver (env : Externals) (peers : Peers) (link : ResolvedEdge) (nodeID : String) :
    List PeerInfo :=
  (peers.filter fun entry => entry.1 = nodeID && entry.2.interfaceName = link.interfaceAt env nodeID).map (·.2)

/-- `derivePeersWithDomains`. -/
def derivePeersWithDomains (env : Externals) (mimicFallbackDefault : MimicFallback) (keys : Keys) (topo : Topology)
    (reserved : Resources) : Except CompileError (Peers × Allocations) :=
  match preallocateLinkResources (groupLinks topo) reserved with
  | .error reason => .error (.peers reason)
  | .ok allocations =>
    match buildPeerInfo env mimicFallbackDefault keys topo allocations topo.firstEdges with
    | none => .error .orientationPanic
    | some peers => .ok (peers, allocations)

section

variable {env : Externals} {fallback : MimicFallback} {keys : Keys} {topo : Topology} {reserved : Resources}
  {allocations : Allocations} {peers : Peers} {link : ResolvedEdge} {alloc : PairAllocation}

/-- A successful derivation of the peers of an accepted topology. -/
structure Derives (env : Externals) (fallback : MimicFallback) (keys : Keys) (topo : Topology) (reserved : Resources)
    (peers : Peers) (allocations : Allocations) : Prop where
  accepted : Accepted env topo
  allocated : preallocateLinkResources (groupLinks topo) reserved = .ok allocations
  built : buildPeerInfo env fallback keys topo allocations topo.firstEdges = some peers

theorem derives_of_ok (accepted : Accepted env topo)
    (derived : derivePeersWithDomains env fallback keys topo reserved = .ok (peers, allocations)) :
    Derives env fallback keys topo reserved peers allocations := by
  rw [derivePeersWithDomains] at derived
  split at derived
  case h_1 => cases derived
  case h_2 found allocated =>
    split at derived
    case h_1 => cases derived
    case h_2 others built =>
      obtain ⟨rfl, rfl⟩ := Prod.mk.inj (Except.ok.inj derived)
      exact ⟨accepted, allocated, built⟩

theorem Compiles.derives {settings : Settings} {nodes : List Node} {result : CompileResult}
    (run : Compiles env settings keys topo nodes allocations result) :
    Derives env settings.mimicFallbackDefault keys (allocatedTopology topo nodes) settings.reserved result.peers
      allocations :=
  ⟨run.midAccepted, run.allocated, run.derived⟩

abbrev LinkAllocated (topo : Topology) (reserved : Resources) (allocations : Allocations) (link : ResolvedEdge)
    (alloc : PairAllocation) : Prop :=
  Allocated topo reserved allocations link.edge (linkEntity topo link) alloc

theorem exists_linkAlloc (accepted : Accepted env topo)
    (allocated : preallocateLinkResources (groupLinks topo) reserved = .ok allocations)
    (member : link ∈ topo.firstEdges) :
    ∃ alloc, LinkAllocated topo reserved allocations link alloc := by
  have inLinks : linkEntity topo link ∈ groupLinks topo := mem_map_of_mem member
  obtain ⟨alloc, lookup, expected⟩ := preallocate_lookup (groupLinks_keys_nodup topo) (groupLinks_ends accepted)
    allocated inLinks
  exact ⟨alloc, ⟨inLinks, rfl, lookup, expected⟩⟩

variable (env fallback keys topo) in
def endPeers (link : ResolvedEdge) (alloc : PairAllocation) : Peers :=
  if link.fromNode.isClient then [(link.toNode.id, routerPeer env fallback keys link alloc)]
  else [(link.fromNode.id, forwardPeer env fallback keys topo link alloc),
    (link.toNode.id, reversePeer env fallback keys topo link alloc)]

theorem firstEdges_resolved (member : link ∈ topo.firstEdges) : link ∈ topo.resolvedEdges :=
  Data.mem_of_mem_keepFirst member

variable (fallback keys) in
theorem linkPeers_eq (accepted : Accepted env topo) (member : link ∈ topo.firstEdges)
    (forward : alloc.fromNodeID = link.fromNode.id) :
    linkPeers env fallback keys topo link alloc = some (endPeers env fallback keys topo link alloc) := by
  have notClient := accepted.toNode_not_client (firstEdges_resolved member)
  rw [linkPeers, endPeers, if_neg (not_not.mpr forward), notClient]
  split <;> rfl

theorem buildPeerInfo_eq_flatMap (accepted : Accepted env topo)
    (allocated : preallocateLinkResources (groupLinks topo) reserved = .ok allocations) {links : List ResolvedEdge}
    (firsts : links ⊆ topo.firstEdges) :
    buildPeerInfo env fallback keys topo allocations links = some (links.flatMap fun link =>
      ((lookupAllocation allocations link.linkKey).map (endPeers env fallback keys topo link)).getD []) := by
  induction links with
  | nil => rfl
  | cons link rest ih =>
    obtain ⟨member, later⟩ := cons_subset.mp firsts
    obtain ⟨alloc, given⟩ := exists_linkAlloc accepted allocated member
    have lookup : lookupAllocation allocations link.linkKey = some alloc := given.lookup
    have first := linkPeers_eq fallback keys accepted member given.filled.fromNodeID
    simp only [buildPeerInfo, lookup, first, ih later, flatMap_cons, map_some, getD_some]

theorem endPeers_interfaces (notClient : link.toNode.isClient = false) :
    (endPeers env fallback keys topo link alloc).map (fun entry => (entry.1, entry.2.interfaceName)) =
      (interfaceEntry env link.edge link.fromNode link.toNode
        ++ interfaceEntry env link.edge link.toNode link.fromNode).map fun entry =>
          (entry.nodeID, entry.interfaceName) := by
  cases client : link.fromNode.isClient <;>
    simp [endPeers, interfaceEntry, forwardPeer, reversePeer, routerPeer, basePeer, PeerInfo.ofClient, client, notClient]

section

variable (derives : Derives env fallback keys topo reserved peers allocations)

include derives

theorem Derives.given (member : link ∈ topo.firstEdges) :
    ∃ alloc, LinkAllocated topo reserved allocations link alloc :=
  exists_linkAlloc derives.accepted derives.allocated member

theorem Derives.peers_eq : peers = topo.firstEdges.flatMap fun link =>
    ((lookupAllocation allocations link.linkKey).map (endPeers env fallback keys topo link)).getD [] := by
  have built := derives.built
  rw [buildPeerInfo_eq_flatMap derives.accepted derives.allocated (List.Subset.refl _)] at built
  exact (some.inj built).symm

theorem Derives.map_peers {β : Type} {view : String × PeerInfo → β} {views : ResolvedEdge → List β}
    (agree : ∀ link ∈ topo.firstEdges, ∀ alloc,
      LinkAllocated topo reserved allocations link alloc →
        (endPeers env fallback keys topo link alloc).map view = views link) :
    peers.map view = topo.firstEdges.flatMap views := by
  rw [derives.peers_eq, map_flatMap]
  refine flatMap_congr fun link member => ?_
  obtain ⟨alloc, given⟩ := derives.given member
  have lookup : lookupAllocation allocations link.linkKey = some alloc := given.lookup
  rw [lookup, map_some, getD_some]
  exact agree link member alloc given

theorem Derives.interfaces :
    peers.map (fun entry => (entry.1, entry.2.interfaceName)) =
      (interfaceEntries topo env).map fun entry => (entry.nodeID, entry.interfaceName) := by
  rw [interfaceEntries, map_flatMap]
  exact derives.map_peers fun link member _ _ =>
    endPeers_interfaces (derives.accepted.toNode_not_client (firstEdges_resolved member))

theorem Derives.interfaces_nodup : (peers.map fun entry => (entry.1, entry.2.interfaceName)).Nodup := by
  rw [derives.interfaces]
  exact derives.accepted.interfaces_nodup

end

/-- The interfaces of the peers are those the validator has compared, no two on one node share a name, and the kernel
takes each of them. -/
structure InterfacesUsable (env : Externals) (topo : Topology) (peers : Peers) : Prop where
  recomputed : peers.map (fun entry => (entry.1, entry.2.interfaceName)) =
    (interfaceEntries topo env).map fun entry => (entry.nodeID, entry.interfaceName)
  distinct : ∀ nodeID, ((peers.filter fun entry => entry.1 = nodeID).map fun entry => entry.2.interfaceName).Nodup
  usable : ∀ entry ∈ peers, UsableName entry.2.interfaceName

section

variable (derives : Derives env fallback keys topo reserved peers allocations) {entry : String × PeerInfo}

include derives

theorem Derives.interfacesUsable : InterfacesUsable env topo peers := by
  refine ⟨derives.interfaces, fun nodeID => ?distinct, fun entry member => ?usable⟩
  case distinct =>
    have nodup := derives.interfaces_nodup
    refine List.Nodup.map_on (fun first isFirst second isSecond same => ?_) (nodup.of_map.filter _)
    obtain ⟨inPeers, here⟩ := mem_filter.mp isFirst
    obtain ⟨inPeers', here'⟩ := mem_filter.mp isSecond
    have owner : first.1 = second.1 := (of_decide_eq_true here).trans (of_decide_eq_true here').symm
    exact inj_on_of_nodup_map nodup inPeers inPeers' (Prod.ext owner same)
  case usable =>
    have inEntries : (entry.1, entry.2.interfaceName) ∈
        (interfaceEntries topo env).map fun entry => (entry.nodeID, entry.interfaceName) :=
      derives.interfaces ▸ mem_map_of_mem member
    obtain ⟨checked, isChecked, same⟩ := mem_map.mp inEntries
    rw [← (Prod.mk.inj same).2]
    exact interfaceEntries_usable checked isChecked

omit derives in
private theorem filter_key_eq {α κ : Type} [DecidableEq κ] {key : α → κ} {items : List α} {item : α}
    (distinct : (items.map key).Nodup) (member : item ∈ items) :
    items.filter (fun other => key other = key item) = [item] := by
  induction items with
  | nil => cases member
  | cons first rest ih =>
    obtain ⟨fresh, distinctRest⟩ := nodup_cons.mp distinct
    rcases mem_cons.mp member with rfl | later
    · have none : rest.filter (fun other => decide (key other = key item)) = [] := by
        refine filter_eq_nil_iff.mpr fun other inRest same => fresh ?_
        exact of_decide_eq_true same ▸ mem_map_of_mem inRest
      rw [filter_cons_of_pos (by simp), none]
    · have other : key first ≠ key item := fun same => fresh (same ▸ mem_map_of_mem later)
      rw [filter_cons_of_neg (by simpa using other), ih distinctRest later]

theorem Derives.peersOver_eq (member : entry ∈ peers)
    (named : entry.2.interfaceName = link.interfaceAt env entry.1) : peersOver env peers link entry.1 = [entry.2] := by
  have single := filter_key_eq derives.interfaces_nodup member
  simp only [Prod.mk.injEq, named, Bool.decide_and] at single
  rw [peersOver, single, map_singleton]

theorem Derives.mem_peers :
    entry ∈ peers ↔ ∃ link ∈ topo.firstEdges, ∃ alloc,
      LinkAllocated topo reserved allocations link alloc ∧
        entry ∈ endPeers env fallback keys topo link alloc := by
  rw [derives.peers_eq, mem_flatMap]
  refine exists_congr fun link => and_congr_right fun member => ?_
  obtain ⟨alloc, given⟩ := derives.given member
  have lookup : lookupAllocation allocations link.linkKey = some alloc := given.lookup
  rw [lookup, map_some, getD_some]
  constructor
  · exact fun inEnds => ⟨alloc, given, inEnds⟩
  · rintro ⟨other, given', inEnds⟩
    obtain rfl := mem_unique given.lookup given'.lookup
    exact inEnds

end

theorem firstEdges_ends (accepted : Accepted env topo) (member : link ∈ topo.firstEdges) :
    link.fromNode.id ≠ link.toNode.id :=
  groupLinks_ends accepted _ (mem_map_of_mem member)

theorem across_from (link : ResolvedEdge) : link.across link.fromNode.id = link.toNode := if_pos rfl

theorem across_to (distinct : link.fromNode.id ≠ link.toNode.id) : link.across link.toNode.id = link.fromNode :=
  if_neg distinct

variable (env fallback keys topo) in
def toPeer (link : ResolvedEdge) (alloc : PairAllocation) : PeerInfo :=
  if link.fromNode.isClient then routerPeer env fallback keys link alloc
  else reversePeer env fallback keys topo link alloc

section

variable (derives : Derives env fallback keys topo reserved peers allocations) {entry : String × PeerInfo}

include derives

section

variable (member : link ∈ topo.firstEdges)
  (given : LinkAllocated topo reserved allocations link alloc)

include member given

theorem Derives.peersOver_from (notClient : link.fromNode.isClient = false) :
    peersOver env peers link link.fromNode.id = [forwardPeer env fallback keys topo link alloc] := by
  have toEnd := derives.accepted.toNode_not_client (firstEdges_resolved member)
  have inPeers : (link.fromNode.id, forwardPeer env fallback keys topo link alloc) ∈ peers :=
    derives.mem_peers.mpr ⟨link, member, alloc, given, by simp [endPeers, notClient]⟩
  refine derives.peersOver_eq inPeers ?_
  simp [ResolvedEdge.interfaceAt, across_from, forwardPeer, basePeer, toEnd]

theorem Derives.peersOver_to : peersOver env peers link link.toNode.id = [toPeer env fallback keys topo link alloc] := by
  have inPeers : (link.toNode.id, toPeer env fallback keys topo link alloc) ∈ peers := by
    refine derives.mem_peers.mpr ⟨link, member, alloc, given, ?_⟩
    cases client : link.fromNode.isClient <;> simp [endPeers, toPeer, client]
  refine derives.peersOver_eq inPeers ?_
  have named := across_to (firstEdges_ends derives.accepted member)
  cases client : link.fromNode.isClient <;>
    simp [ResolvedEdge.interfaceAt, named, toPeer, client, routerPeer, reversePeer, basePeer, PeerInfo.ofClient]

end

theorem Derives.over_link (inPeers : entry ∈ peers) :
    ∃ link ∈ topo.firstEdges, entry.1 ∈ [link.fromNode.id, link.toNode.id] ∧
      entry.2 ∈ peersOver env peers link entry.1 := by
  obtain ⟨link, member, alloc, given, inEnds⟩ := derives.mem_peers.mp inPeers
  refine ⟨link, member, ?_⟩
  cases client : link.fromNode.isClient with
  | true =>
    simp only [endPeers, client, if_true, mem_singleton] at inEnds
    subst inEnds
    rw [derives.peersOver_to member given]
    simp [toPeer, client]
  | false =>
    simp only [endPeers, client, Bool.false_eq_true, if_false, mem_pair] at inEnds
    rcases inEnds with rfl | rfl
    · rw [derives.peersOver_from member given client]
      simp
    · rw [derives.peersOver_to member given]
      simp [toPeer, client]

theorem Derives.owner_not_client {node : Node}
    (inNodes : node ∈ topo.nodes) (inPeers : entry ∈ peers) (owns : entry.1 = node.id) :
    node.isClient = false := by
  obtain ⟨other, member, alloc, -, inEnds⟩ := derives.mem_peers.mp inPeers
  obtain ⟨-, -, isFrom, isTo⟩ := mem_resolvedEdges.mp (firstEdges_resolved member)
  have isNode : ∀ owner ∈ topo.nodes, owner.id = entry.1 → owner = node := by
    intro owner inNodes' sameID
    have same := derives.accepted.node?_eq inNodes'
    rw [sameID, owns, derives.accepted.node?_eq inNodes] at same
    exact (some.inj same).symm
  have toNotClient := derives.accepted.toNode_not_client (firstEdges_resolved member)
  cases fromClient : other.fromNode.isClient with
  | true =>
    simp only [endPeers, fromClient, if_true, mem_singleton] at inEnds
    rw [← isNode other.toNode (Topology.node?_mem isTo).1 (by rw [inEnds])]
    exact toNotClient
  | false =>
    simp only [endPeers, fromClient, Bool.false_eq_true, if_false, mem_pair] at inEnds
    rcases inEnds with rfl | rfl
    · rw [← isNode other.fromNode (Topology.node?_mem isFrom).1 rfl]
      exact fromClient
    · rw [← isNode other.toNode (Topology.node?_mem isTo).1 rfl]
      exact toNotClient

theorem Derives.peersOver_client {node : Node}
    (inNodes : node ∈ topo.nodes) (client : node.isClient = true) : peersOver env peers link node.id = [] := by
  rw [peersOver, map_eq_nil_iff, filter_eq_nil_iff]
  intro entry inPeers named
  simp only [Bool.and_eq_true, decide_eq_true_eq] at named
  have notClient := derives.owner_not_client inNodes inPeers named.1
  simp [client] at notClient

end

theorem clientConfig_owner {node : Node} {config : ClientPeerInfo}
    (configured : clientConfig fallback keys topo allocations node = some config) :
    node.isClient = true ∧ config.nodeID = node.id ∧ config.listenPort = wgListenPortBase ∧
      config.domainCIDRs = clientDomainCIDRs topo := by
  rw [clientConfig] at configured
  split at configured
  case isFalse => cases configured
  case isTrue isClient =>
    split at configured
    case h_1 => cases configured
    case h_2 =>
      split at configured
      case h_1 => cases configured
      case h_2 =>
        rw [← some.inj configured]
        exact ⟨isClient, rfl, rfl, rfl⟩

theorem clientConfigs_nodup (accepted : Accepted env topo) :
    ((deriveClientConfigs fallback keys topo allocations).map (·.nodeID)).Nodup := by
  refine accepted.nodeIDs_nodup.sublist ?_
  rw [deriveClientConfigs]
  induction topo.nodes with
  | nil => exact List.Sublist.refl _
  | cons node rest ih =>
    cases configured : clientConfig fallback keys topo allocations node with
    | none =>
      rw [filterMap_cons_none configured]
      exact ih.cons _
    | some config =>
      rw [filterMap_cons_some configured, map_cons, map_cons, (clientConfig_owner configured).2.1]
      exact ih.cons_cons _

variable (fallback keys) in
theorem clientConfig_of_link (accepted : Accepted env topo) (member : link ∈ topo.firstEdges)
    (given : LinkAllocated topo reserved allocations link alloc)
    (client : link.fromNode.isClient = true) :
    ∃ config, (deriveClientConfigs fallback keys topo allocations).filter (fun config =>
        config.nodeID = link.fromNode.id) = [config] ∧
      config.routerEndpoint = formatEndpoint link.edge.endpointHost (dialPort link.edge alloc.toPort) := by
  have resolved := firstEdges_resolved member
  obtain ⟨inEdges, enabled, isFrom, isTo⟩ := mem_resolvedEdges.mp resolved
  obtain ⟨inNodes, fromID⟩ := Topology.node?_mem isFrom
  have found : topo.edges.find? (fun edge => edge.isEnabled && edge.fromNodeID = link.fromNode.id) =
      some link.edge := by
    cases search : topo.edges.find? fun edge => edge.isEnabled && edge.fromNodeID = link.fromNode.id with
    | none =>
      have absent := find?_eq_none.mp search _ inEdges
      simp [enabled, fromID] at absent
    | some edge =>
      have leaves := find?_some search
      rw [Bool.and_eq_true, decide_eq_true_eq] at leaves
      have isEdge := mem_of_find?_eq_some search
      obtain ⟨fromNode, toNode, -, -, other⟩ := accepted.resolve_eq isEdge leaves.1
      have same := accepted.client_edge_unique resolved (mem_filterMap.mpr ⟨edge, isEdge, other⟩) client
        (leaves.2.trans fromID)
      exact congrArg some same
  have port : 0 < alloc.toPort := by
    have filled := given.filled.toPort
    have notClient : (linkEntity topo link).toNode.isClient = false := accepted.toNode_not_client resolved
    rwa [notClient, if_neg Bool.false_ne_true] at filled
  have dialed : 0 < dialPort link.edge alloc.toPort := by
    rw [dialPort]
    split <;> assumption
  have lookup : lookupAllocation allocations link.edge.linkKey = some alloc := given.lookup
  have forward : alloc.fromNodeID = link.fromNode.id := given.filled.fromNodeID
  have host := accepted.client_endpointHost resolved client
  cases configured : clientConfig fallback keys topo allocations link.fromNode with
  | none => simp [clientConfig, client, found, isTo] at configured
  | some config =>
    have inConfigs : config ∈ deriveClientConfigs fallback keys topo allocations :=
      mem_filterMap.mpr ⟨link.fromNode, inNodes, configured⟩
    refine ⟨config, ?_, ?_⟩
    · rw [← (clientConfig_owner configured).2.1]
      exact filter_key_eq (clientConfigs_nodup accepted) inConfigs
    · simp only [clientConfig, client, if_true, found, isTo, lookup, clientRouterPort, forward, clientRouterEndpoint,
        port, dialed, host, ne_eq, not_false_eq_true, decide_true, Bool.and_self, some.injEq] at configured
      rw [← configured]

/-- What a link with the allocation `alloc` gives its two ends. -/
structure Mirrored (env : Externals) (peers : Peers) (configs : List ClientPeerInfo)
    (link : ResolvedEdge) (alloc : PairAllocation) : Prop where
  onePeer : ∀ owner ∈ [link.fromNode, link.toNode], owner.isClient = false →
    ∃ peer, peersOver env peers link owner.id = [peer] ∧ peer.nodeID = (link.across owner.id).id ∧
      peer.listenPort = (alloc.endAt owner.id).port
  swapped : ∀ near ∈ peersOver env peers link link.fromNode.id, ∀ far ∈ peersOver env peers link link.toNode.id,
    near.localTransitIP = far.remoteTransitIP ∧ near.remoteTransitIP = far.localTransitIP ∧
      near.localLinkLocal = far.remoteLinkLocal ∧ near.remoteLinkLocal = far.localLinkLocal
  clientDials : link.fromNode.isClient = true →
    ∃ config, configs.filter (fun config => config.nodeID = link.fromNode.id) = [config] ∧
      ∀ router ∈ peersOver env peers link link.toNode.id, link.edge.endpointPort = 0 →
        config.routerEndpoint = formatEndpoint link.edge.endpointHost router.listenPort

theorem endAt_from (forward : alloc.fromNodeID = link.fromNode.id) : alloc.endAt link.fromNode.id = alloc.near :=
  if_pos forward

theorem endAt_to (forward : alloc.fromNodeID = link.fromNode.id) (distinct : link.fromNode.id ≠ link.toNode.id) :
    alloc.endAt link.toNode.id = alloc.far :=
  if_neg (forward ▸ distinct)

variable (env fallback keys topo) in
theorem toPeer_ends (forward : alloc.fromNodeID = link.fromNode.id) :
    (toPeer env fallback keys topo link alloc).nodeID = link.fromNode.id ∧
      (toPeer env fallback keys topo link alloc).listenPort = alloc.toPort ∧
      (toPeer env fallback keys topo link alloc).localTransitIP = alloc.remoteTransit ∧
      (toPeer env fallback keys topo link alloc).remoteTransitIP = alloc.localTransit ∧
      (toPeer env fallback keys topo link alloc).localLinkLocal = alloc.remoteLL ∧
      (toPeer env fallback keys topo link alloc).remoteLinkLocal = alloc.localLL := by
  cases client : link.fromNode.isClient <;>
    simp [toPeer, client, routerPeer, reversePeer, basePeer, PeerInfo.ofClient, PairAllocation.oriented, forward]

variable (env fallback keys topo alloc) in
theorem forwardPeer_ends (notClient : link.toNode.isClient = false) :
    (forwardPeer env fallback keys topo link alloc).nodeID = link.toNode.id ∧
      (forwardPeer env fallback keys topo link alloc).listenPort = alloc.fromPort ∧
      (forwardPeer env fallback keys topo link alloc).localTransitIP = alloc.localTransit ∧
      (forwardPeer env fallback keys topo link alloc).remoteTransitIP = alloc.remoteTransit ∧
      (forwardPeer env fallback keys topo link alloc).localLinkLocal = alloc.localLL ∧
      (forwardPeer env fallback keys topo link alloc).remoteLinkLocal = alloc.remoteLL := by
  simp [forwardPeer, basePeer, PairAllocation.oriented, notClient]

theorem Derives.mirrored (derives : Derives env fallback keys topo reserved peers allocations)
    (member : link ∈ topo.firstEdges)
    (given : LinkAllocated topo reserved allocations link alloc) :
    Mirrored env peers (deriveClientConfigs fallback keys topo allocations) link alloc := by
  have forward : alloc.fromNodeID = link.fromNode.id := given.filled.fromNodeID
  have distinct := firstEdges_ends derives.accepted member
  have toNotClient := derives.accepted.toNode_not_client (firstEdges_resolved member)
  have toEnd := toPeer_ends env fallback keys topo forward
  have fromEnd := forwardPeer_ends env fallback keys topo alloc toNotClient
  refine ⟨?onePeer, ?swapped, ?clientDials⟩
  case onePeer =>
    intro owner isEnd notClient
    rcases mem_pair.mp isEnd with rfl | rfl
    · refine ⟨_, derives.peersOver_from member given notClient, ?_, ?_⟩
      · rw [across_from, fromEnd.1]
      · rw [endAt_from forward, fromEnd.2.1]
        rfl
    · refine ⟨_, derives.peersOver_to member given, ?_, ?_⟩
      · rw [across_to distinct, toEnd.1]
      · rw [endAt_to forward distinct, toEnd.2.1]
        rfl
  case swapped =>
    intro near isNear far isFar
    rw [derives.peersOver_to member given, mem_singleton] at isFar
    subst isFar
    cases client : link.fromNode.isClient with
    | true =>
      obtain ⟨-, -, isFrom, -⟩ := mem_resolvedEdges.mp (firstEdges_resolved member)
      rw [derives.peersOver_client (Topology.node?_mem isFrom).1 client] at isNear
      cases isNear
    | false =>
      rw [derives.peersOver_from member given client, mem_singleton] at isNear
      subst isNear
      obtain ⟨-, -, localTransit, remoteTransit, localLL, remoteLL⟩ := toEnd
      obtain ⟨-, -, localTransit', remoteTransit', localLL', remoteLL'⟩ := fromEnd
      rw [localTransit, remoteTransit, localLL, remoteLL, localTransit', remoteTransit', localLL', remoteLL']
      exact ⟨rfl, rfl, rfl, rfl⟩
  case clientDials =>
    intro client
    obtain ⟨config, single, endpoint⟩ := clientConfig_of_link fallback keys derives.accepted member given client
    refine ⟨config, single, fun router isRouter noOverride => ?_⟩
    rw [derives.peersOver_to member given, mem_singleton] at isRouter
    subst isRouter
    rw [endpoint, toEnd.2.1, dialPort, if_neg (by omega)]

/-- The derivation of the peers of an accepted topology never meets an edge against its allocation; each link gives
each of its ends that is no client one peer, with the port allocated there, and the two peers hold the addresses of
the link the other way round; the client of a link dials the port its router listens on there. -/
theorem peers_mirror (accepted : Accepted env topo) :
    derivePeersWithDomains env fallback keys topo reserved ≠ .error .orientationPanic ∧
      ∀ peers allocations, derivePeersWithDomains env fallback keys topo reserved = .ok (peers, allocations) →
        (∀ link ∈ topo.firstEdges, ∃ alloc, lookupAllocation allocations link.linkKey = some alloc ∧
          Mirrored env peers (deriveClientConfigs fallback keys topo allocations) link alloc) ∧
        ∀ entry ∈ peers, ∃ link ∈ topo.firstEdges, entry.1 ∈ [link.fromNode.id, link.toNode.id] ∧
          entry.2 ∈ peersOver env peers link entry.1 := by
  constructor
  · intro panics
    rw [derivePeersWithDomains] at panics
    split at panics
    case h_1 => cases panics
    case h_2 allocations allocated =>
      obtain ⟨peers, built⟩ := buildPeerInfo_some fallback keys accepted allocated
      rw [built] at panics
      cases panics
  · intro peers allocations derived
    have derives := derives_of_ok accepted derived
    refine ⟨fun link member => ?_, fun entry => derives.over_link⟩
    obtain ⟨alloc, given⟩ := derives.given member
    exact ⟨alloc, given.lookup, derives.mirrored member given⟩

end

/-- Two routers and a client of the first. -/
def sampleClient : Topology :=
  { samplePair with
    nodes := samplePair.nodes ++ [{ sampleRouter "c" "d1" with role := .client }]
    edges := samplePair.edges ++ [{ sampleEdge "e3" "c" "a" with transport := .udp }] }

theorem sampleClient_mirrored : ∃ peers allocations,
    derivePeersWithDomains sampleEnv .inherit (fun _ => none) sampleClient.withDefaults {} = .ok (peers, allocations) ∧
      (∃ link ∈ sampleClient.withDefaults.firstEdges, link.fromNode.isClient = true) ∧
      ∀ link ∈ sampleClient.withDefaults.firstEdges, ∃ alloc, lookupAllocation allocations link.linkKey = some alloc ∧
        Mirrored sampleEnv peers
          (deriveClientConfigs .inherit (fun _ => none) sampleClient.withDefaults allocations) link alloc := by
  have accepted : Accepted sampleEnv sampleClient.withDefaults :=
    accepted_iff.mp ⟨by decide +kernel, by decide +kernel⟩
  obtain ⟨⟨peers, allocations⟩, derived⟩ : ∃ found,
      derivePeersWithDomains sampleEnv .inherit (fun _ => none) sampleClient.withDefaults {} = .ok found :=
    exists_ok (by decide +kernel)
  exact ⟨peers, allocations, derived, by decide +kernel, ((peers_mirror accepted).2 _ _ derived).1⟩

/-- The interfaces of a compile are those the validator has compared in the design it accepted. -/
theorem compiled_interfaces_usable {env : Externals} {settings : Settings} {keys : Keys} {input : Topology}
    {result : CompileResult} (compiled : compileAt env settings keys input = .ok result) :
    InterfacesUsable env input.withDefaults result.peers := by
  obtain ⟨nodes, allocations, run⟩ := compileAt_ok compiled
  have names := run.derives.interfacesUsable
  have sameEntries : interfaceEntries (allocatedTopology input.withDefaults nodes) env =
      interfaceEntries input.withDefaults env := by
    rw [← interfaceEntries_design, allocatedTopology_design run.allAddressed, interfaceEntries_design]
  exact ⟨sameEntries ▸ names.recomputed, names.distinct, names.usable⟩

theorem sampleClient_interfaces_usable : ∃ result,
    sampleCompile sampleClient = .ok result ∧
      InterfacesUsable sampleEnv sampleClient.withDefaults result.peers := by
  obtain ⟨result, compiled⟩ : ∃ result, sampleCompile sampleClient = .ok result := exists_ok (by decide +kernel)
  exact ⟨result, compiled, compiled_interfaces_usable compiled⟩

end Compiler

end Yaog
