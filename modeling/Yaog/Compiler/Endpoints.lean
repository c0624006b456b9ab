import Yaog.Compiler.Authority
import Yaog.Compiler.LinkPeers

/-!
# Endpoints

What each end of a link dials, read off the edges of the design: a host and the operator's port, or the
port the other end listens on.
-/

namespace Yaog.Compiler

open Allocator Net Validator List

private theorem itoa_toList {port : Int} (positive : 0 ≤ port) : (itoa port).toList = Nat.toDigits 10 port.toNat := by
  rw [itoa, if_neg (by omega)]
  exact Nat.toList_repr

private theorem colon_not_mem_itoa (port : Int) : ':' ∉ (itoa port).toList := by
  by_cases positive : 0 ≤ port
  · rw [itoa_toList positive]
    intro member
    have digit := Nat.isDigit_of_mem_toDigits (by decide) (by decide) member
    simp at digit
  · rw [itoa, if_pos (by omega)]
    simp

private theorem itoa_injective {port port' : Int} (positive : 0 ≤ port) (positive' : 0 ≤ port')
    (same : (itoa port).toList = (itoa port').toList) : port = port' := by
  rw [itoa_toList positive, itoa_toList positive'] at same
  have values := congrArg (fun digits => Nat.ofDigitChars 10 digits 0) same
  simp only [Nat.ofDigitChars_toDigits (by decide : 1 < 10) (by decide : 10 ≤ 10)] at values
  omega

private def hostPart (host : String) : List Char := if ':' ∈ host.toList then '[' :: host.toList ++ [']'] else host.toList

private theorem formatEndpoint_toList (host : String) (port : Int) :
    (formatEndpoint host port).toList = hostPart host ++ ':' :: (itoa port).toList := by
  rw [formatEndpoint, hostPart]
  split <;> simp [String.toList_append]

private theorem hostPart_injective {host host' : String} (same : hostPart host = hostPart host') : host = host' := by
  rw [hostPart, hostPart] at same
  apply String.toList_inj.mp
  split at same
  case isTrue colon =>
    split at same
    case isTrue =>
      exact (append_inj' (List.cons.inj same).2 rfl).1
    case isFalse noColon => exact absurd (same ▸ by simp [colon]) noColon
  case isFalse noColon =>
    split at same
    case isTrue colon => exact absurd (same ▸ by simp [colon]) noColon
    case isFalse => exact same

theorem formatEndpoint_inj {host host' : String} {port port' : Int} (positive : 0 ≤ port) (positive' : 0 ≤ port') :
    formatEndpoint host port = formatEndpoint host' port' ↔ host = host' ∧ port = port' := by
  constructor
  · intro same
    have chars := congrArg (fun text => text.toList.reverse) same
    simp only [formatEndpoint_toList, reverse_append, reverse_cons, append_assoc, singleton_append] at chars
    have absent : ∀ port, ':' ∉ (itoa port).toList.reverse := fun port member =>
      colon_not_mem_itoa port (mem_reverse.mp member)
    obtain ⟨ports, hosts⟩ := append_cons_inj (absent port) (absent port') chars
    exact ⟨hostPart_injective (reverse_injective hosts),
      itoa_injective positive positive' (reverse_injective ports)⟩
  · rintro ⟨rfl, rfl⟩
    rfl

theorem formatEndpoint_ne (host : String) (port : Int) : formatEndpoint host port ≠ "" := by
  intro blank
  have chars := congrArg String.toList blank
  rw [formatEndpoint_toList] at chars
  simp at chars

section

variable {env : Externals} {topo : Topology}

private theorem directionText_inj {fromID toID fromID' toID' : String} (absent : '>' ∉ fromID.toList)
    (absent' : '>' ∉ fromID'.toList) (same : directionText fromID toID = directionText fromID' toID') :
    fromID = fromID' ∧ toID = toID' := by
  have chars := congrArg String.toList same
  have arrow : "->".toList = ['-', '>'] := rfl
  have split : ∀ text rest : List Char, text ++ ['-', '>'] ++ rest = (text ++ ['-']) ++ '>' :: rest := by simp
  simp only [directionText, String.toList_append, arrow, split] at chars
  obtain ⟨froms, tos⟩ := append_cons_inj (by simpa using absent) (by simpa using absent') chars
  exact ⟨String.toList_inj.mp (append_inj' froms rfl).1, String.toList_inj.mp tos⟩

private theorem arrow_not_mem (accepted : Accepted env topo) {edge : Edge} (member : edge ∈ topo.edges) :
    '>' ∉ edge.fromNodeID.toList ∧ '>' ∉ edge.toNodeID.toList := by
  obtain ⟨fromChars, toChars⟩ := accepted.edge_id_chars member
  constructor
  · intro inID
    exact absurd (fromChars _ inID) (by decide)
  · intro inID
    exact absurd (toChars _ inID) (by decide)

theorem edgeInDirection_some (accepted : Accepted env topo) {edge found : Edge} (member : edge ∈ topo.edges)
    (search : edgeInDirection topo edge.toNodeID edge.fromNodeID = some found) :
    found ∈ topo.edges ∧ isPrimaryClass found = true ∧ found.fromNodeID = edge.toNodeID ∧
      found.toNodeID = edge.fromNodeID := by
  have inEdges := mem_reverse.mp (mem_of_find?_eq_some search)
  have matched := find?_some search
  rw [Bool.and_eq_true, decide_eq_true_eq] at matched
  obtain ⟨primary, text⟩ := matched
  obtain ⟨froms, tos⟩ := directionText_inj (arrow_not_mem accepted inEdges).1 (arrow_not_mem accepted member).2 text
  exact ⟨inEdges, primary, froms, tos⟩

end

/-- A host and the port an operator gave for it; without one the remote end's port is dialed. -/
structure DialTarget where
  host : String
  port : Int
  deriving DecidableEq, Repr

def DialTarget.endpoint (target : DialTarget) (remotePort : Int) : String :=
  formatEndpoint target.host (if 0 < target.port then target.port else remotePort)

def endpointText (target : Option DialTarget) (remotePort : Int) : String :=
  (target.map fun target => target.endpoint remotePort).getD ""

def Edge.dialTarget (edge : Edge) : DialTarget where
  host := edge.endpointHost
  port := edge.endpointPort

def forwardTarget (edge : Edge) : Option DialTarget :=
  if edge.endpointHost = "" then none else some (Edge.dialTarget edge)

/-- The target of the to-end of a link: that of the last edge of the primary class in its direction, or else the
first public endpoint of the from-node. -/
def reverseTarget (topo : Topology) (edge : Edge) (fromNode : Node) : Option DialTarget :=
  if edge.linkDirection = .forward then none
  else
    match (edgeInDirection topo edge.toNodeID edge.fromNodeID).filter fun other => other.endpointHost ≠ "" with
    | some other => some (Edge.dialTarget other)
    | none => fromNode.publicEndpoints.head?.map fun endpoint => { host := endpoint.host, port := 0 }

section

variable {env : Externals} {fallback : MimicFallback} {keys : Keys} {topo : Topology} {reserved : Resources}
  {allocations : Allocations} {peers : Peers} {link : ResolvedEdge} {alloc : PairAllocation}

theorem endpointText_ne {target : Option DialTarget} {remotePort : Int} (dials : endpointText target remotePort ≠ "") :
    ∃ found, target = some found ∧ endpointText target remotePort = found.endpoint remotePort := by
  cases target with
  | none => exact absurd rfl dials
  | some found => exact ⟨found, rfl, rfl⟩

variable (env fallback keys topo alloc) in
theorem forwardPeer_endpoint (notClient : link.toNode.isClient = false) :
    (forwardPeer env fallback keys topo link alloc).endpoint = endpointText (forwardTarget link.edge) alloc.toPort := by
  simp only [forwardPeer, notClient, Bool.false_eq_true, if_false, forwardEndpoint, forwardTarget]
  split <;> rfl

def Inferred (node : Node) : Prop := node.publicEndpoints ≠ [] → node.capabilities.hasPublicIP = true

theorem allocatedTopology_inferred {nodes : List Node} {node : Node}
    (member : node ∈ (allocatedTopology topo nodes).nodes) : Inferred node := by
  obtain ⟨before, -, rfl⟩ := mem_map.mp member
  intro listed
  have same : (withInferredCapabilities before).publicEndpoints = before.publicEndpoints := rfl
  rw [same] at listed
  cases role : before.role <;> simp [withInferredCapabilities, inferCapabilitiesFromRole, role, listed]

variable (env fallback keys alloc) in
theorem reversePeer_endpoint (member : link ∈ topo.resolvedEdges) (inferred : Inferred link.fromNode) :
    (reversePeer env fallback keys topo link alloc).endpoint =
      endpointText (reverseTarget topo link.edge link.fromNode) alloc.fromPort := by
  obtain ⟨fromID, toID⟩ := resolved_ids member
  simp only [reversePeer, reverseEndpoint, reverseTarget, fromID, toID]
  split
  case isTrue => rfl
  case isFalse =>
    generalize (edgeInDirection topo link.edge.toNodeID link.edge.fromNodeID).filter
      (fun other => decide (other.endpointHost ≠ "")) = reverse
    cases reverse with
    | some other => rfl
    | none =>
      cases listed : link.fromNode.publicEndpoints with
      | nil => cases link.fromNode.capabilities.hasPublicIP <;> rfl
      | cons endpoint rest =>
        rw [inferred (by simp [listed])]
        rfl

end

section

variable {env : Externals} {settings : Settings} {keys : Keys} {topo input : Topology} {result : CompileResult}
  {edge other : Edge}

private theorem conflictingEdgeID_none {ids : List String} (none : conflictingEdgeID edge ids = none) {id id' : String}
    (member : id ∈ ids) (member' : id' ∈ ids) : id = id' := by
  rcases ids with _ | ⟨first, _ | ⟨second, rest⟩⟩
  · cases member
  · rw [mem_singleton.mp member, mem_singleton.mp member']
  · cases none

section

variable (accepted : Accepted env topo) (member : edge ∈ topo.edges) (enabled : edge.isEnabled = true)
  (forward : edge.linkDirection = .forward)

include accepted member enabled forward

theorem forward_edge
    :
    edge.endpointHost ≠ "" ∧ (edge.isBackup = false → conflictingEdgeID edge (pairEdgeIDs topo edge) = none) ∧
      ∀ link, topo.resolve edge = some link → link.fromNode.isClient = false ∧ link.toNode.isClient = false := by
  obtain ⟨i, found⟩ := getElem?_of_mem member
  have valid := isValid_eachIndexed.mp accepted.directions i edge found
  obtain ⟨fromNode, toNode, -, -, resolved⟩ := accepted.resolve_eq member enabled
  simp only [forward, if_true, resolved] at valid
  cases client : fromNode.isClient || toNode.isClient with
  | true => simp [client, isValid, errors, error] at valid
  | false =>
    simp only [client, Bool.false_eq_true, if_false, isValid_append, isValid_report_error,
      decide_eq_false_iff_not] at valid
    refine ⟨valid.2, fun primary => ?_, fun link isLink => ?_⟩
    · have first := valid.1
      rw [primary] at first
      cases conflict : conflictingEdgeID edge (pairEdgeIDs topo edge) with
      | none => rfl
      | some id => simp [conflict, isValid, errors, error] at first
    · obtain rfl := Option.mem_unique resolved isLink
      exact Bool.or_eq_false_iff.mp client

theorem forward_alone (member' : other ∈ topo.edges) (enabled' : other.isEnabled = true)
    (key : other.linkKey = edge.linkKey) : other = edge := by
  obtain ⟨samePair, sameClass, sameID⟩ := accepted.linkKey_inj member' member key
  apply inj_on_of_nodup_map accepted.edgeIDs_nodup member' member
  cases backup : edge.isBackup with
  | true => exact sameID (sameClass.trans backup)
  | false =>
    -- both are primary edges of one pair, and the pair has room for one
    have primary := sameClass.trans backup
    have inPair : ∀ found ∈ topo.edges, found.isEnabled = true → found.isBackup = false → found.samePair edge →
        found.id ∈ pairEdgeIDs topo edge := by
      intro found isEdge isEnabled isPrimary same
      have pinKeys : edgePinKey found = edgePinKey edge := by
        have keys := Edge.linkKey_eq same isPrimary backup
        simpa [Edge.linkKey, edgePinKey, isPrimary, backup] using keys
      exact mem_map_of_mem (mem_filter.mpr ⟨isEdge, by simp [isPrimaryClass, isEnabled, isPrimary, pinKeys]⟩)
    exact conflictingEdgeID_none ((forward_edge accepted member enabled forward).2.1 backup)
      (inPair other member' enabled' primary samePair) (inPair edge member enabled backup (.inl ⟨rfl, rfl⟩))

theorem forward_first
    : ∃ link ∈ topo.firstEdges, link.edge = edge := by
  obtain ⟨fromNode, toNode, -, -, resolved⟩ := accepted.resolve_eq member enabled
  obtain ⟨first, kept, key⟩ := @Data.exists_kept _ _ _ ResolvedEdge.linkKey _ _
    (mem_filterMap.mpr ⟨edge, member, resolved⟩)
  obtain ⟨inEdges, isEnabled, -, -⟩ := mem_resolvedEdges.mp (firstEdges_resolved kept)
  exact ⟨first, kept, forward_alone accepted member enabled forward inEdges isEnabled key⟩

end

theorem peersOver_writtenBack {allocations : Allocations} {peers : Peers} {link : ResolvedEdge} {nodeID : String} :
    peersOver env peers (ResolvedEdge.writtenBack topo allocations link) nodeID = peersOver env peers link nodeID := by
  have named : (ResolvedEdge.writtenBack topo allocations link).interfaceAt env nodeID = link.interfaceAt env nodeID := by
    simp only [ResolvedEdge.interfaceAt, ResolvedEdge.writtenBack, writeBack_id, writeBack_isBackup]
    rfl
  rw [peersOver, peersOver, named]

/-- An enabled edge of the direction `forward` is dialed from its from-node, through its own host, and from there
only: the peer at its to-node has no endpoint. -/
theorem forward_dialed_from_one_side (compiled : compileAt env settings keys input = .ok result)
    (member : edge ∈ input.withDefaults.edges) (enabled : edge.isEnabled = true)
    (forward : edge.linkDirection = .forward) :
    ∃ link ∈ result.topology.firstEdges, link.linkKey = edge.linkKey ∧
      (∃ peer port, peersOver env result.peers link edge.fromNodeID = [peer] ∧ edge.endpointHost ≠ "" ∧ 0 < port ∧
        peer.endpoint = formatEndpoint edge.endpointHost port) ∧
      ∃ peer, peersOver env result.peers link edge.toNodeID = [peer] ∧ peer.endpoint = "" := by
  obtain ⟨nodes, allocations, run⟩ := compileAt_ok compiled
  have derives := run.derives
  obtain ⟨link, first, rfl⟩ := forward_first derives.accepted member enabled forward
  have resolved := firstEdges_resolved first
  obtain ⟨-, -, isFrom, isTo⟩ := mem_resolvedEdges.mp resolved
  obtain ⟨fromID, toID⟩ := resolved_ids resolved
  obtain ⟨alloc, given⟩ := derives.given first
  obtain ⟨host, -, ends⟩ := forward_edge derives.accepted member enabled forward
  have isLink : (allocatedTopology input.withDefaults nodes).resolve link.edge = some link := by
    simp [Topology.resolve, enabled, isFrom, isTo]
  obtain ⟨fromNotClient, toNotClient⟩ := ends link isLink
  have port : 0 < dialPort link.edge alloc.toPort := by
    have filled := given.filled.toPort
    have notClient : (linkEntity (allocatedTopology input.withDefaults nodes) link).toNode.isClient = false := toNotClient
    rw [notClient, if_neg Bool.false_ne_true] at filled
    rw [dialPort]
    split <;> assumption
  refine ⟨ResolvedEdge.writtenBack (allocatedTopology input.withDefaults nodes) allocations link, ?_,
    writtenBack_linkKey _ _ _, ?_, ?_⟩
  · rw [run.topology, compiled_firstEdges]
    exact mem_map_of_mem first
  · have fromPeers := derives.peersOver_from first given fromNotClient
    rw [fromID] at fromPeers
    refine ⟨_, _, peersOver_writtenBack.trans fromPeers, host, port, ?_⟩
    rw [forwardPeer_endpoint _ _ _ _ _ toNotClient, forwardTarget, if_neg host]
    rfl
  · have toPeers := derives.peersOver_to first given
    rw [toID] at toPeers
    refine ⟨_, peersOver_writtenBack.trans toPeers, ?_⟩
    simp [toPeer, fromNotClient, reversePeer, reverseEndpoint, forward]

end

def sampleForwardEdge : Edge := { sampleEdge "e1" "a" "b" with transport := .udp, linkDirection := .forward }

/-- A single-linked edge, and a backup of its pair with an endpoint the other way. -/
def sampleForward : Topology :=
  { samplePair with
    edges := [{ sampleEdge "e0" "b" "a" with role := .backup, endpointPort := 40000 }, sampleForwardEdge] }

theorem sampleForward_one_side : ∃ result, sampleCompile sampleForward = .ok result ∧
    ∃ link ∈ result.topology.firstEdges, link.linkKey = sampleForwardEdge.linkKey ∧
      (∃ peer port, peersOver sampleEnv result.peers link "a" = [peer] ∧ sampleForwardEdge.endpointHost ≠ "" ∧
        0 < port ∧ peer.endpoint = formatEndpoint sampleForwardEdge.endpointHost port) ∧
      ∃ peer, peersOver sampleEnv result.peers link "b" = [peer] ∧ peer.endpoint = "" := by
  obtain ⟨result, compiled⟩ : ∃ result, sampleCompile sampleForward = .ok result := exists_ok (by decide +kernel)
  have member : sampleForwardEdge ∈ sampleForward.withDefaults.edges := by decide +kernel
  exact ⟨result, compiled, forward_dialed_from_one_side compiled member rfl rfl⟩

end Yaog.Compiler
