import Yaog.Compiler.CompileFacts

/-!
# The ends of a link and what is written back

Every enabled edge of a compiled topology carries the values of its link at its two ends.
-/

namespace Yaog.Compiler

open Net Validator List

variable {topo : Topology} {link : LinkEntity} {alloc : PairAllocation}

theorem groupLinks_keys_nodup (topo : Topology) : ((groupLinks topo).map LinkEntity.linkKey).Nodup := by
  rw [groupLinks, map_map]
  exact Data.keepFirst_keys_nodup topo.resolvedEdges

theorem mem_groupLinks (member : link ∈ groupLinks topo) :
    ∃ resolved ∈ topo.resolvedEdges, link = linkEntity topo resolved := by
  obtain ⟨resolved, first, rfl⟩ := mem_map.mp member
  exact ⟨resolved, Data.mem_of_mem_keepFirst first, rfl⟩

theorem exists_link {resolved : ResolvedEdge} (member : resolved ∈ topo.resolvedEdges) :
    ∃ link ∈ groupLinks topo, link.linkKey = resolved.linkKey := by
  obtain ⟨first, kept, same⟩ := @Data.exists_kept _ _ _ ResolvedEdge.linkKey _ _ member
  exact ⟨linkEntity topo first, mem_map_of_mem kept, same⟩

section

variable {env : Externals} {topo : Topology} {link : LinkEntity} {resolved : ResolvedEdge}

theorem resolved_ids (member : resolved ∈ topo.resolvedEdges) :
    resolved.fromNode.id = resolved.edge.fromNodeID ∧ resolved.toNode.id = resolved.edge.toNodeID := by
  obtain ⟨-, -, isFrom, isTo⟩ := mem_resolvedEdges.mp member
  exact ⟨(Topology.node?_mem isFrom).2, (Topology.node?_mem isTo).2⟩

theorem groupLinks_ends (accepted : Accepted env topo) :
    ∀ link ∈ groupLinks topo, link.fromNode.id ≠ link.toNode.id := by
  intro link member
  obtain ⟨resolved, inResolved, rfl⟩ := mem_groupLinks member
  obtain ⟨fromID, toID⟩ := resolved_ids inResolved
  obtain ⟨-, -, distinct⟩ := accepted.edge_ends (mem_resolvedEdges.mp inResolved).1
  change resolved.fromNode.id ≠ resolved.toNode.id
  rw [fromID, toID]
  exact distinct

theorem groupLinks_toNode (accepted : Accepted env topo) (member : link ∈ groupLinks topo) :
    link.toNode.isClient = false := by
  obtain ⟨resolved, inResolved, rfl⟩ := mem_groupLinks member
  exact accepted.toNode_not_client inResolved

theorem groupLinks_edge (member : link ∈ groupLinks topo) :
    link.primaryEdge ∈ topo.edges ∧ link.primaryEdge.isEnabled = true ∧
      topo.node? link.primaryEdge.fromNodeID = some link.fromNode ∧
      topo.node? link.primaryEdge.toNodeID = some link.toNode := by
  obtain ⟨resolved, inResolved, rfl⟩ := mem_groupLinks member
  exact mem_resolvedEdges.mp inResolved

end

/-- A change of an edge that leaves it on its link. -/
structure KeepsLink (change : Edge → Edge) : Prop where
  isEnabled : ∀ edge, (change edge).isEnabled = edge.isEnabled
  fromNodeID : ∀ edge, (change edge).fromNodeID = edge.fromNodeID
  toNodeID : ∀ edge, (change edge).toNodeID = edge.toNodeID
  linkKey : ∀ edge, (change edge).linkKey = edge.linkKey

def Topology.mapEdges (topo : Topology) (change : Edge → Edge) : Topology := { topo with edges := topo.edges.map change }

def ResolvedEdge.mapEdge (change : Edge → Edge) (link : ResolvedEdge) : ResolvedEdge :=
  { link with edge := change link.edge }

def LinkEntity.mapEdge (change : Edge → Edge) (link : LinkEntity) : LinkEntity :=
  { link with primaryEdge := change link.primaryEdge }

section

variable {change : Edge → Edge} (keeps : KeepsLink change) (topo : Topology)

include keeps

theorem resolve_mapEdges (edge : Edge) : (Topology.mapEdges topo change).resolve (change edge) =
    (topo.resolve edge).map (ResolvedEdge.mapEdge change) := by
  have nodes : ∀ id, (Topology.mapEdges topo change).node? id = topo.node? id := fun _ => rfl
  rw [Topology.resolve, Topology.resolve, keeps.isEnabled, keeps.fromNodeID, keeps.toNodeID, nodes, nodes]
  split
  · cases topo.node? edge.fromNodeID <;> cases topo.node? edge.toNodeID <;> rfl
  · rfl

theorem resolvedEdges_mapEdges : (Topology.mapEdges topo change).resolvedEdges =
    topo.resolvedEdges.map (ResolvedEdge.mapEdge change) := by
  rw [Topology.resolvedEdges, Topology.mapEdges, filterMap_map, Topology.resolvedEdges, map_filterMap]
  congr 1
  funext edge
  exact resolve_mapEdges keeps topo edge

theorem firstEdges_mapEdges : (Topology.mapEdges topo change).firstEdges =
    topo.firstEdges.map (ResolvedEdge.mapEdge change) := by
  rw [Topology.firstEdges, resolvedEdges_mapEdges keeps, Topology.firstEdges]
  exact Data.keepFirst_map (ResolvedEdge.mapEdge change) (fun link => keeps.linkKey link.edge) topo.resolvedEdges

theorem groupLinks_mapEdges : groupLinks (Topology.mapEdges topo change) =
    (groupLinks topo).map (LinkEntity.mapEdge change) := by
  rw [groupLinks, firstEdges_mapEdges keeps, groupLinks, map_map, map_map]
  rfl

end

structure EndValues where
  port : Int
  transitIP : String
  linkLocal : String

def EndValues.complete (values : EndValues) (client : Bool) : Prop :=
  (if client then values.port = 0 else 0 < values.port) ∧ values.transitIP ≠ "" ∧ values.linkLocal ≠ ""

theorem EndValues.complete.port_eq_zero {values : EndValues} {client : Bool} (complete : values.complete client)
    (isClient : client = true) : values.port = 0 := by
  have port := complete.1
  rw [if_pos isClient] at port
  exact port

def PairAllocation.endAt (alloc : PairAllocation) (nodeID : String) : EndValues :=
  if alloc.fromNodeID = nodeID then
    { port := alloc.fromPort, transitIP := alloc.localTransit, linkLocal := alloc.localLL }
  else { port := alloc.toPort, transitIP := alloc.remoteTransit, linkLocal := alloc.remoteLL }

def Edge.fromEnd (edge : Edge) : EndValues where
  port := edge.pinnedFromPort
  transitIP := edge.pinnedFromTransitIP
  linkLocal := edge.pinnedFromLinkLocal

def Edge.toEnd (edge : Edge) : EndValues where
  port := edge.pinnedToPort
  transitIP := edge.pinnedToTransitIP
  linkLocal := edge.pinnedToLinkLocal

/-- What the allocator guarantees for every link: the ends are the link's, a client end has no port,
every other value is set. -/
structure Filled (link : LinkEntity) (alloc : PairAllocation) : Prop where
  fromNodeID : alloc.fromNodeID = link.fromNode.id
  toNodeID : alloc.toNodeID = link.toNode.id
  fromPort : if link.fromNode.isClient then alloc.fromPort = 0 else 0 < alloc.fromPort
  toPort : if link.toNode.isClient then alloc.toPort = 0 else 0 < alloc.toPort
  localTransit : alloc.localTransit ≠ ""
  remoteTransit : alloc.remoteTransit ≠ ""
  localLL : alloc.localLL ≠ ""
  remoteLL : alloc.remoteLL ≠ ""

section

variable {reserved : Resources} {done : List LinkEntity} {total : Nat} {link : LinkEntity} {pair : String × String}

theorem expectedAllocation_some (expected : expectedAllocation reserved done total link = some alloc) :
    ∃ ports transit linkLocal, expectedPorts reserved done link = some ports ∧
      expectedTransit reserved done link = some transit ∧
      expectedLinkLocal reserved done total link = some linkLocal ∧
      alloc = { fromNodeID := link.fromNode.id, toNodeID := link.toNode.id
                fromPort := ports.1, toPort := ports.2
                localTransit := transit.1, remoteTransit := transit.2
                localLL := linkLocal.1, remoteLL := linkLocal.2 } := by
  rw [expectedAllocation] at expected
  split at expected
  case h_1 ports transit linkLocal isPorts isTransit isLinkLocal =>
    exact ⟨ports, transit, linkLocal, isPorts, isTransit, isLinkLocal, (Option.some.inj expected).symm⟩
  case h_2 => cases expected

private theorem portSlot_filled {node : Node} {port : Int} (slot : portSlot reserved done node = some port) :
    if node.isClient then port = 0 else 0 < port := by
  rw [portSlot, portAt] at slot
  split at slot
  case isTrue client =>
    rw [if_pos client]
    exact (Option.some.inj slot).symm
  case isFalse notClient =>
    rw [if_neg notClient]
    obtain ⟨candidate, found, rfl⟩ := Option.map_eq_some_iff.mp slot
    have member := mem_of_mem_filter (mem_of_getElem? found)
    have range := mem_range'.mp member
    have base : wgListenPortBase = 51820 := rfl
    omega

private theorem expectedPorts_filled {ports : Int × Int} (expected : expectedPorts reserved done link = some ports) :
    (if link.fromNode.isClient then ports.1 = 0 else 0 < ports.1) ∧
      if link.toNode.isClient then ports.2 = 0 else 0 < ports.2 := by
  rw [expectedPorts] at expected
  cases pinned : pinnedPorts link with
  | none =>
    simp only [pinned] at expected
    split at expected
    case h_1 fromPort toPort fromSlot toSlot =>
      cases expected
      exact ⟨portSlot_filled fromSlot, portSlot_filled toSlot⟩
    case h_2 => cases expected
  | some pins =>
    simp only [pinned, Option.some.injEq] at expected
    subst expected
    simp only [pinnedPorts] at pinned
    split at pinned
    case isTrue clientFrom =>
      cases pinned
      simp_all
    case isFalse =>
      split at pinned
      case isTrue clientTo =>
        cases pinned
        simp_all
      case isFalse =>
        split at pinned
        case isTrue both =>
          cases pinned
          simp_all
        case isFalse => cases pinned

private theorem expectedTransit_filled
    (expected : expectedTransit reserved done link = some pair) : pair.1 ≠ "" ∧ pair.2 ≠ "" := by
  rw [expectedTransit] at expected
  cases pinned : pinnedTransit link with
  | some pins =>
    simp only [pinned, Option.some.injEq] at expected
    subst expected
    obtain ⟨set, isPair⟩ := Option.ite_none_right_eq_some.mp pinned
    cases isPair
    exact set
  | none =>
    simp only [pinned] at expected
    have member := mem_of_mem_filter (mem_of_getElem? expected)
    obtain ⟨net, network, index, -, -, -, rfl⟩ := mem_transitPairs member
    exact ⟨format_ne_empty _, format_ne_empty _⟩

private theorem expectedLinkLocal_filled
    (expected : expectedLinkLocal reserved done total link = some pair) : pair.1 ≠ "" ∧ pair.2 ≠ "" := by
  rw [expectedLinkLocal] at expected
  cases pinned : pinnedLinkLocal link with
  | some pins =>
    simp only [pinned, Option.some.injEq] at expected
    subst expected
    obtain ⟨set, isPair⟩ := Option.ite_none_right_eq_some.mp pinned
    cases isPair
    exact set
  | none =>
    simp only [pinned] at expected
    obtain ⟨index, -, rfl⟩ := Option.map_eq_some_iff.mp expected
    have nonempty : ∀ number, linkLocalText number ≠ "" := by
      intro number blank
      have chars := congrArg String.toList blank
      simp [linkLocalText, String.toList_append] at chars
    exact ⟨nonempty _, nonempty _⟩

theorem filled_of_expected
    (expected : expectedAllocation reserved done total link = some alloc) : Filled link alloc := by
  obtain ⟨ports, transit, linkLocal, isPorts, isTransit, isLinkLocal, rfl⟩ := expectedAllocation_some expected
  obtain ⟨fromPort, toPort⟩ := expectedPorts_filled isPorts
  obtain ⟨localTransit, remoteTransit⟩ := expectedTransit_filled isTransit
  obtain ⟨localLL, remoteLL⟩ := expectedLinkLocal_filled isLinkLocal
  exact { fromNodeID := rfl, toNodeID := rfl, fromPort, toPort, localTransit, remoteTransit, localLL, remoteLL }

end

def Edge.withEnds (edge : Edge) (fromEnd toEnd : EndValues) : Edge :=
  { edge with
    pinnedFromPort := fromEnd.port, pinnedToPort := toEnd.port
    pinnedFromTransitIP := fromEnd.transitIP, pinnedToTransitIP := toEnd.transitIP
    pinnedFromLinkLocal := fromEnd.linkLocal, pinnedToLinkLocal := toEnd.linkLocal
    compiledPort := if edge.endpointHost = "" then edge.compiledPort else dialPort edge toEnd.port }

theorem endAt_of_samePair {edge other : Edge} (same : other.samePair edge)
    (fromID : alloc.fromNodeID = other.fromNodeID) (distinct : other.fromNodeID ≠ other.toNodeID) :
    alloc.oriented (alloc.fromNodeID = edge.fromNodeID) =
      { fromPort := (alloc.endAt edge.fromNodeID).port, toPort := (alloc.endAt edge.toNodeID).port
        fromTransitIP := (alloc.endAt edge.fromNodeID).transitIP
        toTransitIP := (alloc.endAt edge.toNodeID).transitIP
        fromLinkLocal := (alloc.endAt edge.fromNodeID).linkLocal
        toLinkLocal := (alloc.endAt edge.toNodeID).linkLocal } := by
  rcases same with ⟨froms, tos⟩ | ⟨froms, tos⟩
  · have forward : alloc.fromNodeID = edge.fromNodeID := fromID.trans froms
    have backward : alloc.fromNodeID ≠ edge.toNodeID := by rw [fromID, ← tos]; exact distinct
    simp [PairAllocation.oriented, PairAllocation.endAt, forward, forward ▸ backward]
  · have forward : alloc.fromNodeID = edge.toNodeID := fromID.trans froms
    have backward : alloc.fromNodeID ≠ edge.fromNodeID := by rw [fromID, ← tos]; exact distinct
    simp [PairAllocation.oriented, PairAllocation.endAt, forward, forward ▸ backward]

theorem hasClient_eq {id : String} {node : Node} (found : topo.node? id = some node) :
    Topology.hasClient topo id = node.isClient := by
  rw [Topology.hasClient, found, Option.any_some]

theorem clearClientPorts_design (topo : Topology) (edge : Edge) :
    (clearClientPorts topo edge).design = edge.design := rfl

theorem Edge.withCompiledPort_design (edge : Edge) (port : Int) :
    (Edge.withCompiledPort edge port).design = edge.design := by
  rw [Edge.withCompiledPort]
  split <;> rfl

theorem Edge.withPins_design (edge : Edge) (pins : Oriented) : (Edge.withPins edge pins).design = edge.design := rfl

section

variable (topo : Topology) (allocations : Allocations)

theorem writeBack_design (edge : Edge) :
    (writeBack topo allocations edge).design = edge.design := by
  simp only [writeBack]
  split
  case isFalse => rw [clearClientPorts_design]
  case isTrue =>
    split
    case h_1 => rw [clearClientPorts_design]
    case h_2 =>
      rw [Edge.withCompiledPort_design, clearClientPorts_design, Edge.withPins_design, clearClientPorts_design]

@[simp] theorem writeBack_id (edge : Edge) : (writeBack topo allocations edge).id = edge.id :=
  (congrArg Edge.id (writeBack_design topo allocations edge) :)

@[simp] theorem writeBack_fromNodeID (edge : Edge) : (writeBack topo allocations edge).fromNodeID = edge.fromNodeID :=
  (congrArg Edge.fromNodeID (writeBack_design topo allocations edge) :)

@[simp] theorem writeBack_toNodeID (edge : Edge) : (writeBack topo allocations edge).toNodeID = edge.toNodeID :=
  (congrArg Edge.toNodeID (writeBack_design topo allocations edge) :)

@[simp] theorem writeBack_isBackup (edge : Edge) : (writeBack topo allocations edge).isBackup = edge.isBackup :=
  (congrArg Edge.isBackup (writeBack_design topo allocations edge) :)

@[simp] theorem writeBack_endpointHost (edge : Edge) : (writeBack topo allocations edge).endpointHost = edge.endpointHost :=
  (congrArg Edge.endpointHost (writeBack_design topo allocations edge) :)

@[simp] theorem writeBack_endpointPort (edge : Edge) : (writeBack topo allocations edge).endpointPort = edge.endpointPort :=
  (congrArg Edge.endpointPort (writeBack_design topo allocations edge) :)

theorem writeBack_isEnabled (edge : Edge) :
    (writeBack topo allocations edge).isEnabled = edge.isEnabled := by
  rw [← Edge.design_isEnabled, writeBack_design, Edge.design_isEnabled]

theorem writeBack_linkKey (edge : Edge) :
    (writeBack topo allocations edge).linkKey = edge.linkKey := by
  rw [← Edge.design_linkKey, writeBack_design, Edge.design_linkKey]

theorem writeBack_keepsLink :
    KeepsLink (writeBack topo allocations) where
  isEnabled := writeBack_isEnabled topo allocations
  fromNodeID := writeBack_fromNodeID topo allocations
  toNodeID := writeBack_toNodeID topo allocations
  linkKey := writeBack_linkKey topo allocations

end

theorem clearClientPorts_eq {edge : Edge}
    (fromPort : Topology.hasClient topo edge.fromNodeID = true → edge.pinnedFromPort = 0)
    (toPort : Topology.hasClient topo edge.toNodeID = true → edge.pinnedToPort = 0) :
    clearClientPorts topo edge = edge := by
  rw [clearClientPorts]
  have first : (if Topology.hasClient topo edge.fromNodeID then 0 else edge.pinnedFromPort) =
      edge.pinnedFromPort := by
    split
    case isTrue client => exact (fromPort client).symm
    case isFalse => rfl
  have second : (if Topology.hasClient topo edge.toNodeID then 0 else edge.pinnedToPort) = edge.pinnedToPort := by
    split
    case isTrue client => exact (toPort client).symm
    case isFalse => rfl
  rw [first, second]

section

variable {env : Externals} {topo : Topology} {reserved : Resources} {allocations : Allocations} {edge : Edge}

/-- The link of an enabled edge and its allocation. -/
structure Allocated (topo : Topology) (reserved : Resources) (allocations : Allocations)
    (edge : Edge) (link : LinkEntity) (alloc : PairAllocation) : Prop where
  member : link ∈ groupLinks topo
  key : link.linkKey = edge.linkKey
  lookup : lookupAllocation allocations edge.linkKey = some alloc
  expected : expectedAllocation (reservePins reserved (groupLinks topo)) (earlierLinks (groupLinks topo) link)
    (groupLinks topo).length link = some alloc

theorem exists_allocated (accepted : Accepted env topo)
    (allocated : preallocateLinkResources (groupLinks topo) reserved = .ok allocations)
    (member : edge ∈ topo.edges) (enabled : edge.isEnabled = true) :
    ∃ link alloc, Allocated topo reserved allocations edge link alloc := by
  obtain ⟨fromNode, toNode, -, -, resolved⟩ := accepted.resolve_eq member enabled
  have inResolved := mem_filterMap.mpr ⟨edge, member, resolved⟩
  obtain ⟨link, inLinks, key⟩ := exists_link inResolved
  obtain ⟨alloc, lookup, expected⟩ := preallocate_lookup (groupLinks_keys_nodup topo) (groupLinks_ends accepted)
    allocated inLinks
  rw [key] at lookup
  exact ⟨link, alloc, ⟨inLinks, key, lookup, expected⟩⟩

theorem Allocated.filled (given : Allocated topo reserved allocations edge link alloc) : Filled link alloc :=
  filled_of_expected given.expected

section

variable (accepted : Accepted env topo) (member : edge ∈ topo.edges)

include accepted member

theorem Allocated.samePair (given : Allocated topo reserved allocations edge link alloc) :
    link.primaryEdge.samePair edge :=
  (accepted.linkKey_inj (groupLinks_edge given.member).1 member given.key).1

theorem Allocated.endAt_complete (given : Allocated topo reserved allocations edge link alloc) {id : String}
    (isEnd : id = edge.fromNodeID ∨ id = edge.toNodeID) :
    (alloc.endAt id).complete (Topology.hasClient topo id) := by
  obtain ⟨inEdges, -, isFrom, isTo⟩ := groupLinks_edge given.member
  have filled := given.filled
  have fromID : alloc.fromNodeID = link.primaryEdge.fromNodeID :=
    filled.fromNodeID.trans (Topology.node?_mem isFrom).2
  have atEnd : id = link.primaryEdge.fromNodeID ∨ id = link.primaryEdge.toNodeID := by
    rcases given.samePair accepted member with ⟨froms, tos⟩ | ⟨froms, tos⟩ <;>
      rcases isEnd with rfl | rfl <;> simp [froms, tos]
  rcases atEnd with rfl | rfl
  · rw [hasClient_eq isFrom, PairAllocation.endAt, if_pos fromID]
    exact ⟨filled.fromPort, filled.localTransit, filled.localLL⟩
  · have backward : alloc.fromNodeID ≠ link.primaryEdge.toNodeID := by
      rw [fromID]
      exact (accepted.edge_ends inEdges).2.2
    rw [hasClient_eq isTo, PairAllocation.endAt, if_neg backward]
    exact ⟨filled.toPort, filled.remoteTransit, filled.remoteLL⟩

theorem writeBack_eq (enabled : edge.isEnabled = true) (given : Allocated topo reserved allocations edge link alloc) :
    writeBack topo allocations edge =
      Edge.withEnds edge (alloc.endAt edge.fromNodeID) (alloc.endAt edge.toNodeID) := by
  obtain ⟨inEdges, -, isFrom, -⟩ := groupLinks_edge given.member
  have distinct := (accepted.edge_ends inEdges).2.2
  have fromID : alloc.fromNodeID = link.primaryEdge.fromNodeID :=
    given.filled.fromNodeID.trans (Topology.node?_mem isFrom).2
  have oriented := endAt_of_samePair (given.samePair accepted member) fromID distinct
  have cleared : clearClientPorts topo (Edge.withPins (clearClientPorts topo edge)
      (alloc.oriented (alloc.fromNodeID = edge.fromNodeID))) =
      Edge.withPins (clearClientPorts topo edge) (alloc.oriented (alloc.fromNodeID = edge.fromNodeID)) := by
    rw [oriented]
    exact clearClientPorts_eq (given.endAt_complete accepted member (.inl rfl)).port_eq_zero
      (given.endAt_complete accepted member (.inr rfl)).port_eq_zero
  have lookup : lookupAllocation allocations (clearClientPorts topo edge).linkKey = some alloc := given.lookup
  have stillEnabled : (clearClientPorts topo edge).isEnabled = true := enabled
  have sameFrom : (clearClientPorts topo edge).fromNodeID = edge.fromNodeID := rfl
  simp only [writeBack, stillEnabled, if_true, lookup, sameFrom]
  rw [cleared, oriented]
  rw [Edge.withEnds]
  by_cases noHost : edge.endpointHost = ""
  · rw [if_pos noHost]
    exact if_pos noHost
  · rw [if_neg noHost]
    exact if_neg noHost

end

end

end Yaog.Compiler
