import Yaog.Compiler.Windows

/-!
# When a compiled topology is accepted again

The allocator takes the values of a link from the pool of its representative; validation reads them
back on every edge and against the pool of that edge's own from-node.
-/

namespace Yaog.Compiler

open Allocator Net Validator List

def ResolvedEdge.writtenBack (topo : Topology) (allocations : Allocations) (link : ResolvedEdge) :
    ResolvedEdge :=
  { link with edge := writeBack topo allocations link.edge }

section

variable (topo : Topology) (allocations : Allocations)

theorem compiled_resolvedEdges : (compiledTopology topo allocations).resolvedEdges =
    topo.resolvedEdges.map (ResolvedEdge.writtenBack topo allocations) :=
  resolvedEdges_mapEdges (writeBack_keepsLink topo allocations) topo

theorem writtenBack_linkKey (link : ResolvedEdge) :
    (ResolvedEdge.writtenBack topo allocations link).linkKey = link.linkKey :=
  writeBack_linkKey topo allocations link.edge

theorem compiled_firstEdges : (compiledTopology topo allocations).firstEdges =
    topo.firstEdges.map (ResolvedEdge.writtenBack topo allocations) :=
  firstEdges_mapEdges (writeBack_keepsLink topo allocations) topo

theorem compiled_design : (compiledTopology topo allocations).design = topo.design := by
  have edges : (topo.edges.map (writeBack topo allocations)).map Edge.design = topo.edges.map Edge.design := by
    rw [map_map]
    exact map_congr_left fun edge _ => writeBack_design topo allocations edge
  simp only [Topology.design, compiledTopology, edges]

end

def PairAllocation.near (alloc : PairAllocation) : EndValues where
  port := alloc.fromPort
  transitIP := alloc.localTransit
  linkLocal := alloc.localLL

def PairAllocation.far (alloc : PairAllocation) : EndValues where
  port := alloc.toPort
  transitIP := alloc.remoteTransit
  linkLocal := alloc.remoteLL

section

variable {env : Externals} {topo : Topology} {reserved : Resources} {allocations : Allocations} {edge : Edge}
  {link : LinkEntity} {alloc : PairAllocation}

theorem portPins_keys (link : ResolvedEdge) :
    (portPins link).map (·.key) = [(link.edge.fromNodeID, Edge.fromEnd link.edge), (link.edge.toNodeID,
      Edge.toEnd link.edge)].filterMap fun entry => if entry.2.port = 0 then none else some (entry.1, entry.2.port) := by
  rw [portPins, map_filterMap]
  simp only [filterMap_cons, filterMap_nil, Edge.fromEnd, Edge.toEnd]
  by_cases first : link.edge.pinnedFromPort = 0 <;> by_cases second : link.edge.pinnedToPort = 0 <;>
    simp [first, second]

private theorem addressPins_keys (link : ResolvedEdge) (values : List String) :
    (addressPins link values).map (·.key) =
      values.filterMap fun value => if value = "" then none else some (canonicalIP value) := by
  rw [addressPins, map_filterMap]
  congr 1
  funext value
  split <;> rfl

variable {resolved : ResolvedEdge} {pair : String × String}

def linkAllocation (links : List LinkEntity) (link : LinkEntity) : Option PairAllocation :=
  expectedAllocation (reservePins {} links) (earlierLinks links link) links.length link

theorem link_eq_of_key {other : LinkEntity} (member : link ∈ groupLinks topo) (member' : other ∈ groupLinks topo)
    (same : link.linkKey = other.linkKey) : link = other :=
  inj_on_of_nodup_map (groupLinks_keys_nodup topo) member member' same

theorem linkAllocation_slots {links : List LinkEntity} (expected : linkAllocation links link = some alloc) :
    linkPorts links link = some (alloc.fromPort, alloc.toPort) ∧
      linkTransit links link = some (alloc.localTransit, alloc.remoteTransit) ∧
      linkLinkLocal links link = some (alloc.localLL, alloc.remoteLL) := by
  obtain ⟨ports, transit, linkLocal, isPorts, isTransit, isLinkLocal, rfl⟩ := expectedAllocation_some expected
  exact ⟨isPorts, isTransit, isLinkLocal⟩

theorem pinnedResources_port (member : resolved ∈ topo.resolvedEdges) {entry : String × Int}
    (pinned : entry ∈ (pinnedResources (linkEntity topo resolved)).ports) :
    entry ∈ (portPins resolved).map (·.key) := by
  obtain ⟨fromID, toID⟩ := resolved_ids member
  have shape : ∀ {ports}, pinnedPorts (linkEntity topo resolved) = some ports →
      (ports.1 = 0 ∨ ports.1 = resolved.edge.pinnedFromPort) ∧ (ports.2 = 0 ∨ ports.2 = resolved.edge.pinnedToPort) := by
    intro ports isPorts
    simp only [pinnedPorts] at isPorts
    split at isPorts
    case isTrue =>
      cases isPorts
      exact ⟨.inl rfl, .inr rfl⟩
    case isFalse =>
      split at isPorts
      case isTrue =>
        cases isPorts
        exact ⟨.inr rfl, .inl rfl⟩
      case isFalse =>
        split at isPorts
        case isTrue =>
          cases isPorts
          exact ⟨.inr rfl, .inr rfl⟩
        case isFalse => cases isPorts
  simp only [pinnedResources] at pinned
  split at pinned
  case h_1 => cases pinned
  case h_2 fromPort toPort isPorts =>
    obtain ⟨first, second⟩ := shape isPorts
    rw [portPins_keys]
    rcases mem_append.mp pinned with atFrom | atTo
    · split at atFrom
      case isTrue => cases atFrom
      case isFalse nonzero =>
        obtain rfl := mem_singleton.mp atFrom
        obtain rfl := first.resolve_left nonzero
        refine mem_filterMap.mpr ⟨(resolved.edge.fromNodeID, Edge.fromEnd resolved.edge), by simp, ?_⟩
        exact (if_neg nonzero).trans (by rw [← fromID]; rfl)
    · split at atTo
      case isTrue => cases atTo
      case isFalse nonzero =>
        obtain rfl := mem_singleton.mp atTo
        obtain rfl := second.resolve_left nonzero
        refine mem_filterMap.mpr ⟨(resolved.edge.toNodeID, Edge.toEnd resolved.edge), by simp, ?_⟩
        exact (if_neg nonzero).trans (by rw [← toID]; rfl)

theorem pins_apart {κ : Type} {pins : ResolvedEdge → List (PinEntry κ)}
    (consistent : OneLinkPerKey (topo.resolvedEdges.flatMap pins))
    (own : ∀ resolved, ∀ entry ∈ pins resolved, entry.link = resolved.linkKey) {first second : ResolvedEdge}
    (isFirst : first ∈ topo.resolvedEdges) (isSecond : second ∈ topo.resolvedEdges)
    (different : linkEntity topo first ≠ linkEntity topo second) (inLinks : linkEntity topo first ∈ groupLinks topo)
    (inLinks' : linkEntity topo second ∈ groupLinks topo) :
    ∀ key ∈ (pins first).map (·.key), key ∉ (pins second).map (·.key) := by
  intro key inFirst inSecond
  obtain ⟨entry, isEntry, isKey⟩ := mem_map.mp inFirst
  obtain ⟨entry', isEntry', isKey'⟩ := mem_map.mp inSecond
  have owners := consistent entry (mem_flatMap.mpr ⟨first, isFirst, isEntry⟩) entry'
    (mem_flatMap.mpr ⟨second, isSecond, isEntry'⟩) (isKey.trans isKey'.symm)
  rw [own first entry isEntry, own second entry' isEntry'] at owners
  exact different (link_eq_of_key inLinks inLinks' owners)

private theorem portPins_own : ∀ resolved, ∀ entry ∈ portPins resolved, entry.link = resolved.linkKey := by
  intro resolved entry member
  obtain ⟨⟨nodeID, port⟩, -, made⟩ := mem_filterMap.mp member
  simp only at made
  split at made
  case isTrue => cases made
  case isFalse => rw [← Option.some.inj made]

private theorem addressPins_own (resolved : ResolvedEdge) (values : List String) :
    ∀ entry ∈ addressPins resolved values, entry.link = resolved.linkKey := by
  intro entry member
  obtain ⟨value, -, made⟩ := mem_filterMap.mp member
  split at made
  case isTrue => cases made
  case isFalse => rw [← Option.some.inj made]

def CanonicalApart (text text' : String) : Prop := canonicalIP text ≠ canonicalIP text'

theorem canonicalIP_transit {cidr text : String} (member : pair ∈ transitPairs cidr)
    (inPair : text ∈ pairMarks pair) : ∃ address : IPv4, text = address.format ∧ canonicalIP text = text := by
  obtain ⟨net, network, index, -, -, -, rfl⟩ := mem_transitPairs member
  have shape : ∀ host, canonicalIP (hostText network host) = hostText network host := by
    intro host
    rw [hostText, canonicalIP, parseIP_format]
    exact IP.format_ofIPv4 _
  rcases mem_pairMarks.mp inPair with rfl | rfl
  · exact ⟨_, rfl, shape _⟩
  · exact ⟨_, rfl, shape _⟩

theorem linkLocalText_eq (number : Nat) : linkLocalText number = twoGroupText 0xfe80 number := by
  have group : hexText 0xfe80 = "fe80" := by decide
  rfl

theorem canonicalIP_linkLocal {number : Nat} (positive : 0 < number) (small : number < 65536) :
    canonicalIP (linkLocalText number) = linkLocalText number := by
  rw [linkLocalText_eq, canonicalIP, parseIP_twoGroupText (by decide) small]
  exact format_twoGroupValue (by decide) positive (by decide) small

private theorem addressPins_pair {first second text : String}
    (pinned : (if first ≠ "" ∧ second ≠ "" then some (first, second) else none) = some pair)
    (inPair : text ∈ pairMarks pair) : canonicalIP text ∈ (addressPins resolved [first, second]).map (·.key) := by
  split at pinned
  case isFalse => cases pinned
  case isTrue set =>
    cases pinned
    rw [addressPins_keys]
    refine mem_filterMap.mpr ⟨text, inPair, if_neg ?_⟩
    rcases mem_pairMarks.mp inPair with rfl | rfl
    · exact set.1
    · exact set.2

/-- The texts of one kind at the two ends of an edge. -/
def endPins (text : EndValues → String) (resolved : ResolvedEdge) : List (PinEntry String) :=
  addressPins resolved [text (Edge.fromEnd resolved.edge), text (Edge.toEnd resolved.edge)]

section

variable (accepted : Accepted env topo)

include accepted

theorem Allocated.ends_perm (member : edge ∈ topo.edges) (given : Allocated topo reserved allocations edge link alloc) :
    [(edge.fromNodeID, alloc.endAt edge.fromNodeID), (edge.toNodeID, alloc.endAt edge.toNodeID)].Perm
      [(link.fromNode.id, alloc.near), (link.toNode.id, alloc.far)] := by
  obtain ⟨inEdges, -, isFrom, isTo⟩ := groupLinks_edge given.member
  have distinct := (accepted.edge_ends inEdges).2.2
  have fromID := (Topology.node?_mem isFrom).2
  have toID := (Topology.node?_mem isTo).2
  have atFrom : alloc.endAt link.primaryEdge.fromNodeID = alloc.near := by
    rw [PairAllocation.endAt, if_pos (given.filled.fromNodeID.trans fromID)]
    rfl
  have atTo : alloc.endAt link.primaryEdge.toNodeID = alloc.far := by
    rw [PairAllocation.endAt, if_neg (by rw [given.filled.fromNodeID, fromID]; exact distinct)]
    rfl
  rw [fromID, toID, ← atFrom, ← atTo]
  rcases given.samePair accepted member with ⟨froms, tos⟩ | ⟨froms, tos⟩
  · rw [froms, tos]
  · rw [froms, tos]
    exact List.Perm.swap _ _ _

theorem portPins_perm (member : resolved ∈ topo.resolvedEdges)
    (given : Allocated topo reserved allocations resolved.edge link alloc) :
    ((portPins (ResolvedEdge.writtenBack topo allocations resolved)).map (·.key)).Perm
      (portEntries link (alloc.fromPort, alloc.toPort)) := by
  obtain ⟨inEdges, enabled, -, -⟩ := mem_resolvedEdges.mp member
  rw [portPins_keys, ResolvedEdge.writtenBack, writeBack_eq accepted inEdges enabled given]
  have ends := (given.ends_perm accepted inEdges).filterMap fun entry : String × EndValues =>
    if entry.2.port = 0 then none else some (entry.1, entry.2.port)
  refine ends.trans (List.Perm.of_eq ?_)
  rw [portEntries]
  by_cases first : alloc.fromPort = 0 <;> by_cases second : alloc.toPort = 0 <;>
    simp [first, second, PairAllocation.near, PairAllocation.far]

theorem endPins_perm (text : EndValues → String) (member : resolved ∈ topo.resolvedEdges)
    (given : Allocated topo reserved allocations resolved.edge link alloc) (near : text alloc.near ≠ "")
    (far : text alloc.far ≠ "") :
    ((endPins text (ResolvedEdge.writtenBack topo allocations resolved)).map (·.key)).Perm
      ((pairMarks (text alloc.near, text alloc.far)).map canonicalIP) := by
  obtain ⟨inEdges, enabled, -, -⟩ := mem_resolvedEdges.mp member
  rw [endPins, addressPins_keys, ResolvedEdge.writtenBack, writeBack_eq accepted inEdges enabled given]
  have ends := ((given.ends_perm accepted inEdges).map fun entry => text entry.2).filterMap fun value : String =>
    if value = "" then none else some (canonicalIP value)
  refine ends.trans (List.Perm.of_eq ?_)
  simp [pairMarks, near, far]

theorem groupLinks_length : (groupLinks topo).length ≤ 10000 := by
  have bounded := accepted.bounded
  simp only [topologyExceedsBounds, Bool.or_eq_false_iff, decide_eq_false_iff_not] at bounded
  have edges : topo.edges.length ≤ maxTopologyEdges := not_lt.mp bounded.1.1.2
  have kept : (Data.keepFirst ResolvedEdge.linkKey topo.resolvedEdges).length ≤ topo.resolvedEdges.length :=
    (Data.keepFirst_sublist topo.resolvedEdges).length_le
  have resolved : topo.resolvedEdges.length ≤ topo.edges.length := length_filterMap_le _ _
  rw [groupLinks, length_map, Topology.firstEdges]
  exact (kept.trans resolved).trans edges

theorem handedLinkLocals_number {pair : String × String}
    (member : pair ∈ handedLinkLocals (groupLinks topo)) {text : String} (inPair : text ∈ pairMarks pair) :
    ∃ number, 0 < number ∧ number < 65536 ∧ text = linkLocalText number := by
  obtain ⟨index, small, rfl⟩ := handedLinkLocals_index member
  have bound := groupLinks_length accepted
  rcases mem_pairMarks.mp inPair with rfl | rfl
  · exact ⟨_, by omega, by omega, rfl⟩
  · exact ⟨_, by omega, by omega, rfl⟩

theorem pinnedPorts_apart {other : LinkEntity} (member : link ∈ groupLinks topo)
    (member' : other ∈ groupLinks topo) (different : link ≠ other) :
    ∀ entry ∈ (pinnedResources link).ports, entry ∉ (pinnedResources other).ports := by
  intro pin pinned pinned'
  obtain ⟨resolved, inResolved, rfl⟩ := mem_groupLinks member
  obtain ⟨resolved', inResolved', rfl⟩ := mem_groupLinks member'
  exact pins_apart accepted.pinsAccepted.ports portPins_own inResolved inResolved' different member member' pin
    (pinnedResources_port inResolved pinned) (pinnedResources_port inResolved' pinned')

omit accepted in
private theorem endPins_apart {κ : Type} {view : PoolView κ} {text : EndValues → String}
    (consistent : OneLinkPerKey (topo.resolvedEdges.flatMap (endPins text)))
    (pinned : ∀ link, view.pinned link = if text (Edge.fromEnd link.primaryEdge) ≠ "" ∧
        text (Edge.toEnd link.primaryEdge) ≠ ""
      then some (text (Edge.fromEnd link.primaryEdge), text (Edge.toEnd link.primaryEdge)) else none) :
    PinsApart CanonicalApart view (groupLinks topo) := by
  intro link member other member' different pair pair' isPair isPair' value inPair value' inPair' same
  obtain ⟨resolved, inResolved, rfl⟩ := mem_groupLinks member
  obtain ⟨resolved', inResolved', rfl⟩ := mem_groupLinks member'
  rw [pinned] at isPair isPair'
  have key : canonicalIP value ∈ (endPins text resolved).map (·.key) := addressPins_pair isPair inPair
  rw [same] at key
  exact pins_apart consistent (fun _ => addressPins_own _ _) inResolved inResolved' different member member' _ key
    (addressPins_pair isPair' inPair')

theorem transitPins_apart : PinsApart CanonicalApart (transitView (groupLinks topo)) (groupLinks topo) :=
  @endPins_apart topo _ _ EndValues.transitIP accepted.pinsAccepted.transit fun _ => rfl

theorem linkLocalPins_apart : PinsApart CanonicalApart (linkLocalView (groupLinks topo)) (groupLinks topo) :=
  @endPins_apart topo _ _ EndValues.linkLocal accepted.pinsAccepted.linkLocals fun _ => rfl

section

variable (allocated : preallocateLinkResources (groupLinks topo) {} = .ok allocations) {κ : Type}

include allocated

theorem allocated_of_link (member : link ∈ groupLinks topo) :
    ∃ alloc, linkAllocation (groupLinks topo) link = some alloc ∧
      Allocated topo {} allocations link.primaryEdge link alloc := by
  obtain ⟨alloc, lookup, expected⟩ := preallocate_lookup (groupLinks_keys_nodup topo) (groupLinks_ends accepted)
    allocated member
  exact ⟨alloc, expected, ⟨member, rfl, lookup, expected⟩⟩

theorem oneLinkPerKey_compiled {pins : ResolvedEdge → List (PinEntry κ)}
    (marks : LinkEntity → PairAllocation → List κ)
    (own : ∀ resolved, ∀ entry ∈ pins resolved, entry.link = resolved.linkKey)
    (keys : ∀ resolved ∈ topo.resolvedEdges, ∀ link alloc, Allocated topo {} allocations resolved.edge link alloc →
      ((pins (ResolvedEdge.writtenBack topo allocations resolved)).map (·.key)).Perm (marks link alloc)) :
    OneLinkPerKey ((compiledTopology topo allocations).resolvedEdges.flatMap pins) ↔
      ∀ link ∈ groupLinks topo, ∀ other ∈ groupLinks topo, link ≠ other → ∀ alloc alloc',
        linkAllocation (groupLinks topo) link = some alloc → linkAllocation (groupLinks topo) other = some alloc' →
        ∀ key ∈ marks link alloc, key ∉ marks other alloc' := by
  rw [compiled_resolvedEdges]
  constructor
  · intro consistent link member other member' different alloc alloc' isAlloc isAlloc' key inFirst inSecond
    have entryOf : ∀ {link alloc}, link ∈ groupLinks topo → linkAllocation (groupLinks topo) link = some alloc →
        key ∈ marks link alloc → ∃ entry ∈ (topo.resolvedEdges.map (ResolvedEdge.writtenBack topo allocations)).flatMap
          pins, entry.key = key ∧ entry.link = link.linkKey := by
      intro link alloc isLink expected inMarks
      obtain ⟨resolved, inResolved, rfl⟩ := mem_groupLinks isLink
      obtain ⟨alloc'', expected', given⟩ := allocated_of_link accepted allocated isLink
      obtain rfl : alloc = alloc'' := Option.mem_unique expected expected'
      have inKeys := (keys resolved inResolved _ alloc given).mem_iff.mpr inMarks
      obtain ⟨entry, isEntry, isKey⟩ := mem_map.mp inKeys
      refine ⟨entry, mem_flatMap.mpr ⟨_, mem_map_of_mem inResolved, isEntry⟩, isKey, ?_⟩
      rw [own _ entry isEntry, writtenBack_linkKey]
      rfl
    obtain ⟨entry, isEntry, isKey, isOwner⟩ := entryOf member isAlloc inFirst
    obtain ⟨entry', isEntry', isKey', isOwner'⟩ := entryOf member' isAlloc' inSecond
    have owners := consistent entry isEntry entry' isEntry' (isKey.trans isKey'.symm)
    rw [isOwner, isOwner'] at owners
    exact different (link_eq_of_key member member' owners)
  · intro separate entry isEntry entry' isEntry' sameKey
    have linkOf : ∀ {entry}, entry ∈ (topo.resolvedEdges.map (ResolvedEdge.writtenBack topo allocations)).flatMap pins →
        ∃ link ∈ groupLinks topo, ∃ alloc, linkAllocation (groupLinks topo) link = some alloc ∧
          entry.link = link.linkKey ∧ entry.key ∈ marks link alloc := by
      intro entry isEntry
      obtain ⟨written, isWritten, inPins⟩ := mem_flatMap.mp isEntry
      obtain ⟨resolved, inResolved, rfl⟩ := mem_map.mp isWritten
      obtain ⟨inEdges, enabled, -, -⟩ := mem_resolvedEdges.mp inResolved
      obtain ⟨link, alloc, given⟩ := exists_allocated accepted allocated inEdges enabled
      refine ⟨link, given.member, alloc, given.expected, ?_, ?_⟩
      · rw [own _ entry inPins, writtenBack_linkKey, given.key]
        rfl
      · exact (keys resolved inResolved link alloc given).mem_iff.mp (mem_map_of_mem inPins)
    obtain ⟨link, member, alloc, isAlloc, isOwner, inMarks⟩ := linkOf isEntry
    obtain ⟨other, member', alloc', isAlloc', isOwner', inMarks'⟩ := linkOf isEntry'
    by_cases same : link = other
    · rw [isOwner, isOwner', same]
    · exact absurd (sameKey ▸ inMarks') (separate link member other member' same alloc alloc' isAlloc isAlloc' _ inMarks)

theorem compiled_ports_apart :
    OneLinkPerKey ((compiledTopology topo allocations).resolvedEdges.flatMap portPins) := by
  refine (oneLinkPerKey_compiled accepted allocated (fun link alloc => portEntries link (alloc.fromPort, alloc.toPort))
    portPins_own fun resolved member link alloc given => portPins_perm accepted member given).mpr ?_
  intro link member other member' different alloc alloc' isAlloc isAlloc' entry inFirst
  exact linkPorts_separate (groupLinks_keys_nodup topo) member member' different
    (pinnedPorts_apart accepted member member' different) (linkAllocation_slots isAlloc).1
    (linkAllocation_slots isAlloc').1 inFirst

private theorem compiled_addresses_iff {view : PoolView κ} (text : EndValues → String)
    (lawful : view.Lawful (groupLinks topo)) (pinsApart : PinsApart CanonicalApart view (groupLinks topo))
    (windowTexts : ∀ key, ∀ pair ∈ view.window key, ∀ text ∈ pairMarks pair, canonicalIP text = text)
    (slots : ∀ link alloc, linkAllocation (groupLinks topo) link = some alloc →
      view.slot link = some (text alloc.near, text alloc.far))
    (set : ∀ {link alloc}, Filled link alloc → text alloc.near ≠ "" ∧ text alloc.far ≠ "") :
    OneLinkPerKey ((compiledTopology topo allocations).resolvedEdges.flatMap (endPins text)) ↔
      WindowsApart CanonicalApart view (groupLinks topo) := by
  have iffSlots : OneLinkPerKey ((compiledTopology topo allocations).resolvedEdges.flatMap (endPins text)) ↔
      SlotsApart CanonicalApart view (groupLinks topo) := by
    rw [oneLinkPerKey_compiled accepted allocated
      (fun _ alloc => (pairMarks (text alloc.near, text alloc.far)).map canonicalIP)
      (fun resolved entry (made : entry ∈ endPins text resolved) => addressPins_own resolved _ entry made)
      fun resolved member link alloc given =>
        endPins_perm accepted text member given (set given.filled).1 (set given.filled).2]
    constructor
    · intro separate link member other member' different pair pair' slot slot' value inPair value' inPair' same
      obtain ⟨alloc, isAlloc, -⟩ := allocated_of_link accepted allocated member
      obtain ⟨alloc', isAlloc', -⟩ := allocated_of_link accepted allocated member'
      obtain rfl := Option.some.inj ((slots link alloc isAlloc).symm.trans slot)
      obtain rfl := Option.some.inj ((slots other alloc' isAlloc').symm.trans slot')
      refine separate link member other member' different alloc alloc' isAlloc isAlloc' _ (mem_map_of_mem inPair) ?_
      rw [same]
      exact mem_map_of_mem inPair'
    · intro separate link member other member' different alloc alloc' isAlloc isAlloc' key inFirst inSecond
      obtain ⟨value, inPair, rfl⟩ := mem_map.mp inFirst
      obtain ⟨value', inPair', same⟩ := mem_map.mp inSecond
      exact separate link member other member' different _ _ (slots link alloc isAlloc) (slots other alloc' isAlloc')
        value inPair value' inPair' same.symm
  rw [iffSlots]
  refine ⟨windowsApart_of_slots lawful, slotsApart_of_windows lawful (fun different => different.symm) pinsApart ?_⟩
  intro key pair handed pair' handed' value inPair value' inPair' different
  rw [CanonicalApart, windowTexts key pair handed value inPair, windowTexts key pair' handed' value' inPair']
  exact different

theorem compiled_transit_iff :
    OneLinkPerKey ((compiledTopology topo allocations).resolvedEdges.flatMap transitPins) ↔
      WindowsApart CanonicalApart (transitView (groupLinks topo)) (groupLinks topo) := by
  refine compiled_addresses_iff accepted allocated EndValues.transitIP (transitView_lawful (groupLinks_keys_nodup topo))
    (transitPins_apart accepted) ?_ (fun link alloc expected => (linkAllocation_slots expected).2.1)
    fun filled => ⟨filled.localTransit, filled.remoteTransit⟩
  intro cidr pair handed text inPair
  obtain ⟨-, -, canonical⟩ := canonicalIP_transit (handedTransit_pair handed) inPair
  exact canonical

theorem compiled_linkLocals_iff :
    OneLinkPerKey ((compiledTopology topo allocations).resolvedEdges.flatMap linkLocalPins) ↔
      WindowsApart CanonicalApart (linkLocalView (groupLinks topo)) (groupLinks topo) := by
  refine compiled_addresses_iff accepted allocated EndValues.linkLocal (linkLocalView_lawful (groupLinks_keys_nodup topo))
    (linkLocalPins_apart accepted) ?_ (fun link alloc expected => (linkAllocation_slots expected).2.2)
    fun filled => ⟨filled.localLL, filled.remoteLL⟩
  intro _ pair handed text inPair
  obtain ⟨number, positive, small, rfl⟩ := handedLinkLocals_number accepted handed inPair
  exact canonicalIP_linkLocal positive small

end

theorem port_range (member : link ∈ groupLinks topo)
    (slot : linkPorts (groupLinks topo) link = some (alloc.fromPort, alloc.toPort)) {nodeID : String} {port : Int}
    (entry : (nodeID, port) ∈ portEntries link (alloc.fromPort, alloc.toPort)) :
    minPinnedPort ≤ port ∧ port ≤ 65535 := by
  rcases portEntries_origin slot entry with ⟨-, pinned⟩ | ⟨-, found⟩
  · obtain ⟨resolved, inResolved, rfl⟩ := mem_groupLinks member
    have own := accepted.pinsAccepted.own resolved inResolved
    have key := pinnedResources_port inResolved pinned
    rw [portPins_keys] at key
    obtain ⟨⟨id, values⟩, isEnd, made⟩ := mem_filterMap.mp key
    simp only [mem_cons, not_mem_nil, or_false, Prod.mk.injEq] at isEnd made
    split at made
    case isTrue => cases made
    case isFalse nonzero =>
      obtain ⟨-, rfl⟩ := Prod.mk.inj (Option.some.inj made)
      rcases isEnd with ⟨-, rfl⟩ | ⟨-, rfl⟩
      · exact own.fromRange nonzero
      · exact own.toRange nonzero
  · obtain ⟨candidate, isFree, rfl⟩ := Option.map_eq_some_iff.mp found
    have range := mem_range'.mp (mem_of_mem_filter (mem_of_getElem? isFree))
    have base : wgListenPortBase = 51820 := rfl
    have low : minPinnedPort = 1024 := rfl
    omega

theorem compiled_own_iff (member : resolved ∈ topo.resolvedEdges)
    (given : Allocated topo {} allocations resolved.edge link alloc) :
    EdgePins (compiledTopology topo allocations) (ResolvedEdge.writtenBack topo allocations resolved) ↔
      PinInside alloc.localTransit (topo.transitCIDR resolved.fromNode) ∧
        PinInside alloc.remoteTransit (topo.transitCIDR resolved.fromNode) := by
  obtain ⟨inEdges, enabled, isFrom, isTo⟩ := mem_resolvedEdges.mp member
  have fromEnd := given.endAt_complete accepted inEdges (.inl rfl)
  have toEnd := given.endAt_complete accepted inEdges (.inr rfl)
  rw [hasClient_eq isFrom] at fromEnd
  rw [hasClient_eq isTo] at toEnd
  have ranges : ∀ entry ∈ (portPins (ResolvedEdge.writtenBack topo allocations resolved)).map (·.key),
      minPinnedPort ≤ entry.2 ∧ entry.2 ≤ 65535 := by
    intro entry isEntry
    exact port_range accepted given.member (linkAllocation_slots given.expected).1
      ((portPins_perm accepted member given).mem_iff.mp isEntry)
  rw [portPins_keys] at ranges
  simp only [ResolvedEdge.writtenBack, writeBack_eq accepted inEdges enabled given] at ranges ⊢
  have inside : (PinInside (alloc.endAt resolved.edge.fromNodeID).transitIP (topo.transitCIDR resolved.fromNode) ∧
      PinInside (alloc.endAt resolved.edge.toNodeID).transitIP (topo.transitCIDR resolved.fromNode)) ↔
      PinInside alloc.localTransit (topo.transitCIDR resolved.fromNode) ∧
        PinInside alloc.remoteTransit (topo.transitCIDR resolved.fromNode) := by
    have ends := (given.ends_perm accepted inEdges).map fun entry => entry.2.transitIP
    have all : (∀ text ∈ [(alloc.endAt resolved.edge.fromNodeID).transitIP,
          (alloc.endAt resolved.edge.toNodeID).transitIP], PinInside text (topo.transitCIDR resolved.fromNode)) ↔
        ∀ text ∈ [alloc.localTransit, alloc.remoteTransit], PinInside text (topo.transitCIDR resolved.fromNode) :=
      forall_congr' fun text => imp_congr_left ends.mem_iff
    simpa only [forall_mem_cons, not_mem_nil, false_imp_iff, implies_true, and_true] using all
  rw [← inside]
  constructor
  · intro pins
    exact ⟨pins.fromInside, pins.toInside⟩
  · rintro ⟨fromInside, toInside⟩
    constructor
    case fromClient => exact fromEnd.port_eq_zero
    case toClient => exact toEnd.port_eq_zero
    case portPair =>
      intro notClient notClient'
      have fromPort := fromEnd.1
      have toPort := toEnd.1
      rw [notClient, if_neg Bool.false_ne_true] at fromPort
      rw [notClient', if_neg Bool.false_ne_true] at toPort
      exact iff_of_false fromPort.ne' toPort.ne'
    case transitPair => exact iff_of_false fromEnd.2.1 toEnd.2.1
    case linkLocalPair => exact iff_of_false fromEnd.2.2 toEnd.2.2
    case fromRange =>
      intro nonzero
      exact ranges _ (mem_filterMap.mpr ⟨_, mem_cons_self, if_neg nonzero⟩)
    case toRange =>
      intro nonzero
      exact ranges _ (mem_filterMap.mpr ⟨_, mem_cons_of_mem _ mem_cons_self, if_neg nonzero⟩)
    case fromInside => exact fromInside
    case toInside => exact toInside

end

/-- When the values a topology's links will get pass validation again: every enabled edge finds the pair of
its link in its own from-node's pool, and no window meets a pin or another pool's window. -/
structure Reaccepted (topo : Topology) : Prop where
  ownPool : ∀ resolved ∈ topo.resolvedEdges, ∀ link ∈ groupLinks topo, link.linkKey = resolved.linkKey →
    ∀ pair, linkTransit (groupLinks topo) link = some pair →
      PinInside pair.1 (topo.transitCIDR resolved.fromNode) ∧ PinInside pair.2 (topo.transitCIDR resolved.fromNode)
  transit : WindowsApart CanonicalApart (transitView (groupLinks topo)) (groupLinks topo)
  linkLocals : WindowsApart CanonicalApart (linkLocalView (groupLinks topo)) (groupLinks topo)

theorem compiled_pins_iff (accepted : Accepted env topo)
    (allocated : preallocateLinkResources (groupLinks topo) {} = .ok allocations) :
    PinsAccepted (compiledTopology topo allocations) (compiledTopology topo allocations).resolvedEdges ↔
      Reaccepted topo := by
  have pairOf : ∀ {resolved link alloc}, Allocated topo {} allocations resolved link alloc →
      linkTransit (groupLinks topo) link = some (alloc.localTransit, alloc.remoteTransit) :=
    fun given => (linkAllocation_slots given.expected).2.1
  constructor
  · intro pins
    refine ⟨?_, (compiled_transit_iff accepted allocated).mp pins.transit,
      (compiled_linkLocals_iff accepted allocated).mp pins.linkLocals⟩
    intro resolved inResolved link member key pair slot
    obtain ⟨inEdges, enabled, -, -⟩ := mem_resolvedEdges.mp inResolved
    obtain ⟨link', alloc, given⟩ := exists_allocated accepted allocated inEdges enabled
    obtain rfl : link = link' := link_eq_of_key member given.member (key.trans given.key.symm)
    obtain rfl : (alloc.localTransit, alloc.remoteTransit) = pair := Option.some.inj ((pairOf given).symm.trans slot)
    refine (compiled_own_iff accepted inResolved given).mp (pins.own _ ?_)
    rw [compiled_resolvedEdges]
    exact mem_map_of_mem inResolved
  · intro reaccepted
    refine ⟨?_, compiled_ports_apart accepted allocated,
      (compiled_transit_iff accepted allocated).mpr reaccepted.transit,
      (compiled_linkLocals_iff accepted allocated).mpr reaccepted.linkLocals⟩
    intro written isWritten
    rw [compiled_resolvedEdges] at isWritten
    obtain ⟨resolved, inResolved, rfl⟩ := mem_map.mp isWritten
    obtain ⟨inEdges, enabled, -, -⟩ := mem_resolvedEdges.mp inResolved
    obtain ⟨link, alloc, given⟩ := exists_allocated accepted allocated inEdges enabled
    exact (compiled_own_iff accepted inResolved given).mpr
      (reaccepted.ownPool resolved inResolved link given.member given.key _ (pairOf given))

private theorem deadLink_writtenBack (topo : Topology) (allocations : Allocations)
    (link : ResolvedEdge) : deadLink (compiledTopology topo allocations) (ResolvedEdge.writtenBack topo allocations link) =
      deadLink topo link := by
  have endpoints : ∀ fromID toID, hasEnabledEndpointEdge (compiledTopology topo allocations) fromID toID =
      hasEnabledEndpointEdge topo fromID toID := by
    intro fromID toID
    rw [← hasEnabledEndpointEdge_design, compiled_design, hasEnabledEndpointEdge_design]
  have design := writeBack_design topo allocations link.edge
  have sameType : (writeBack topo allocations link.edge).type = link.edge.type := by
    have equal := congrArg Edge.type design
    exact equal
  have sameHost : (writeBack topo allocations link.edge).endpointHost = link.edge.endpointHost := by
    rw [← Edge.design_endpointHost, design, Edge.design_endpointHost]
  simp only [deadLink, ResolvedEdge.writtenBack, endpoints, sameType, sameHost]

theorem compiled_accepted_iff (accepted : Accepted env topo)
    (allocated : preallocateLinkResources (groupLinks topo) {} = .ok allocations) :
    Accepted env (compiledTopology topo allocations) ↔ Reaccepted topo := by
  rw [← compiled_pins_iff accepted allocated]
  constructor
  · exact fun again => again.pinsAccepted
  · intro pins
    have bounded := accepted.bounded
    simp only [topologyExceedsBounds, Bool.or_eq_false_iff, decide_eq_false_iff_not] at bounded
    refine accepted.of_design (compiled_design topo allocations) (not_lt.mp bounded.1.1.1.1) ?overlay
      accepted.addresses ?reachable (isValid_validateAllocationPins.mpr pins)
    case overlay => exact (isValid_validateNodesSchema.mp accepted.nodes).2
    case reachable =>
      intro written isWritten
      rw [compiled_resolvedEdges] at isWritten
      obtain ⟨link, member, rfl⟩ := mem_map.mp isWritten
      rw [deadLink_writtenBack]
      exact isValid_validateNATReachability.mp accepted.reachability link member

end

end Yaog.Compiler
