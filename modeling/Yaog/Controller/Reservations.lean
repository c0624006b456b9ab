import Yaog.Compiler.Uniqueness
import Yaog.Controller.Incremental

/-!
# Link resources over incremental stages

A stage allocates around what the edges outside its subgraph occupy.
-/

namespace Yaog.Controller

open Allocator Compiler Net Validator List

variable {text id : String} {topo : Topology} {node : Node} {link : LinkEntity} {env : Externals}

def edgeEnds (edge : Edge) : List (String × EndValues) :=
  [(edge.fromNodeID, Edge.fromEnd edge), (edge.toNodeID, Edge.toEnd edge)]

def linkEnds (link : LinkEntity) (alloc : PairAllocation) : List (String × EndValues) :=
  [(link.fromNode.id, alloc.near), (link.toNode.id, alloc.far)]

def carriedPorts (ends : List (String × EndValues)) : List (String × Int) :=
  (ends.map fun entry => (entry.1, entry.2.port)).filter fun entry => entry.2 ≠ 0

def carriedTransit (ends : List (String × EndValues)) : List String :=
  (ends.map fun entry => entry.2.transitIP).filter (· ≠ "")

def carriedLinkLocals (ends : List (String × EndValues)) : List String :=
  (ends.map fun entry => entry.2.linkLocal).filter (· ≠ "")

/-- No port at a node, no transit address and no link-local address in common. -/
@[mk_iff]
structure EndsApart (first second : List (String × EndValues)) : Prop where
  ports : ∀ entry ∈ carriedPorts first, entry ∉ carriedPorts second
  transit : ∀ text ∈ carriedTransit first, text ∉ carriedTransit second
  linkLocals : ∀ text ∈ carriedLinkLocals first, text ∉ carriedLinkLocals second

instance (first second : List (String × EndValues)) : Decidable (EndsApart first second) :=
  decidable_of_iff' _ (endsApart_iff first second)

def LinksApart (topo : Topology) : Prop :=
  ∀ edge ∈ topo.edges, ∀ other ∈ topo.edges, edge.isEnabled = true → other.isEnabled = true →
    edge.linkKey ≠ other.linkKey → EndsApart (edgeEnds edge) (edgeEnds other)

instance (topo : Topology) : Decidable (LinksApart topo) := by
  unfold LinksApart
  infer_instance

/-- Each kind of pin is set at both ends or at none; a client end needs no port. -/
structure PinsComplete (topo : Topology) (edge : Edge) : Prop where
  fromPort : 0 ≤ edge.pinnedFromPort
  toPort : 0 ≤ edge.pinnedToPort
  ports : Topology.hasClient topo edge.fromNodeID = false → Topology.hasClient topo edge.toNodeID = false →
    (edge.pinnedFromPort = 0 ↔ edge.pinnedToPort = 0)
  transit : edge.pinnedFromTransitIP = "" ↔ edge.pinnedToTransitIP = ""
  linkLocal : edge.pinnedFromLinkLocal = "" ↔ edge.pinnedToLinkLocal = ""

/-- The pins are written as the compiler writes them. -/
structure PinsSpelled (edge : Edge) : Prop where
  transit : ∀ text ∈ carriedTransit (edgeEnds edge), ∃ address : IPv4, text = address.format
  linkLocal : ∀ text ∈ carriedLinkLocals (edgeEnds edge), ∃ number, text = linkLocalText number

def domainPool (domain : Domain) : String := if domain.transitCIDR ≠ "" then domain.transitCIDR else defaultTransitCIDR

def InPool (text cidr : String) : Prop :=
  ∃ ip net, parseIP text = some ip ∧ parseCIDR cidr = some net ∧ net.contains ip = true

instance (text cidr : String) : Decidable (InPool text cidr) :=
  decidable_of_iff (((parseIP text).any fun ip => (parseCIDR cidr).any fun net => net.contains ip) = true) (by
    rw [InPool]
    cases parseIP text <;> cases parseCIDR cidr <;> simp)

def PoolsApart (domains : List Domain) : Prop :=
  ∀ domain ∈ domains, ∀ other ∈ domains, domainPool domain = domainPool other ∨
    ∀ text, InPool text (domainPool domain) → ¬ InPool text (domainPool other)

/-- The pins of a stored design between two stages. -/
structure StoredPins (topo : Topology) : Prop where
  complete : ∀ edge ∈ topo.edges, edge.isEnabled = true → PinsComplete topo edge
  spelled : ∀ edge ∈ topo.edges, edge.isEnabled = true → PinsSpelled edge
  pools : PoolsApart topo.domains
  apart : LinksApart topo

def Included (full : Topology) (registry : List RegistryNode) (edge : Edge) : Prop :=
  edge.fromNodeID ∈ readyIDs full registry ∧ edge.toNodeID ∈ readyIDs full registry

def Unpinned (edge : Edge) : Prop :=
  carriedPorts (edgeEnds edge) = [] ∧ carriedTransit (edgeEnds edge) = [] ∧ carriedLinkLocals (edgeEnds edge) = []

/-- What an edge outside the subgraph occupies is reserved: the edge is not taken for one of the subgraph, and if it
is pinned, its ends are known and its transit addresses lie in the pools of its ends or in no pool of a ready node. -/
structure EdgeCovered (full : Topology) (registry : List RegistryNode) (edge : Edge) : Prop where
  ownID : edge.id ∉ (enrolledSubgraph full registry).1.edges.map (·.id)
  ends : Unpinned edge ∨ ∃ fromNode toNode, full.node? edge.fromNodeID = some fromNode ∧
    full.node? edge.toNodeID = some toNode ∧ ∀ text ∈ carriedTransit (edgeEnds edge), ∀ node ∈ full.nodes, node.id ∈ readyIDs full registry →
      InPool text (full.transitCIDR node) →
        full.transitCIDR node = full.transitCIDR fromNode ∨ full.transitCIDR node = full.transitCIDR toNode

def StageCovered (full : Topology) (registry : List RegistryNode) : Prop :=
  ∀ edge ∈ full.edges, edge.isEnabled = true → ¬ Included full registry edge → EdgeCovered full registry edge

section

variable {first second first' second' : List (String × EndValues)}

theorem EndsApart.symm (apart : EndsApart first second) : EndsApart second first :=
  ⟨fun entry inSecond inFirst => apart.ports entry inFirst inSecond,
    fun text inSecond inFirst => apart.transit text inFirst inSecond,
    fun text inSecond inFirst => apart.linkLocals text inFirst inSecond⟩

theorem EndsApart.perm (apart : EndsApart first second) (same : first'.Perm first) (same' : second'.Perm second) :
    EndsApart first' second' := by
  have members : ∀ {α : Type} [DecidableEq α] {f : String × EndValues → α} {keep : α → Bool} {ends ends'},
      List.Perm ends' ends → ∀ item, item ∈ (ends'.map f).filter keep ↔ item ∈ (ends.map f).filter keep :=
    fun perm _ => ((perm.map _).filter _).mem_iff
  constructor
  case ports =>
    intro entry inFirst inSecond
    exact apart.ports entry ((members same entry).mp inFirst) ((members same' entry).mp inSecond)
  case transit =>
    intro text inFirst inSecond
    exact apart.transit text ((members same text).mp inFirst) ((members same' text).mp inSecond)
  case linkLocals =>
    intro text inFirst inSecond
    exact apart.linkLocals text ((members same text).mp inFirst) ((members same' text).mp inSecond)

end

theorem mem_nonblank_pair {first second : String} (both : first = "" ↔ second = "")
    (member : text ∈ [first, second].filter (· ≠ "")) :
    (text = first ∨ text = second) ∧ first ≠ "" ∧ second ≠ "" := by
  rw [mem_filter, mem_pair, decide_eq_true_eq] at member
  refine ⟨member.1, ?_⟩
  rcases member with ⟨rfl | rfl, set⟩
  · exact ⟨set, fun blank => set (both.mpr blank)⟩
  · exact ⟨fun blank => set (both.mp blank), set⟩

section

variable {full : Topology} {edge : Edge} {fromNode toNode : Node}

variable (isFrom : full.node? edge.fromNodeID = some fromNode) (isTo : full.node? edge.toNodeID = some toNode)

include isFrom isTo

theorem excludedResources_ports (complete : PinsComplete full edge) {nodeID : String} {port : Int}
    (carried : (nodeID, port) ∈ carriedPorts (edgeEnds edge)) (notClient : Topology.hasClient full nodeID = false) :
    (nodeID, port) ∈ (excludedResources full edge).ports := by
  have ports := complete.ports
  rw [hasClient_eq isFrom, hasClient_eq isTo] at ports
  have positive := complete.fromPort
  have positive' := complete.toPort
  simp only [carriedPorts, edgeEnds, map_cons, map_nil, mem_filter, mem_cons, not_mem_nil,
    or_false, Prod.mk.injEq, decide_eq_true_eq, Edge.fromEnd, Edge.toEnd] at carried
  obtain ⟨⟨rfl, rfl⟩ | ⟨rfl, rfl⟩, nonzero⟩ := carried
  · rw [hasClient_eq isFrom] at notClient
    have set : 0 < edge.pinnedFromPort := by omega
    cases client : toNode.isClient with
    | true => simp [excludedResources, isFrom, isTo, notClient, client, set]
    | false =>
      have set' : 0 < edge.pinnedToPort := by
        have both := ports notClient client
        omega
      simp [excludedResources, isFrom, isTo, notClient, client, set, set']
  · rw [hasClient_eq isTo] at notClient
    have set : 0 < edge.pinnedToPort := by omega
    cases client : fromNode.isClient with
    | true => simp [excludedResources, isFrom, isTo, notClient, client, set]
    | false =>
      have set' : 0 < edge.pinnedFromPort := by
        have both := ports client notClient
        omega
      simp [excludedResources, isFrom, isTo, notClient, client, set, set']

theorem excludedResources_transit (complete : PinsComplete full edge)
    (carried : text ∈ carriedTransit (edgeEnds edge)) :
    (full.transitCIDR fromNode, text) ∈ (excludedResources full edge).transit ∧
      (full.transitCIDR toNode, text) ∈ (excludedResources full edge).transit := by
  obtain ⟨isText, pair⟩ := mem_nonblank_pair complete.transit carried
  by_cases samePool : full.transitCIDR toNode = full.transitCIDR fromNode <;> rcases isText with isText | isText <;>
    simp [excludedResources, isFrom, isTo, pair, samePool, isText]

theorem excludedResources_linkLocals (complete : PinsComplete full edge)
    (carried : text ∈ carriedLinkLocals (edgeEnds edge)) : text ∈ (excludedResources full edge).linkLocals := by
  obtain ⟨isText, pair⟩ := mem_nonblank_pair complete.linkLocal carried
  rcases isText with isText | isText <;> simp [excludedResources, isFrom, isTo, pair, isText]

omit isFrom isTo in
/-- Whatever an edge outside of the subgraph occupies is reserved where a link could ask for it. -/
theorem EdgeCovered.reserved {registry : List RegistryNode} (covered : EdgeCovered full registry edge)
    (member : edge ∈ full.edges) (enabled : edge.isEnabled = true) (complete : PinsComplete full edge) :
    let held := buildReservedFromExcludedEdges full ((enrolledSubgraph full registry).1.edges.map (·.id))
    (∀ entry ∈ carriedPorts (edgeEnds edge), Topology.hasClient full entry.1 = false → entry ∈ held.ports) ∧
    (∀ text ∈ carriedTransit (edgeEnds edge), ∀ node ∈ full.nodes, node.id ∈ readyIDs full registry →
      InPool text (full.transitCIDR node) → (full.transitCIDR node, text) ∈ held.transit) ∧
    ∀ text ∈ carriedLinkLocals (edgeEnds edge), text ∈ held.linkLocals := by
  intro held
  obtain ⟨ports, transit, linkLocals⟩ | ⟨fromNode, toNode, isFrom, isTo, pools⟩ := covered.ends
  · simp [ports, transit, linkLocals]
  have inside : edge ∈ full.edges.filter fun edge =>
      edge.id ∉ (enrolledSubgraph full registry).1.edges.map (·.id) && edge.isEnabled :=
    mem_filter.mpr ⟨member, by simp [covered.ownID, enabled]⟩
  have reserved : ∀ {α : Type} {entries : Edge → List α} {entry : α}, entry ∈ entries edge →
      entry ∈ [] ++ (full.edges.filter fun edge =>
        edge.id ∉ (enrolledSubgraph full registry).1.edges.map (·.id) && edge.isEnabled).flatMap entries :=
    fun isEntry => mem_append_right _ (mem_flatMap.mpr ⟨edge, inside, isEntry⟩)
  simp only [held, buildReservedFromExcludedEdges, foldl_map, foldl_union (excludedResources full)]
  refine ⟨fun entry carried notClient => ?_, fun text carried node inNodes ready inPool => ?_, fun text carried => ?_⟩
  · exact reserved (excludedResources_ports isFrom isTo complete carried notClient)
  · obtain ⟨atFrom, atTo⟩ := excludedResources_transit isFrom isTo complete carried
    rcases pools text carried node inNodes ready inPool with same | same
    · exact same ▸ reserved atFrom
    · exact same ▸ reserved atTo
  · exact reserved (excludedResources_linkLocals isFrom isTo complete carried)

end

section

variable {env : Externals} {topo : Topology} {reserved : Resources} {link other : LinkEntity}
  {alloc alloc' : PairAllocation}

def SlotOf (topo : Topology) (reserved : Resources) (link : LinkEntity) (alloc : PairAllocation) : Prop :=
  expectedAllocation (reservePins reserved (groupLinks topo)) (earlierLinks (groupLinks topo) link)
    (groupLinks topo).length link = some alloc

private theorem carriedPorts_linkEnds (link : LinkEntity) (alloc : PairAllocation) :
    carriedPorts (linkEnds link alloc) = portEntries link (alloc.fromPort, alloc.toPort) := by
  by_cases first : alloc.fromPort = 0 <;> by_cases second : alloc.toPort = 0 <;>
    simp [carriedPorts, linkEnds, portEntries, PairAllocation.near, PairAllocation.far, first, second]

theorem SlotOf.port_origin (slot : SlotOf topo reserved link alloc) {entry : String × Int}
    (carried : entry ∈ carriedPorts (linkEnds link alloc)) :
    entry ∈ (pinnedResources link).ports ∨
      (needsPort entry.1 link = true ∧ entry ∉ (reservePins reserved (groupLinks topo)).ports) := by
  obtain ⟨ports, transit, linkLocal, isPorts, -, -, rfl⟩ := expectedAllocation_some slot
  rw [carriedPorts_linkEnds] at carried
  rcases portEntries_origin isPorts carried with ⟨-, pinned⟩ | ⟨asking, found⟩
  · exact .inl pinned
  · exact .inr ⟨asking, freePorts_not_reserved found⟩

theorem SlotOf.transit_origin (slot : SlotOf topo reserved link alloc)
    (carried : text ∈ carriedTransit (linkEnds link alloc)) :
    (∃ pins, pinnedTransit link = some pins ∧ text ∈ pairMarks pins) ∨
      (pinnedTransit link = none ∧ (∃ pair ∈ transitPairs link.transitCIDR, text ∈ pairMarks pair) ∧
        (link.transitCIDR, text) ∉ (reservePins reserved (groupLinks topo)).transit) := by
  obtain ⟨ports, transit, linkLocal, -, isTransit, -, rfl⟩ := expectedAllocation_some slot
  have inPair : text ∈ pairMarks transit := mem_of_mem_filter carried
  cases pinned : pinnedTransit link with
  | some pins =>
    simp only [expectedTransit, pinned, Option.some.injEq] at isTransit
    exact .inl ⟨pins, rfl, isTransit ▸ inPair⟩
  | none =>
    rw [expectedTransit_slot reserved pinned] at isTransit
    obtain ⟨inPool, free⟩ := mem_filter.mp (mem_of_getElem? isTransit)
    refine .inr ⟨rfl, ⟨transit, inPool, inPair⟩, ?_⟩
    simp only [transitPairFree, Bool.and_eq_true, decide_eq_true_eq] at free
    rcases mem_pairMarks.mp inPair with rfl | rfl
    · exact free.1
    · exact free.2

theorem SlotOf.linkLocal_origin (slot : SlotOf topo reserved link alloc)
    (carried : text ∈ carriedLinkLocals (linkEnds link alloc)) :
    (∃ pins, pinnedLinkLocal link = some pins ∧ text ∈ pairMarks pins) ∨
      (pinnedLinkLocal link = none ∧ (∃ number, text = linkLocalText number) ∧
        text ∉ (reservePins reserved (groupLinks topo)).linkLocals) := by
  obtain ⟨ports, transit, linkLocal, -, -, isLinkLocal, rfl⟩ := expectedAllocation_some slot
  have inPair : text ∈ pairMarks linkLocal := mem_of_mem_filter carried
  cases pinned : pinnedLinkLocal link with
  | some pins =>
    simp only [expectedLinkLocal, pinned, Option.some.injEq] at isLinkLocal
    exact .inl ⟨pins, rfl, isLinkLocal ▸ inPair⟩
  | none =>
    rw [expectedLinkLocal_slot reserved pinned] at isLinkLocal
    obtain ⟨index, found, rfl⟩ := Option.map_eq_some_iff.mp isLinkLocal
    have free := linkLocalFree_iff.mp (mem_filter.mp (mem_of_getElem? found)).2 text inPair
    refine .inr ⟨rfl, ?_, free⟩
    rcases mem_pairMarks.mp inPair with rfl | rfl
    · exact ⟨_, rfl⟩
    · exact ⟨_, rfl⟩

theorem pinned_reserved (reserved : Resources) (member : link ∈ groupLinks topo) {pins : String × String}
    (inPair : text ∈ pairMarks pins) :
    (pinnedTransit link = some pins → (link.transitCIDR, text) ∈ (reservePins reserved (groupLinks topo)).transit) ∧
      (pinnedLinkLocal link = some pins → text ∈ (reservePins reserved (groupLinks topo)).linkLocals) := by
  rw [reservePins_eq]
  constructor <;> intro pinned <;> refine mem_append_right _ (mem_flatMap.mpr ⟨link, member, ?_⟩)
  all_goals
    simp only [pinnedResources, pinned]
    rcases mem_pairMarks.mp inPair with rfl | rfl <;> simp

theorem transitPairs_inPool {cidr : String} {net : IPNet} {network : IPv4} (parsed : parseCIDR cidr = some net)
    (isNetwork : net.ip.to4 = some network) {pair : String × String} (member : pair ∈ transitPairs cidr)
    (inPair : text ∈ pairMarks pair) : InPool text cidr := by
  obtain ⟨net', network', index, found, isNetwork', small, rfl⟩ := transitPairs_host member
  have set : cidr ≠ "" := by
    rintro rfl
    cases parsed
  rw [transitNet, if_neg set, parsed] at found
  cases found
  obtain rfl : network = network' := Option.mem_unique isNetwork isNetwork'
  have short : net.ones ≤ 32 := by
    by_contra long
    have exponent : 32 - net.ones = 0 := by omega
    rw [exponent] at small
    omega
  have width := hostBits_of_parseCIDR parsed isNetwork short
  have inside : ∀ host, host < 2 ^ (32 - net.ones) → InPool (hostText network host) cidr := by
    intro host bounded
    rw [← width] at bounded
    exact ⟨_, net, parseIP_format _, parsed, net.contains_host isNetwork (IPNet.hostBits_le_of_to4 isNetwork) bounded⟩
  rcases mem_pairMarks.mp inPair with rfl | rfl
  · exact inside _ (by omega)
  · exact inside _ small

section

variable (accepted : Accepted env topo)

include accepted

theorem link_pool (member : link ∈ groupLinks topo) :
    ∃ net network, parseCIDR link.transitCIDR = some net ∧ net.ip.to4 = some network := by
  obtain ⟨resolved, inResolved, rfl⟩ := mem_groupLinks member
  exact transitCIDR_net accepted (Topology.node?_mem (mem_resolvedEdges.mp inResolved).2.2.1).1

theorem SlotOf.transit_inPool (member : link ∈ groupLinks topo) (slot : SlotOf topo reserved link alloc)
    (carried : text ∈ carriedTransit (linkEnds link alloc)) : InPool text link.transitCIDR := by
  obtain ⟨net, network, parsed, isNetwork⟩ := link_pool accepted member
  rcases slot.transit_origin carried with ⟨pins, pinned, inPair⟩ | ⟨-, ⟨pair, inPool, inPair⟩, -⟩
  · obtain ⟨ip, isIP, contained⟩ := pinnedTransit_inside accepted member pinned inPair
    exact ⟨ip, net, isIP, parsed, contained net parsed⟩
  · exact transitPairs_inPool parsed isNetwork inPool inPair

theorem links_apart (member : link ∈ groupLinks topo) (member' : other ∈ groupLinks topo) (different : link ≠ other)
    (pools : link.transitCIDR = other.transitCIDR ∨
      ∀ text, InPool text link.transitCIDR → ¬ InPool text other.transitCIDR)
    (slot : SlotOf topo reserved link alloc) (slot' : SlotOf topo reserved other alloc') :
    EndsApart (linkEnds link alloc) (linkEnds other alloc') := by
  have keys := groupLinks_keys_nodup topo
  obtain ⟨ports, transit, linkLocal, isPorts, isTransit, isLinkLocal, isAlloc⟩ := expectedAllocation_some slot
  obtain ⟨ports', transit', linkLocal', isPorts', isTransit', isLinkLocal', isAlloc'⟩ := expectedAllocation_some slot'
  constructor
  case ports =>
    intro entry carried carried'
    rw [carriedPorts_linkEnds, isAlloc] at carried
    rw [carriedPorts_linkEnds, isAlloc'] at carried'
    exact linkPorts_separate keys member member' different (pinnedPorts_apart accepted member member' different)
      isPorts isPorts' carried carried'
  case transit =>
    intro text carried carried'
    rcases pools with samePool | disjoint
    · rcases slot.transit_origin carried with ⟨pins, pinned, inPair⟩ | ⟨unpinned, -, free⟩ <;>
        rcases slot'.transit_origin carried' with ⟨pins', pinned', inPair'⟩ | ⟨unpinned', -, free'⟩
      · exact transitPins_apart accepted link member other member' different pins pins' pinned pinned' text inPair text
          inPair' rfl
      · exact free' (samePool ▸ (pinned_reserved reserved member inPair).1 pinned)
      · exact free (samePool ▸ (pinned_reserved reserved member' inPair').1 pinned')
      · rw [isAlloc] at carried
        rw [isAlloc'] at carried'
        exact (reservedTransitView_lawful reserved keys).separate member member' different unpinned unpinned' samePool
          isTransit isTransit' (mem_of_mem_filter carried) (mem_of_mem_filter carried')
    · exact disjoint text (slot.transit_inPool accepted member carried)
        (slot'.transit_inPool accepted member' carried')
  case linkLocals =>
    intro text carried carried'
    rcases slot.linkLocal_origin carried with ⟨pins, pinned, inPair⟩ | ⟨unpinned, -, free⟩ <;>
      rcases slot'.linkLocal_origin carried' with ⟨pins', pinned', inPair'⟩ | ⟨unpinned', -, free'⟩
    · exact linkLocalPins_apart accepted link member other member' different pins pins' pinned pinned' text inPair text
        inPair' rfl
    · exact free' ((pinned_reserved reserved member inPair).2 pinned)
    · exact free ((pinned_reserved reserved member' inPair').2 pinned')
    · rw [isAlloc] at carried
      rw [isAlloc'] at carried'
      exact (reservedLinkLocalView_lawful reserved keys).separate member member' different unpinned unpinned' rfl
        isLinkLocal isLinkLocal' (mem_of_mem_filter carried) (mem_of_mem_filter carried')

end

end

/-- What a stage compiles, with the addresses of its nodes. -/
abbrev stagedPart (full : Topology) (registry : List RegistryNode) (nodes : List Node) : Topology :=
  allocatedTopology (enrolledSubgraph full registry).1.withDefaults nodes

theorem domain?_withDefaults (topo : Topology) (id : String) :
    ({ topo with domains := topo.domains.map Domain.withDefaults } : Topology).domain? id =
      (topo.domain? id).map Domain.withDefaults := by
  simp only [Topology.domain?, ← map_reverse, find?_map]
  rfl

theorem edge?_mem {edge : Edge} (found : Topology.edge? topo id = some edge) :
    edge ∈ topo.edges ∧ edge.id = id :=
  findLast_mem found

theorem transitCIDR_eq {other : Topology} {node' : Node}
    (domains : other.domains = topo.domains.map Domain.withDefaults) (same : node'.domainID = node.domainID) :
    other.transitCIDR node' = topo.transitCIDR node := by
  have found : other.domain? node'.domainID = (topo.domain? node.domainID).map Domain.withDefaults := by
    rw [← domain?_withDefaults, same, Topology.domain?, Topology.domain?, domains]
  rw [Topology.transitCIDR, found, Topology.transitCIDR]
  cases topo.domain? node.domainID <;> rfl

theorem subgraph_node? (full : Topology) (registry : List RegistryNode)
    (found : (enrolledSubgraph full registry).1.node? id = some node) :
    id ∈ readyIDs full registry ∧ ∃ source, full.node? id = some source ∧ node = withReadyKey registry source := by
  obtain ⟨member, isID⟩ := Topology.node?_mem found
  obtain ⟨other, isOther, rfl⟩ := mem_map.mp member
  have ready : id ∈ readyIDs full registry := isID ▸ of_decide_eq_true (mem_filter.mp isOther).2
  refine ⟨ready, ?_⟩
  simp only [Topology.node?, enrolledSubgraph, ← map_reverse, ← filter_reverse, find?_map, find?_filter] at found
  obtain ⟨source, isSource, same⟩ := Option.map_eq_some_iff.mp found
  refine ⟨source, ?_, same.symm⟩
  rw [Topology.node?, ← isSource]
  congr 1
  funext candidate
  by_cases named : candidate.id = id
  · simp [withReadyKey, named, ready]
  · simp [withReadyKey, named]

theorem pinned_carried {source : Edge} (member : link ∈ groupLinks topo)
    (same : link.primaryEdge = source.withDefaults) :
    (∀ entry ∈ (pinnedResources link).ports, entry ∈ carriedPorts (edgeEnds source)) ∧
      (∀ pins, pinnedTransit link = some pins → ∀ text ∈ pairMarks pins, text ∈ carriedTransit (edgeEnds source)) ∧
      ∀ pins, pinnedLinkLocal link = some pins → ∀ text ∈ pairMarks pins,
        text ∈ carriedLinkLocals (edgeEnds source) := by
  have pair : ∀ {first second : String} {pins : String × String},
      (if first ≠ "" ∧ second ≠ "" then some (first, second) else none) = some pins →
      ∀ text ∈ pairMarks pins, text ∈ [first, second].filter (· ≠ "") := by
    intro first second pins pinned text inPair
    split at pinned
    case isFalse => cases pinned
    case isTrue set =>
      cases pinned
      rcases mem_pairMarks.mp inPair with rfl | rfl <;> simp [set]
  refine ⟨fun entry pinned => ?_, fun pins pinned => ?_, fun pins pinned => ?_⟩
  · obtain ⟨resolved, inResolved, rfl⟩ := mem_groupLinks member
    have isEdge : resolved.edge = source.withDefaults := same
    have key := pinnedResources_port inResolved pinned
    rw [portPins_keys, isEdge] at key
    obtain ⟨⟨id, values⟩, isEnd, made⟩ := mem_filterMap.mp key
    split at made
    case isTrue => cases made
    case isFalse nonzero =>
      rw [← Option.some.inj made]
      exact mem_filter.mpr ⟨mem_map.mpr ⟨(id, values), isEnd, rfl⟩, decide_eq_true nonzero⟩
  · rw [pinnedTransit, same] at pinned
    exact pair pinned
  · rw [pinnedLinkLocal, same] at pinned
    exact pair pinned

section

variable {env : Externals} {settings : Settings} {keys : Keys} {full : Topology} {registry : List RegistryNode}
  {nodes : List Node} {allocations : Allocations} {result : CompileResult}
  (run : Compiles env settings keys (enrolledSubgraph full registry).1.withDefaults nodes allocations result)
  {edge : Edge}

include run

private theorem mid_edges : (stagedPart full registry nodes).edges =
    (enrolledSubgraph full registry).1.edges.map Edge.withDefaults := by
  rw [stagedPart, allocatedTopology, withDefaults_of_accepted run.accepted]

private theorem mid_domains : (stagedPart full registry nodes).domains = full.domains.map Domain.withDefaults := by
  rw [stagedPart, allocatedTopology, withDefaults_of_accepted run.accepted]
  rfl

theorem compiled_source (found : (stagedPart full registry nodes).node? id = some node) :
    id ∈ readyIDs full registry ∧ ∃ source, full.node? id = some source ∧ source.isClient = node.isClient ∧
      (stagedPart full registry nodes).transitCIDR node =
        full.transitCIDR source := by
  obtain ⟨before, wasFound, same, -⟩ := allocated_node? run.accepted run.allAddressed found
  have inSubgraph : (enrolledSubgraph full registry).1.node? id = some before := by
    rw [Topology.node?, ← larger_nodes run]
    exact wasFound
  obtain ⟨ready, source, isSource, isBefore⟩ := subgraph_node? full registry inSubgraph
  refine ⟨ready, source, isSource, ?_, ?_⟩
  · rw [same, isBefore]
    rfl
  · refine transitCIDR_eq (mid_domains run) ?_
    rw [same, isBefore]
    rfl

theorem link_pools (pools : PoolsApart full.domains) {other : LinkEntity}
    (member : link ∈ groupLinks (stagedPart full registry nodes))
    (member' : other ∈ groupLinks (stagedPart full registry nodes)) :
    link.transitCIDR = other.transitCIDR ∨
      ∀ text, InPool text link.transitCIDR → ¬ InPool text other.transitCIDR := by
  have poolOf : ∀ {link}, link ∈ groupLinks (stagedPart full registry nodes) →
      ∃ domain ∈ full.domains, link.transitCIDR = domainPool domain := by
    intro link member
    obtain ⟨resolved, inResolved, rfl⟩ := mem_groupLinks member
    have inNodes := (Topology.node?_mem (mem_resolvedEdges.mp inResolved).2.2.1).1
    obtain ⟨domain, isDomain, inDomains⟩ := run.midAccepted.node_domain inNodes
    rw [mid_domains run] at inDomains
    obtain ⟨source, inFull, rfl⟩ := mem_map.mp inDomains
    refine ⟨source, inFull, ?_⟩
    change Topology.transitCIDR _ resolved.fromNode = _
    rw [Topology.transitCIDR, isDomain]
    rfl
  obtain ⟨domain, inDomains, pool⟩ := poolOf member
  obtain ⟨domain', inDomains', pool'⟩ := poolOf member'
  rw [pool, pool']
  exact pools domain inDomains domain' inDomains'

theorem link_source (member : link ∈ groupLinks (stagedPart full registry nodes)) :
    ∃ source ∈ full.edges, source.isEnabled = true ∧ link.primaryEdge = source.withDefaults := by
  obtain ⟨inEdges, enabled, -, -⟩ := groupLinks_edge member
  rw [mid_edges run] at inEdges
  obtain ⟨source, inSubgraph, same⟩ := mem_map.mp inEdges
  rw [← same] at enabled
  exact ⟨source, mem_of_mem_filter inSubgraph, enabled, same.symm⟩

omit run in
theorem compiled_edge? (run : Compiles env settings keys topo nodes allocations result)
    (member : edge ∈ topo.edges) : Topology.edge? result.topology edge.id =
      some (writeBack (allocatedTopology topo nodes) allocations edge) := by
  have written : writeBack (allocatedTopology topo nodes) allocations edge ∈ result.topology.edges := by
    rw [run.topology]
    exact mem_map_of_mem member
  cases found : Topology.edge? result.topology edge.id with
  | none =>
    have absent := find?_eq_none.mp found _ (mem_reverse.mpr written)
    simp at absent
  | some done =>
    obtain ⟨inResult, isID⟩ := edge?_mem found
    rw [run.topology] at inResult
    obtain ⟨other, inEdges, rfl⟩ := mem_map.mp inResult
    rw [writeBack_id] at isID
    rw [inj_on_of_nodup_map run.accepted.edgeIDs_nodup inEdges member isID]

theorem persisted_outside (ownID : edge.id ∉ (enrolledSubgraph full registry).1.edges.map (·.id)) :
    persistEdge result.topology edge = edge := by
  rw [persistEdge]
  cases found : Topology.edge? result.topology edge.id with
  | none => rfl
  | some done =>
    obtain ⟨member, isID⟩ := edge?_mem found
    obtain ⟨before, inMid, same⟩ := run.result_edge member
    have wasID : before.id = edge.id := by rw [← isID, ← Edge.design_id, ← same, Edge.design_id]
    rw [withDefaults_of_accepted run.accepted] at inMid
    obtain ⟨source, inSubgraph, rfl⟩ := mem_map.mp inMid
    exact absurd (mem_map.mpr ⟨source, inSubgraph, wasID⟩) ownID

omit run in
theorem persistEdge_design (compiled : Topology) (edge : Edge) : (persistEdge compiled edge).design = edge.design := by
  rw [persistEdge]
  split <;> rfl

omit run in
theorem persistEdge_isEnabled (compiled : Topology) (edge : Edge) :
    (persistEdge compiled edge).isEnabled = edge.isEnabled := by
  rw [← Edge.design_isEnabled, persistEdge_design, Edge.design_isEnabled]

omit run in
theorem persistEdge_linkKey (compiled : Topology) (edge : Edge) :
    (persistEdge compiled edge).linkKey = edge.linkKey := by
  rw [← Edge.design_linkKey, persistEdge_design, Edge.design_linkKey]

omit run in
theorem hasClient_persisted (full compiled : Topology) (id : String) :
    Topology.hasClient (persistAllocations full compiled) id = Topology.hasClient full id := by
  have kept : ∀ node, (persistNode compiled node).id = node.id ∧ (persistNode compiled node).isClient = node.isClient := by
    intro node
    rw [persistNode]
    split
    · split <;> exact ⟨rfl, rfl⟩
    · exact ⟨rfl, rfl⟩
  have found : (persistAllocations full compiled).node? id = (full.node? id).map (persistNode compiled) := by
    simp only [Topology.node?, persistAllocations, ← map_reverse, find?_map]
    congr 2
    funext node
    rw [Function.comp_apply, (kept node).1]
  rw [Topology.hasClient, found, Option.any_map, Topology.hasClient]
  congr 1
  funext node
  exact (kept node).2

omit run in
theorem complete_persisted {compiled : Topology} (complete : PinsComplete full edge) :
    PinsComplete (persistAllocations full compiled) edge := by
  refine ⟨complete.fromPort, complete.toPort, ?_, complete.transit, complete.linkLocal⟩
  rw [hasClient_persisted, hasClient_persisted]
  exact complete.ports

section

variable {edge other : Edge} (inFull : edge ∈ full.edges) (enabled : edge.isEnabled = true)
  (included : Included full registry edge)

include inFull enabled included

theorem persisted_included : ∃ link alloc,
      edge.withDefaults ∈ (stagedPart full registry nodes).edges ∧
      Allocated (stagedPart full registry nodes) settings.reserved
        allocations edge.withDefaults link alloc ∧
      edgeEnds (persistEdge result.topology edge) =
        [(edge.fromNodeID, alloc.endAt edge.fromNodeID), (edge.toNodeID, alloc.endAt edge.toNodeID)] := by
  have inMid : edge.withDefaults ∈ (stagedPart full registry nodes).edges := by
    rw [mid_edges run]
    apply mem_map_of_mem
    exact mem_filter.mpr ⟨inFull, by simp [included.1, included.2]⟩
  obtain ⟨link, alloc, given⟩ := exists_allocated run.midAccepted run.allocated inMid enabled
  refine ⟨link, alloc, inMid, given, ?_⟩
  have found : Topology.edge? result.topology edge.id = some (writeBack
      (stagedPart full registry nodes) allocations edge.withDefaults) := by
    have written := compiled_edge? run inMid
    exact written
  rw [persistEdge, found, writeBack_eq run.midAccepted inMid enabled given]
  rfl

theorem included_ends : ∃ link alloc, link ∈ groupLinks (stagedPart full registry nodes) ∧
      link.linkKey = edge.linkKey ∧
      SlotOf (stagedPart full registry nodes) settings.reserved link alloc ∧
      (edgeEnds (persistEdge result.topology edge)).Perm (linkEnds link alloc) := by
  obtain ⟨link, alloc, inMid, given, ends⟩ := persisted_included run inFull enabled included
  refine ⟨link, alloc, given.member, given.key, given.expected, ?_⟩
  have perm := given.ends_perm run.midAccepted inMid
  rw [ends]
  exact perm

theorem complete_included :
    PinsComplete (persistAllocations full result.topology) (persistEdge result.topology edge) := by
  obtain ⟨link, alloc, inMid, given, ends⟩ := persisted_included run inFull enabled included
  simp only [edgeEnds, List.cons.injEq, Prod.mk.injEq, and_true] at ends
  obtain ⟨⟨fromID, fromEnd⟩, toID, toEnd⟩ := ends
  have atFrom := given.endAt_complete run.midAccepted inMid (.inl rfl)
  have atTo := given.endAt_complete run.midAccepted inMid (.inr rfl)
  change (alloc.endAt edge.fromNodeID).complete (Topology.hasClient _ edge.fromNodeID) at atFrom
  change (alloc.endAt edge.toNodeID).complete (Topology.hasClient _ edge.toNodeID) at atTo
  rw [← fromEnd] at atFrom
  rw [← toEnd] at atTo
  obtain ⟨⟨fromNode, isFrom⟩, toNode, isTo⟩ := run.midAccepted.node?_isSome inMid
  change Topology.node? _ edge.fromNodeID = _ at isFrom
  change Topology.node? _ edge.toNodeID = _ at isTo
  obtain ⟨-, source, isSource, role, -⟩ := compiled_source run isFrom
  obtain ⟨-, source', isSource', role', -⟩ := compiled_source run isTo
  rw [hasClient_eq isFrom, ← role, ← hasClient_eq isSource] at atFrom
  rw [hasClient_eq isTo, ← role', ← hasClient_eq isSource'] at atTo
  have positive : ∀ {values : EndValues} {client}, values.complete client → 0 ≤ values.port := by
    intro values client complete
    cases client with
    | true => exact le_of_eq (complete.port_eq_zero rfl).symm
    | false => exact le_of_lt complete.1
  refine ⟨positive atFrom, positive atTo, ?_, iff_of_false atFrom.2.1 atTo.2.1, iff_of_false atFrom.2.2 atTo.2.2⟩
  rw [hasClient_persisted, hasClient_persisted, fromID, toID]
  intro notClient notClient'
  rw [notClient] at atFrom
  rw [notClient'] at atTo
  exact iff_of_false (ne_of_gt atFrom.1) (ne_of_gt atTo.1)

theorem spelled_included (stored : StoredPins full) : PinsSpelled (persistEdge result.topology edge) := by
  obtain ⟨link, alloc, member, -, slot, ends⟩ := included_ends run inFull enabled included
  obtain ⟨source, inSource, isEnabled, same⟩ := link_source run member
  obtain ⟨-, carriesTransit, carriesLinkLocal⟩ := pinned_carried member same
  have spelled := stored.spelled source inSource isEnabled
  constructor
  case transit =>
    intro text carried
    have carried' := (((ends.map _).filter _).mem_iff).mp carried
    rcases slot.transit_origin carried' with ⟨pins, pinned, inPair⟩ | ⟨-, ⟨pair, inPool, inPair⟩, -⟩
    · exact spelled.transit text (carriesTransit pins pinned text inPair)
    · obtain ⟨address, isAddress, -⟩ := canonicalIP_transit inPool inPair
      exact ⟨address, isAddress⟩
  case linkLocal =>
    intro text carried
    have carried' := (((ends.map _).filter _).mem_iff).mp carried
    rcases slot.linkLocal_origin carried' with ⟨pins, pinned, inPair⟩ | ⟨-, spelling, -⟩
    · exact spelled.linkLocal text (carriesLinkLocal pins pinned text inPair)
    · exact spelling

variable (inFull' : other ∈ full.edges) (enabled' : other.isEnabled = true)

include inFull' enabled'

theorem included_apart (pools : PoolsApart full.domains) (included' : Included full registry other)
    (different : edge.linkKey ≠ other.linkKey) : EndsApart (edgeEnds (persistEdge result.topology edge)) (edgeEnds (persistEdge result.topology other)) := by
  obtain ⟨link, alloc, member, key, slot, ends⟩ := included_ends run inFull enabled included
  obtain ⟨link', alloc', member', key', slot', ends'⟩ := included_ends run inFull' enabled' included'
  have distinct : link ≠ link' := by
    rintro rfl
    exact different (key.symm.trans key')
  exact (links_apart run.midAccepted member member' distinct (link_pools run pools member member') slot slot').perm ends
    ends'

theorem included_outside_apart (stored : StoredPins full) (covered : EdgeCovered full registry other)
    (reserves : settings.reserved =
      buildReservedFromExcludedEdges full ((enrolledSubgraph full registry).1.edges.map (·.id)))
    (different : edge.linkKey ≠ other.linkKey) :
    EndsApart (edgeEnds (persistEdge result.topology edge)) (edgeEnds other) := by
  obtain ⟨link, alloc, member, key, slot, ends⟩ := included_ends run inFull enabled included
  obtain ⟨source, inSource, isEnabled, same⟩ := link_source run member
  obtain ⟨carriesPorts, carriesTransit, carriesLinkLocal⟩ := pinned_carried member same
  have keys : source.linkKey ≠ other.linkKey := by
    rw [← key, LinkEntity.linkKey, same] at different
    exact different
  have apart := stored.apart source inSource other inFull' isEnabled enabled' keys
  obtain ⟨portsHeld, transitHeld, linkLocalsHeld⟩ :=
    covered.reserved inFull' enabled' (stored.complete other inFull' enabled')
  obtain ⟨-, -, isFrom, isTo⟩ := groupLinks_edge member
  refine EndsApart.perm ?_ ends (.refl _)
  constructor
  case ports =>
    intro entry carried outside
    rcases slot.port_origin carried with pinned | ⟨asking, free⟩
    · exact apart.ports entry (carriesPorts entry pinned) outside
    · have notClient : Topology.hasClient full entry.1 = false := by
        simp only [needsPort, Bool.and_eq_true, Bool.or_eq_true, Bool.not_eq_true', decide_eq_true_eq] at asking
        rcases asking.2 with ⟨notClient, isNode⟩ | ⟨notClient, isNode⟩
        · obtain ⟨-, node, found, role, -⟩ := compiled_source run isFrom
          rw [← isNode, (Topology.node?_mem isFrom).2, hasClient_eq found, role, notClient]
        · obtain ⟨-, node, found, role, -⟩ := compiled_source run isTo
          rw [← isNode, (Topology.node?_mem isTo).2, hasClient_eq found, role, notClient]
      apply free
      rw [reservePins_eq, reserves]
      exact mem_append_left _ (portsHeld entry outside notClient)
  case transit =>
    intro text carried outside
    rcases slot.transit_origin carried with ⟨pins, pinned, inPair⟩ | ⟨-, -, free⟩
    · exact apart.transit text (carriesTransit pins pinned text inPair) outside
    · obtain ⟨ready, node, found, -, pool⟩ := compiled_source run isFrom
      have linkPool : link.transitCIDR = full.transitCIDR node := by
        rw [← pool]
        obtain ⟨resolved, -, rfl⟩ := mem_groupLinks member
        rfl
      have inPool := slot.transit_inPool run.midAccepted member carried
      obtain ⟨inNodes, isNode⟩ := Topology.node?_mem found
      rw [linkPool] at free inPool
      apply free
      rw [reservePins_eq, reserves]
      exact mem_append_left _ (transitHeld text outside node inNodes (isNode ▸ ready) inPool)
  case linkLocals =>
    intro text carried outside
    rcases slot.linkLocal_origin carried with ⟨pins, pinned, inPair⟩ | ⟨-, -, free⟩
    · exact apart.linkLocals text (carriesLinkLocal pins pinned text inPair) outside
    · apply free
      rw [reservePins_eq, reserves]
      exact mem_append_left _ (linkLocalsHeld text outside)

end

theorem storedPins_persisted (stored : StoredPins full) (covered : StageCovered full registry)
    (reserves : settings.reserved =
      buildReservedFromExcludedEdges full ((enrolledSubgraph full registry).1.edges.map (·.id))) :
    StoredPins (persistAllocations full result.topology) := by
  have outside : ∀ {edge}, edge ∈ full.edges → edge.isEnabled = true → ¬ Included full registry edge →
      persistEdge result.topology edge = edge :=
    fun inFull enabled excluded => persisted_outside run (covered _ inFull enabled excluded).ownID
  constructor
  case pools => exact stored.pools
  case complete =>
    intro edge member enabled
    obtain ⟨source, inFull, rfl⟩ := mem_map.mp member
    rw [persistEdge_isEnabled] at enabled
    by_cases included : Included full registry source
    · exact complete_included run inFull enabled included
    · rw [outside inFull enabled included]
      exact complete_persisted (stored.complete source inFull enabled)
  case spelled =>
    intro edge member enabled
    obtain ⟨source, inFull, rfl⟩ := mem_map.mp member
    rw [persistEdge_isEnabled] at enabled
    by_cases included : Included full registry source
    · exact spelled_included run inFull enabled included stored
    · rw [outside inFull enabled included]
      exact stored.spelled source inFull enabled
  case apart =>
    intro edge member other member' enabled enabled' different
    obtain ⟨source, inFull, rfl⟩ := mem_map.mp member
    obtain ⟨source', inFull', rfl⟩ := mem_map.mp member'
    rw [persistEdge_isEnabled] at enabled enabled'
    rw [persistEdge_linkKey, persistEdge_linkKey] at different
    by_cases included : Included full registry source <;> by_cases included' : Included full registry source'
    · exact included_apart run inFull enabled included inFull' enabled' stored.pools included' different
    · rw [outside inFull' enabled' included']
      exact included_outside_apart run inFull enabled included inFull' enabled' stored
        (covered _ inFull' enabled' included') reserves different
    · rw [outside inFull enabled included]
      exact (included_outside_apart run inFull' enabled' included' inFull enabled stored
        (covered _ inFull enabled included) reserves different.symm).symm
    · rw [outside inFull enabled included, outside inFull' enabled' included']
      exact stored.apart source inFull source' inFull' enabled enabled' different

end

/-- Stored designs reached by stages that succeed, each with its own registry, keys and fallback policy, as long as
the reservations of every stage cover the edges outside its subgraph. -/
inductive StageRun (env : Externals) (start : Topology) : Topology → Prop
  | start : StageRun env start start
  | stage {full next : Topology} {mimicFallbackDefault : MimicFallback} {keys : Keys} {registry : List RegistryNode}
      (reached : StageRun env start full) (covered : StageCovered full registry)
      (staged : stageTopology env mimicFallbackDefault keys full registry = some next) : StageRun env start next

theorem storedPins_stage {mimicFallbackDefault : MimicFallback} {keys : Keys} {full next : Topology}
    {registry : List RegistryNode} (stored : StoredPins full) (covered : StageCovered full registry)
    (staged : stageTopology env mimicFallbackDefault keys full registry = some next) : StoredPins next := by
  rw [stageTopology] at staged
  split at staged
  case h_1 => cases staged
  case h_2 subgraph skipped projected =>
    split at staged
    case isTrue =>
      rw [← Option.some.inj staged]
      exact stored
    case isFalse =>
      obtain ⟨result, isResult, rfl⟩ := Option.map_eq_some_iff.mp staged
      obtain rfl := projected_subgraph projected
      obtain ⟨nodes, allocations, run⟩ := compileAt_ok (ok_of_toOption isResult)
      exact storedPins_persisted run stored covered rfl

/-- Link resources stay collision-free over every sequence of stages that succeed. -/
theorem stages_keep_links_apart {start reached : Topology} (stored : StoredPins start)
    (run : StageRun env start reached) : LinksApart reached := by
  have kept : StoredPins reached := by
    induction run with
    | start => exact stored
    | stage _ covered staged ih => exact storedPins_stage ih covered staged
  exact kept.apart

theorem inPool_disjoint {cidr cidr' : String} {width number number' : Nat}
    (parsed : (parseCIDR cidr).map (fun net => (net.hostBits, net.ip.toNat / 2 ^ net.hostBits)) = some (width, number))
    (parsed' : (parseCIDR cidr').map (fun net => (net.hostBits, net.ip.toNat / 2 ^ net.hostBits)) =
      some (width, number')) (different : number ≠ number') (text : String) (inside : InPool text cidr) :
    ¬ InPool text cidr' := by
  rintro ⟨ip', net', isIP', isNet', contained'⟩
  obtain ⟨ip, net, isIP, isNet, contained⟩ := inside
  obtain rfl : ip = ip' := Option.mem_unique isIP isIP'
  rw [isNet, Option.map_some, Option.some.injEq, Prod.mk.injEq] at parsed
  rw [isNet', Option.map_some, Option.some.injEq, Prod.mk.injEq] at parsed'
  simp only [IPNet.contains, Bool.and_eq_true, decide_eq_true_eq] at contained contained'
  rw [parsed.2, parsed.1] at contained
  rw [parsed'.2, parsed'.1] at contained'
  exact different (contained.2.symm.trans contained'.2)

/-- Two domains with pools of their own; the link of the first has been compiled before and carries `pair`. -/
def sampleTwoPools (pair : String × String) : Topology where
  project := { id := "p", name := "p" }
  domains := [{ id := "d1", name := "d1", cidr := "10.11.0.0/24", transitCIDR := "10.20.0.0/24" },
    { id := "d2", name := "d2", cidr := "10.12.0.0/24", transitCIDR := "10.30.0.0/24" }]
  nodes := [sampleRouter "x" "d1", sampleRouter "y" "d1", sampleRouter "a" "d2", sampleRouter "b" "d2"]
  edges := [{ sampleEdge "e1" "x" "y" with
      pinnedFromPort := 51820, pinnedToPort := 51820, pinnedFromTransitIP := pair.1, pinnedToTransitIP := pair.2
      pinnedFromLinkLocal := "fe80::1", pinnedToLinkLocal := "fe80::2" },
    sampleEdge "e2" "a" "b"]

/-- Only the nodes of the second domain are enrolled. -/
def sampleSecondDomain : List RegistryNode :=
  [{ nodeID := "a", wgPublicKey := "AAAAAAAAAAAAAAAAAAAAAAAAAAAAAAAAAAAAAAAAAAA=", status := .approved },
    { nodeID := "b", wgPublicKey := "BAAAAAAAAAAAAAAAAAAAAAAAAAAAAAAAAAAAAAAAAAA=", status := .approved }]

/-- The design that the next stage stores. -/
def sampleNext (pair : String × String) : Option Topology :=
  stageTopology sampleEnv .inherit (fun _ => none) (sampleTwoPools pair) sampleSecondDomain

theorem sampleTwoPools_stored (low high : IPv4) {pair : String × String} (isPair : (low.format, high.format) = pair) :
    StoredPins (sampleTwoPools pair) := by
  subst isPair
  constructor
  case complete =>
    simp only [sampleTwoPools, forall_mem_cons, not_mem_nil, false_imp_iff, implies_true, and_true]
    refine ⟨fun _ => ?_, fun _ => ?_⟩
    · exact ⟨by simp, by simp, fun _ _ => by simp, iff_of_false (format_ne_empty low) (format_ne_empty high), by simp⟩
    · exact ⟨by decide, by decide, fun _ _ => by decide, by decide, by decide⟩
  case spelled =>
    simp only [sampleTwoPools, forall_mem_cons, not_mem_nil, false_imp_iff, implies_true, and_true]
    refine ⟨fun _ => ⟨?_, ?_⟩, fun _ => ⟨?_, ?_⟩⟩
    · intro text carried
      have inPair := mem_of_mem_filter carried
      simp only [edgeEnds, map_cons, map_nil, mem_cons, not_mem_nil, or_false] at inPair
      rcases inPair with rfl | rfl
      · exact ⟨low, rfl⟩
      · exact ⟨high, rfl⟩
    · intro text carried
      have inPair := mem_of_mem_filter carried
      simp only [edgeEnds, map_cons, map_nil, mem_cons, not_mem_nil, or_false] at inPair
      have one : "fe80::1" = linkLocalText 1 := by decide
      have two : "fe80::2" = linkLocalText 2 := by decide
      rcases inPair with rfl | rfl
      · exact ⟨1, one⟩
      · exact ⟨2, two⟩
    · simp [carriedTransit, edgeEnds, Edge.fromEnd, Edge.toEnd, sampleEdge]
    · simp [carriedLinkLocals, edgeEnds, Edge.fromEnd, Edge.toEnd, sampleEdge]
  case pools =>
    have apart := @inPool_disjoint "10.20.0.0/24" "10.30.0.0/24" 8 (0xffff0a1400) (0xffff0a1e00) (by decide +kernel)
      (by decide +kernel) (by decide)
    simp only [PoolsApart, sampleTwoPools, forall_mem_cons, not_mem_nil, false_imp_iff, implies_true, and_true]
    exact ⟨⟨.inl trivial, .inr apart⟩, .inr fun text inSecond inFirst => apart text inFirst inSecond, .inl trivial⟩
  case apart =>
    have fresh : ∀ ends, EndsApart ends (edgeEnds (sampleEdge "e2" "a" "b")) := fun ends => by
      constructor <;> simp [carriedPorts, carriedTransit, carriedLinkLocals, edgeEnds, Edge.fromEnd, Edge.toEnd, sampleEdge]
    simp only [LinksApart, sampleTwoPools, forall_mem_cons, not_mem_nil, false_imp_iff, implies_true, and_true]
    refine ⟨⟨fun _ _ same => absurd rfl same, fun _ _ _ => ?_⟩, fun _ _ _ => ?_, fun _ _ same => absurd rfl same⟩
    · exact fresh _
    · exact (fresh _).symm

theorem sampleTwoPools_apart : ∃ next, sampleNext ("10.20.0.1", "10.20.0.2") = some next ∧ LinksApart next := by
  have staged : (sampleNext ("10.20.0.1", "10.20.0.2")).isSome = true := by decide +kernel
  obtain ⟨next, isNext⟩ := Option.isSome_iff_exists.mp staged
  have stored : StoredPins (sampleTwoPools ("10.20.0.1", "10.20.0.2")) :=
    sampleTwoPools_stored 0x0a140001#32 0x0a140002#32 (by decide +kernel)
  have covered : StageCovered (sampleTwoPools ("10.20.0.1", "10.20.0.2")) sampleSecondDomain := by
    simp only [StageCovered, sampleTwoPools, forall_mem_cons, not_mem_nil, false_imp_iff, implies_true, and_true]
    refine ⟨fun _ _ => ⟨by decide +kernel, .inr ⟨_, _, rfl, rfl, by decide +kernel⟩⟩, fun _ outside => ?_⟩
    exact absurd ⟨by decide +kernel, by decide +kernel⟩ outside
  exact ⟨next, isNext, stages_keep_links_apart stored (.stage .start covered isNext)⟩

/-- The stored pair belongs to the pool of another domain: it is reserved in the pools of its own ends only, and the
stage hands it out once more. -/
theorem sampleTwoPools_collides : StoredPins (sampleTwoPools ("10.30.0.1", "10.30.0.2")) ∧
    ∃ next, sampleNext ("10.30.0.1", "10.30.0.2") = some next ∧ ¬ LinksApart next := by
  have evaluated : (sampleNext ("10.30.0.1", "10.30.0.2")).map (fun next => decide (LinksApart next)) = some false := by
    decide +kernel
  obtain ⟨next, isNext, collides⟩ := Option.map_eq_some_iff.mp evaluated
  exact ⟨sampleTwoPools_stored 0x0a1e0001#32 0x0a1e0002#32 (by decide +kernel), next, isNext,
    of_decide_eq_false collides⟩

end Yaog.Controller
