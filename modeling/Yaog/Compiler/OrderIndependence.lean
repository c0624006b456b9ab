import Yaog.Compiler.Fixpoint

/-!
# Link resources do not depend on the order of nodes and edges

The links of a topology are found by the identifiers of nodes and the keys of edges, and gaps are filled in the order of
the link keys.
-/

namespace Yaog.Compiler

open Data Validator List

/-- The nodes and edges of a topology in another order, which entries of one identifier or one link key share. -/
structure Reordered (topo : Topology) (newNodes : List Node) (newEdges : List Edge) : Prop where
  nodes : newNodes.Perm topo.nodes
  edges : newEdges.Perm topo.edges
  nodeOrder : ∀ id, newNodes.filter (fun node => node.id = id) = topo.nodes.filter fun node => node.id = id
  edgeOrder : ∀ key, newEdges.filter (fun edge => edge.linkKey = key) = topo.edges.filter fun edge => edge.linkKey = key

theorem filter_key_perm {α : Type} {key : α → String} {items items' : List α} (distinct : (items.map key).Nodup)
    (same : items'.Perm items) (wanted : String) :
    items'.filter (fun item => key item = wanted) = items.filter fun item => key item = wanted := by
  have permuted := same.filter fun item => key item = wanted
  have alone : ((items.filter fun item => key item = wanted).map key).Nodup :=
    distinct.sublist (filter_sublist.map key)
  have isWanted : ∀ item ∈ items.filter (fun item => key item = wanted), key item = wanted := by
    intro item member
    exact of_decide_eq_true (mem_filter.mp member).2
  generalize items.filter (fun item => key item = wanted) = found at permuted alone isWanted ⊢
  rcases found with _ | ⟨first, _ | ⟨second, rest⟩⟩
  · exact perm_nil.mp permuted
  · exact perm_singleton.mp permuted
  · have repeated : key first = key second := by rw [isWanted first (by simp), isWanted second (by simp)]
    simp [repeated] at alone

structure Resources.Perm (used used' : Resources) : Prop where
  ports : used.ports.Perm used'.ports
  transit : used.transit.Perm used'.transit
  linkLocals : used.linkLocals.Perm used'.linkLocals

/-- Two attempts that fail for one reason, or give one value and leave the same in use. -/
inductive Alike {α : Type} : Except LinkError (α × Resources) → Except LinkError (α × Resources) → Prop where
  | failed (reason : LinkError) : Alike (.error reason) (.error reason)
  | filled (value : α) {used used' : Resources} (same : used.Perm used') : Alike (.ok (value, used)) (.ok (value, used'))

section

variable {used used' : Resources} (same : used.Perm used')

include same

theorem lowestFreePort_perm (node : Node) : lowestFreePort used node = lowestFreePort used' node := by
  simp only [lowestFreePort, same.ports.mem_iff]

theorem gapFillTransitPair_perm (cidr : String) : gapFillTransitPair used cidr = gapFillTransitPair used' cidr := by
  have free : transitPairFree used.transit cidr = transitPairFree used'.transit cidr := by
    funext pair
    simp only [transitPairFree, same.transit.mem_iff]
  simp only [gapFillTransitPair, free]

theorem gapFillLinkLocalPair_perm : gapFillLinkLocalPair used = gapFillLinkLocalPair used' := by
  have free : linkLocalFree used.linkLocals = linkLocalFree used'.linkLocals := by
    funext index
    simp only [linkLocalFree, same.linkLocals.mem_iff]
  simp only [gapFillLinkLocalPair, free, same.linkLocals.length_eq]

theorem fillPort_alike (node : Node) : Alike (fillPort used node) (fillPort used' node) := by
  rw [fillPort, fillPort, lowestFreePort_perm same]
  split
  case isTrue => exact .filled 0 same
  case isFalse =>
    cases lowestFreePort used' node with
    | none => exact .failed _
    | some port => exact .filled port { same with ports := same.ports.cons _ }

theorem fillPorts_alike (link : LinkEntity) : Alike (fillPorts used link) (fillPorts used' link) := by
  rw [fillPorts, fillPorts]
  cases pinnedPorts link with
  | some ports => exact .filled ports same
  | none =>
    have first := fillPort_alike same link.fromNode
    generalize fillPort used link.fromNode = left at first
    generalize fillPort used' link.fromNode = right at first
    cases first with
    | failed reason => exact .failed reason
    | filled port grown =>
      have second := fillPort_alike grown link.toNode
      dsimp only
      generalize fillPort _ link.toNode = left at second
      generalize fillPort _ link.toNode = right at second
      cases second with
      | failed reason => exact .failed reason
      | filled port' grown' => exact .filled (port, port') grown'

theorem fillTransit_alike (link : LinkEntity) : Alike (fillTransit used link) (fillTransit used' link) := by
  rw [fillTransit, fillTransit, gapFillTransitPair_perm same]
  cases pinnedTransit link with
  | some pair => exact .filled pair same
  | none =>
    cases gapFillTransitPair used' link.transitCIDR with
    | error cause => exact .failed _
    | ok pair => exact .filled pair { same with transit := (same.transit.cons _).cons _ }

theorem fillLinkLocal_perm (link : LinkEntity) :
    (fillLinkLocal used link).1 = (fillLinkLocal used' link).1 ∧
      (fillLinkLocal used link).2.Perm (fillLinkLocal used' link).2 := by
  rw [fillLinkLocal, fillLinkLocal, gapFillLinkLocalPair_perm same]
  cases pinnedLinkLocal link with
  | some pair => exact ⟨rfl, same⟩
  | none => exact ⟨rfl, { same with linkLocals := (same.linkLocals.cons _).cons _ }⟩

theorem fillLink_alike (link : LinkEntity) : Alike (fillLink used link) (fillLink used' link) := by
  rw [fillLink, fillLink]
  have ports := fillPorts_alike same link
  generalize fillPorts used link = left at ports
  generalize fillPorts used' link = right at ports
  cases ports with
  | failed reason => exact .failed reason
  | filled ports grown =>
    have transit := fillTransit_alike grown link
    dsimp only
    generalize fillTransit _ link = left at transit
    generalize fillTransit _ link = right at transit
    cases transit with
    | failed reason => exact .failed reason
    | filled transit grown' =>
      obtain ⟨linkLocal, grown''⟩ := fillLinkLocal_perm grown' link
      dsimp only
      rw [linkLocal]
      exact .filled _ grown''

end

theorem fillLinks_perm (links : List LinkEntity) {used used' : Resources} (same : used.Perm used') :
    fillLinks used links = fillLinks used' links := by
  induction links generalizing used used' with
  | nil => rfl
  | cons link rest ih =>
    rw [fillLinks, fillLinks]
    have round := fillLink_alike same link
    generalize fillLink used link = left at round
    generalize fillLink used' link = right at round
    cases round with
    | failed reason => rfl
    | filled alloc grown =>
      dsimp only
      rw [ih grown]

theorem reservePins_perm (reserved : Resources) {links links' : List LinkEntity} (same : links.Perm links') :
    (reservePins reserved links).Perm (reservePins reserved links') := by
  rw [reservePins_eq, reservePins_eq]
  exact ⟨(same.flatMap_right _).append_left _, (same.flatMap_right _).append_left _, (same.flatMap_right _).append_left _⟩

section

variable {topo : Topology} {newNodes : List Node} {newEdges : List Edge} (reordered : Reordered topo newNodes newEdges)

include reordered

theorem node?_reordered (id : String) :
    ({ topo with nodes := newNodes, edges := newEdges } : Topology).node? id = topo.node? id := by
  have last : ∀ nodes : List Node, nodes.reverse.find? (fun node => node.id = id) =
      (nodes.filter fun node => node.id = id).getLast? := by
    intro nodes
    rw [← head?_filter, filter_reverse, head?_reverse]
  rw [Topology.node?, Topology.node?, last, last, reordered.nodeOrder]

theorem resolve_reordered (edge : Edge) :
    ({ topo with nodes := newNodes, edges := newEdges } : Topology).resolve edge = topo.resolve edge := by
  rw [Topology.resolve, Topology.resolve, node?_reordered reordered, node?_reordered reordered]

omit reordered in
theorem resolvedEdges_filter (key : String) :
    topo.resolvedEdges.filter (fun link => link.linkKey = key) =
      (topo.edges.filter fun edge => edge.linkKey = key).filterMap topo.resolve := by
  rw [Topology.resolvedEdges, filter_filterMap, filterMap_filter]
  refine filterMap_congr fun edge _ => ?_
  cases resolved : topo.resolve edge with
  | none => simp
  | some link =>
    obtain ⟨-, rfl, -⟩ := resolve_some resolved
    by_cases same : link.edge.linkKey = key <;> simp [Option.filter, ResolvedEdge.linkKey, same]

theorem firstEdges_reordered :
    ({ topo with nodes := newNodes, edges := newEdges } : Topology).firstEdges.Perm topo.firstEdges := by
  refine keepFirst_perm fun key => ?_
  rw [resolvedEdges_filter, resolvedEdges_filter, reordered.edgeOrder]
  exact filterMap_congr fun edge _ => resolve_reordered reordered edge

theorem groupLinks_reordered :
    (groupLinks { topo with nodes := newNodes, edges := newEdges }).Perm (groupLinks topo) :=
  (firstEdges_reordered reordered).map _

/-- Link resources, or the reason why there are none, are the same in every order of nodes and edges that the nodes
of one identifier and the edges of one link key keep among themselves. -/
theorem link_resources_order_independent (reserved : Resources) :
    preallocateLinkResources (groupLinks { topo with nodes := newNodes, edges := newEdges }) reserved =
      preallocateLinkResources (groupLinks topo) reserved := by
  have links := groupLinks_reordered reordered
  have sorted : sortLinks (groupLinks { topo with nodes := newNodes, edges := newEdges }) =
      sortLinks (groupLinks topo) := by
    refine List.Perm.eq_of_pairwise (fun first second _ _ before after => ?_)
      (sortLinks_pairwise (groupLinks_keys_nodup _)) (sortLinks_pairwise (groupLinks_keys_nodup _))
      ((sortLinks_perm _).trans (links.trans (sortLinks_perm _).symm))
    rw [textLT_asymm before] at after
    cases after
  rw [preallocateLinkResources, preallocateLinkResources, sorted]
  exact fillLinks_perm _ (reservePins_perm reserved links)

end

/-- Two links, and its nodes and edges in reverse order. -/
def sampleChain : Topology :=
  { samplePair with
    nodes := samplePair.nodes ++ [sampleRouter "c" "d1"]
    edges := [sampleEdge "e1" "a" "b", sampleEdge "e2" "b" "c"] }

theorem sampleChain_order_independent :
    preallocateLinkResources (groupLinks { sampleChain with
      nodes := sampleChain.nodes.reverse, edges := sampleChain.edges.reverse }) {} =
      preallocateLinkResources (groupLinks sampleChain) {} := by
  have nodes := reverse_perm sampleChain.nodes
  have edges := reverse_perm sampleChain.edges
  exact link_resources_order_independent ⟨nodes, edges, filter_key_perm (by decide +kernel) nodes,
    filter_key_perm (by decide +kernel) edges⟩ {}

/-- A node identifier used twice, in two domains with pools of their own. -/
def sampleTwins : Topology :=
  { sampleCrossDomain with
    nodes := [sampleRouter "a" "d1", sampleRouter "a" "d2", sampleRouter "b" "d1"]
    edges := [sampleEdge "e1" "a" "b"] }

/-- The last of the two nodes decides the pool of the link. -/
theorem sampleTwins_order_dependent : ∃ nodes allocations allocations', nodes.Perm sampleTwins.nodes ∧
    preallocateLinkResources (groupLinks sampleTwins) {} = .ok allocations ∧
    preallocateLinkResources (groupLinks { sampleTwins with nodes }) {} = .ok allocations' ∧
    (lookupAllocation allocations "a|b").map (·.localTransit) = some "10.30.0.1" ∧
    (lookupAllocation allocations' "a|b").map (·.localTransit) = some "10.20.0.1" := by
  let nodes := [sampleRouter "a" "d2", sampleRouter "a" "d1", sampleRouter "b" "d1"]
  obtain ⟨allocations, allocated, pool⟩ : ∃ allocations,
      preallocateLinkResources (groupLinks sampleTwins) {} = .ok allocations ∧
        (lookupAllocation allocations "a|b").map (·.localTransit) = some "10.30.0.1" :=
    Allocator.exists_ok_and (by decide +kernel)
  obtain ⟨allocations', allocated', pool'⟩ : ∃ allocations',
      preallocateLinkResources (groupLinks { sampleTwins with nodes }) {} = .ok allocations' ∧
        (lookupAllocation allocations' "a|b").map (·.localTransit) = some "10.20.0.1" :=
    Allocator.exists_ok_and (by decide +kernel)
  exact ⟨nodes, allocations, allocations', List.Perm.swap _ _ _, allocated, allocated', pool, pool'⟩

end Yaog.Compiler
