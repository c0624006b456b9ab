import Yaog.Compiler.Uniqueness

/-!
# Which accepted pins a compile keeps

Validation reads the pins of every edge; the allocator reads those of the representative, the first
enabled edge of the link.
-/

namespace Yaog.Compiler

open Allocator Net Validator List

inductive Resource where
  | port | transit | linkLocal
  deriving DecidableEq, Repr

def Resource.Agrees : Resource → EndValues → EndValues → Prop
  | .port, first, second => first.port = second.port
  | .transit, first, second => first.transitIP = second.transitIP
  | .linkLocal, first, second => first.linkLocal = second.linkLocal

def Edge.Carries (topo : Topology) (edge : Edge) : Resource → Prop
  | .port =>
    (Topology.hasClient topo edge.fromNodeID = true ∨ 0 < edge.pinnedFromPort) ∧
      (Topology.hasClient topo edge.toNodeID = true ∨ 0 < edge.pinnedToPort)
  | .transit => edge.pinnedFromTransitIP ≠ "" ∧ edge.pinnedToTransitIP ≠ ""
  | .linkLocal => edge.pinnedFromLinkLocal ≠ "" ∧ edge.pinnedToLinkLocal ≠ ""

instance (resource : Resource) (first second : EndValues) : Decidable (resource.Agrees first second) := by
  cases resource <;> exact inferInstanceAs (Decidable (_ = _))

instance (topo : Topology) (edge : Edge) (resource : Resource) : Decidable (Edge.Carries topo edge resource) := by
  cases resource <;> exact inferInstanceAs (Decidable (_ ∧ _))

def Takes (reserved : Resources) (links : List LinkEntity) (link : LinkEntity) (near far : EndValues) : Resource → Prop
  | .port => expectedPorts (reservePins reserved links) (earlierLinks links link) link = some (near.port, far.port)
  | .transit =>
    expectedTransit (reservePins reserved links) (earlierLinks links link) link = some (near.transitIP, far.transitIP)
  | .linkLocal =>
    expectedLinkLocal (reservePins reserved links) (earlierLinks links link) links.length link =
      some (near.linkLocal, far.linkLocal)

/-- The pins of an edge at the end `id`; a port pinned at a client end counts for nothing. -/
def Edge.carried (topo : Topology) (edge : Edge) (id : String) : EndValues := Edge.endAt (clearClientPorts topo edge) id

/-- Every edge of the link that carries the resource has the values of `edge`, end by end. -/
def CarriersAgree (topo : Topology) (edge : Edge) (resource : Resource) : Prop :=
  ∀ other ∈ topo.edges, other.isEnabled = true → other.linkKey = edge.linkKey → Edge.Carries topo other resource →
    ∀ id ∈ [edge.fromNodeID, edge.toNodeID],
      resource.Agrees (Edge.carried topo other id) (Edge.carried topo edge id)

/-- Every edge of the compiled link has the values of `edge`, end by end. -/
def KeepsCarried (topo final : Topology) (edge : Edge) (resource : Resource) : Prop :=
  ∀ other ∈ final.edges, other.isEnabled = true → other.linkKey = edge.linkKey →
    ∀ id ∈ [edge.fromNodeID, edge.toNodeID], resource.Agrees (Edge.endAt other id) (Edge.carried topo edge id)

instance (topo : Topology) (edge : Edge) (resource : Resource) : Decidable (CarriersAgree topo edge resource) := by
  unfold CarriersAgree
  infer_instance

instance (topo final : Topology) (edge : Edge) (resource : Resource) :
    Decidable (KeepsCarried topo final edge resource) := by
  unfold KeepsCarried
  infer_instance

section

variable {env : Externals} {topo : Topology} {reserved : Resources} {allocations : Allocations} {link : LinkEntity}
  {alloc : PairAllocation} {edge : Edge} {near far : EndValues} {resource : Resource}

theorem takes_bare (links : List LinkEntity) (resource : Resource) :
    Takes reserved (links.map LinkEntity.bare) link.bare near far resource ↔
      Takes reserved links link near far resource := by
  -- a slot depends on the links before it only through the number of those that ask
  have counts : ∀ asks : LinkEntity → Bool, (∀ link, asks (LinkEntity.bare link) = asks link) →
      ((earlierLinks links link).map LinkEntity.bare).countP asks = (earlierLinks links link).countP asks := by
    intro asks keeps
    rw [countP_map]
    exact countP_congr fun link _ => by rw [Function.comp_apply, keeps]
  cases resource with
  | port =>
    simp only [Takes, reservePins_bare, earlierLinks_bare, expectedPorts, portSlot]
    rw [counts _ fun _ => rfl, counts _ fun _ => rfl]
    rfl
  | transit =>
    simp only [Takes, reservePins_bare, earlierLinks_bare, expectedTransit]
    rw [counts _ fun _ => rfl]
    rfl
  | linkLocal =>
    simp only [Takes, reservePins_bare, earlierLinks_bare, expectedLinkLocal, length_map]
    rw [counts _ fun _ => rfl]
    rfl

theorem takes_congr {links links' : List LinkEntity} {link link' : LinkEntity}
    (sameLinks : links.map LinkEntity.bare = links'.map LinkEntity.bare) (same : link.bare = link'.bare)
    (resource : Resource) :
    Takes reserved links link near far resource ↔ Takes reserved links' link' near far resource := by
  rw [← takes_bare links, sameLinks, same, takes_bare]

theorem takes_iff (expected : expectedAllocation (reservePins reserved (groupLinks topo))
      (earlierLinks (groupLinks topo) link) (groupLinks topo).length link = some alloc) (resource : Resource) :
    Takes reserved (groupLinks topo) link near far resource ↔
      resource.Agrees alloc.near near ∧ resource.Agrees alloc.far far := by
  obtain ⟨ports, transit, linkLocal, isPorts, isTransit, isLinkLocal, rfl⟩ := expectedAllocation_some expected
  cases resource with
  | port => simp [Takes, isPorts, Resource.Agrees, PairAllocation.near, PairAllocation.far, Prod.ext_iff]
  | transit => simp [Takes, isTransit, Resource.Agrees, PairAllocation.near, PairAllocation.far, Prod.ext_iff]
  | linkLocal => simp [Takes, isLinkLocal, Resource.Agrees, PairAllocation.near, PairAllocation.far, Prod.ext_iff]

theorem Takes.of_agrees {links : List LinkEntity} {near' far' : EndValues}
    (takes : Takes reserved links link near far resource) (nearAgrees : resource.Agrees near near')
    (farAgrees : resource.Agrees far far') : Takes reserved links link near' far' resource := by
  cases resource with
  | port =>
    have isNear : near.port = near'.port := nearAgrees
    have isFar : far.port = far'.port := farAgrees
    rw [Takes, ← isNear, ← isFar]
    exact takes
  | transit =>
    have isNear : near.transitIP = near'.transitIP := nearAgrees
    have isFar : far.transitIP = far'.transitIP := farAgrees
    rw [Takes, ← isNear, ← isFar]
    exact takes
  | linkLocal =>
    have isNear : near.linkLocal = near'.linkLocal := nearAgrees
    have isFar : far.linkLocal = far'.linkLocal := farAgrees
    rw [Takes, ← isNear, ← isFar]
    exact takes

section

variable (accepted : Accepted env topo)

include accepted

private theorem pinnedPorts_of_carries (member : link ∈ groupLinks topo)
    (carries : Edge.Carries topo link.primaryEdge .port) :
    pinnedPorts link = some ((clearClientPorts topo link.primaryEdge).pinnedFromPort,
      (clearClientPorts topo link.primaryEdge).pinnedToPort) := by
  obtain ⟨-, -, isFrom, isTo⟩ := groupLinks_edge member
  have notClient := groupLinks_toNode accepted member
  obtain ⟨fromPort, toPort⟩ := carries
  simp only [clearClientPorts, hasClient_eq isFrom, hasClient_eq isTo, notClient, Bool.false_eq_true, false_or,
    if_false] at fromPort toPort ⊢
  cases client : link.fromNode.isClient with
  | true => simp [pinnedPorts, client, notClient, toPort]
  | false =>
    have positive : 0 < link.primaryEdge.pinnedFromPort := by simpa [client] using fromPort
    simp [pinnedPorts, client, notClient, toPort, positive]

theorem takes_of_carries (member : link ∈ groupLinks topo) (carries : Edge.Carries topo link.primaryEdge resource) :
    Takes reserved (groupLinks topo) link (Edge.carried topo link.primaryEdge link.primaryEdge.fromNodeID)
      (Edge.carried topo link.primaryEdge link.primaryEdge.toNodeID) resource := by
  have distinct := (accepted.edge_ends (groupLinks_edge member).1).2.2
  have atFrom : Edge.carried topo link.primaryEdge link.primaryEdge.fromNodeID =
      Edge.fromEnd (clearClientPorts topo link.primaryEdge) := if_pos rfl
  have atTo : Edge.carried topo link.primaryEdge link.primaryEdge.toNodeID =
      Edge.toEnd (clearClientPorts topo link.primaryEdge) := if_neg distinct
  rw [atFrom, atTo]
  cases resource with
  | port => simp only [Takes, expectedPorts, pinnedPorts_of_carries accepted member carries, Edge.fromEnd, Edge.toEnd]
  | transit =>
    have pinned : pinnedTransit link = some _ := if_pos carries
    simp only [Takes, expectedTransit, pinned, Edge.fromEnd, Edge.toEnd, clearClientPorts]
  | linkLocal =>
    have pinned : pinnedLinkLocal link = some _ := if_pos carries
    simp only [Takes, expectedLinkLocal, pinned, Edge.fromEnd, Edge.toEnd, clearClientPorts]

theorem endAt_writeBack (member : edge ∈ topo.edges) (enabled : edge.isEnabled = true)
    (given : Allocated topo reserved allocations edge link alloc) {id : String}
    (isEnd : id ∈ [edge.fromNodeID, edge.toNodeID]) :
    Edge.endAt (writeBack topo allocations edge) id = alloc.endAt id := by
  rw [writeBack_eq accepted member enabled given]
  by_cases atFrom : edge.fromNodeID = id
  · rw [← atFrom]
    exact if_pos rfl
  · have atTo : id = edge.toNodeID := by
      rcases mem_pair.mp isEnd with rfl | isTo
      · exact absurd rfl atFrom
      · exact isTo
    rw [atTo]
    exact if_neg (accepted.edge_ends member).2.2

/-- The edges of a compiled link keep the pins of `edge` exactly when the link takes them. -/
theorem keepsCarried_iff (member : edge ∈ topo.edges) (enabled : edge.isEnabled = true)
    (given : Allocated topo reserved allocations edge link alloc) (resource : Resource) :
    KeepsCarried topo (compiledTopology topo allocations) edge resource ↔
      Takes reserved (groupLinks topo) link (Edge.carried topo edge link.primaryEdge.fromNodeID)
        (Edge.carried topo edge link.primaryEdge.toNodeID) resource := by
  obtain ⟨inEdges, -, isFrom, isTo⟩ := groupLinks_edge given.member
  have same := given.samePair accepted member
  have fromID : alloc.fromNodeID = link.primaryEdge.fromNodeID :=
    given.filled.fromNodeID.trans (Topology.node?_mem isFrom).2
  have near : alloc.endAt link.primaryEdge.fromNodeID = alloc.near := if_pos fromID
  have far : alloc.endAt link.primaryEdge.toNodeID = alloc.far := if_neg (fromID ▸ (accepted.edge_ends inEdges).2.2)
  have ends : (∀ id ∈ [edge.fromNodeID, edge.toNodeID], resource.Agrees (alloc.endAt id) (Edge.carried topo edge id)) ↔
      resource.Agrees alloc.near (Edge.carried topo edge link.primaryEdge.fromNodeID) ∧
        resource.Agrees alloc.far (Edge.carried topo edge link.primaryEdge.toNodeID) := by
    rw [← near, ← far, forall_mem_cons, forall_mem_singleton]
    rcases same with ⟨froms, tos⟩ | ⟨froms, tos⟩
    · rw [froms, tos]
    · rw [froms, tos, and_comm]
  rw [takes_iff given.expected, ← ends]
  constructor
  · intro keeps id isEnd
    have kept := keeps _ (mem_map_of_mem member) ((writeBack_isEnabled topo allocations edge).trans enabled)
      (writeBack_linkKey topo allocations edge) id isEnd
    rwa [endAt_writeBack accepted member enabled given isEnd] at kept
  · intro agrees other inFinal isEnabled key id isEnd
    obtain ⟨source, inSource, rfl⟩ := mem_map.mp inFinal
    rw [writeBack_isEnabled] at isEnabled
    rw [writeBack_linkKey] at key
    have given' : Allocated topo reserved allocations source link alloc :=
      ⟨given.member, given.key.trans key.symm, key ▸ given.lookup, given.expected⟩
    have isEnd' : id ∈ [source.fromNodeID, source.toNodeID] := by
      have pair := (accepted.linkKey_inj inSource member key).1
      rcases pair with ⟨froms, tos⟩ | ⟨froms, tos⟩
      · rwa [froms, tos]
      · rw [froms, tos]
        exact mem_pair.mpr (mem_pair.mp isEnd).symm
    rw [endAt_writeBack accepted inSource isEnabled given' isEnd']
    exact agrees id isEnd

end

end

section

variable {env : Externals} {settings : Settings} {keys : Keys} {topo : Topology} {nodes : List Node}
  {allocations : Allocations} {result : CompileResult}

theorem hasClient_bare (topo : Topology) (id : String) :
    Topology.hasClient topo.bare id = Topology.hasClient topo id := by
  rw [Topology.hasClient, Topology.bare_node?, Option.any_map, Topology.hasClient]
  rfl

theorem carried_allocated (all : AllAddressed topo nodes) (edge : Edge) (id : String) :
    Edge.carried (allocatedTopology topo nodes) edge id = Edge.carried topo edge id := by
  have clients : ∀ id, Topology.hasClient (allocatedTopology topo nodes) id = Topology.hasClient topo id := by
    intro id
    rw [← hasClient_bare, allocatedTopology_bare all, hasClient_bare]
  rw [Edge.carried, clearClientPorts, clients, clients]
  rfl

theorem allocated_link (all : AllAddressed topo nodes) {link link' : LinkEntity} (member : link ∈ groupLinks topo)
    (member' : link' ∈ groupLinks (allocatedTopology topo nodes)) (key : link'.linkKey = link.linkKey) :
    link'.bare = link.bare := by
  have same : (groupLinks (allocatedTopology topo nodes)).map LinkEntity.bare =
      (groupLinks topo).map LinkEntity.bare := by
    rw [← groupLinks_bare, allocatedTopology_bare all, groupLinks_bare]
  obtain ⟨found, inLinks, isFound⟩ := mem_map.mp (same ▸ mem_map_of_mem member)
  have keys := congrArg LinkEntity.linkKey isFound
  have sameKey : found.linkKey = link'.linkKey := keys.trans key.symm
  rw [← isFound, link_eq_of_key inLinks member' sameKey]

end

/-- The pins of an enabled edge with which all carriers of its link agree are the values of the compiled link
exactly when the first enabled edge of the link is a carrier, or when the values that the unpinned link gets are
the pinned ones. -/
theorem pins_kept_iff {env : Externals} {settings : Settings} {keys : Keys} {input : Topology} {result : CompileResult}
    (compiled : compileAt env settings keys input = .ok result) {edge : Edge} {resource : Resource}
    (member : edge ∈ input.withDefaults.edges) (enabled : edge.isEnabled = true)
    (agree : CarriersAgree input.withDefaults edge resource) {link : LinkEntity}
    (isLink : link ∈ groupLinks input.withDefaults) (key : link.linkKey = edge.linkKey) :
    KeepsCarried input.withDefaults result.topology edge resource ↔
      Edge.Carries input.withDefaults link.primaryEdge resource ∨
        Takes settings.reserved (groupLinks input.withDefaults) link
          (Edge.carried input.withDefaults edge link.primaryEdge.fromNodeID)
          (Edge.carried input.withDefaults edge link.primaryEdge.toNodeID) resource := by
  obtain ⟨nodes, allocations, run⟩ := compileAt_ok compiled
  have all := run.allAddressed
  obtain ⟨link', alloc, given⟩ := exists_allocated run.midAccepted run.allocated member enabled
  have bare := allocated_link all isLink given.member (given.key.trans key.symm)
  have primary := congrArg LinkEntity.primaryEdge bare
  change link'.primaryEdge = link.primaryEdge at primary
  have links : (groupLinks (allocatedTopology input.withDefaults nodes)).map LinkEntity.bare =
      (groupLinks input.withDefaults).map LinkEntity.bare := by
    rw [← groupLinks_bare, allocatedTopology_bare all, groupLinks_bare]
  have keeps := keepsCarried_iff run.midAccepted member enabled given resource
  rw [← run.topology, ← takes_bare, bare, links, takes_bare, primary] at keeps
  simp only [KeepsCarried, carried_allocated all] at keeps ⊢
  rw [keeps]
  constructor
  · exact Or.inr
  · rintro (isCarrier | takes)
    · -- the representative is one of the carriers that agree with `edge`
      obtain ⟨inEdges, isEnabled, -⟩ := groupLinks_edge isLink
      have agrees := agree link.primaryEdge inEdges isEnabled key isCarrier
      have ends : link.primaryEdge.fromNodeID ∈ [edge.fromNodeID, edge.toNodeID] ∧
          link.primaryEdge.toNodeID ∈ [edge.fromNodeID, edge.toNodeID] := by
        rcases (run.accepted.linkKey_inj inEdges member key).1 with ⟨froms, tos⟩ | ⟨froms, tos⟩ <;> simp [froms, tos]
      exact (takes_of_carries run.accepted isLink isCarrier).of_agrees (agrees _ ends.1) (agrees _ ends.2)
    · exact takes

/-- The reverse edge of a link, with a transit pair. -/
def samplePinnedEdge : Edge :=
  { sampleEdge "e2" "b" "a" with
    transport := .udp, pinnedFromTransitIP := "10.10.0.21", pinnedToTransitIP := "10.10.0.22" }

def samplePinnedFirst : Topology := { samplePair with edges := [samplePinnedEdge, sampleEdge "e1" "a" "b"] }

theorem samplePinnedFirst_kept : ∃ result, sampleCompile samplePinnedFirst = .ok result ∧
    KeepsCarried samplePinnedFirst.withDefaults result.topology samplePinnedEdge .transit := by
  obtain ⟨result, compiled⟩ : ∃ result, sampleCompile samplePinnedFirst = .ok result := exists_ok (by decide +kernel)
  have carries : Edge.Carries samplePinnedFirst.withDefaults samplePinnedEdge .transit := by decide +kernel
  obtain ⟨link, isLink, primary⟩ : ∃ link ∈ groupLinks samplePinnedFirst.withDefaults,
      link.primaryEdge = samplePinnedEdge := by decide +kernel
  refine ⟨result, compiled, (pins_kept_iff compiled (by decide +kernel) rfl (by decide +kernel) isLink
    (congrArg Edge.linkKey primary)).mpr (Or.inl ?_)⟩
  rw [primary]
  exact carries

/-- The same edges the other way round: the unpinned edge represents the link. -/
def samplePinnedSecond : Topology := { samplePair with edges := [sampleEdge "e1" "a" "b", samplePinnedEdge] }

/-- The pair pinned on the second edge is replaced by the first free one. -/
theorem samplePinnedSecond_renumbered :
    ∃ result, sampleCompile samplePinnedSecond = .ok result ∧
      samplePinnedEdge ∈ samplePinnedSecond.withDefaults.edges ∧
      Edge.Carries samplePinnedSecond.withDefaults samplePinnedEdge .transit ∧
      CarriersAgree samplePinnedSecond.withDefaults samplePinnedEdge .transit ∧
      ¬ KeepsCarried samplePinnedSecond.withDefaults result.topology samplePinnedEdge .transit := by
  obtain ⟨result, compiled, renumbered⟩ : ∃ result, sampleCompile samplePinnedSecond = .ok result ∧
      ¬ KeepsCarried samplePinnedSecond.withDefaults result.topology samplePinnedEdge .transit :=
    exists_ok_and (by decide +kernel)
  exact ⟨result, compiled, by decide +kernel, by decide +kernel, by decide +kernel, renumbered⟩

end Yaog.Compiler
