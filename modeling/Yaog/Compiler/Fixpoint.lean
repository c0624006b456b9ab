import Yaog.Compiler.Recheck

/-!
# Compiling a compiled topology

Once the values written back are accepted, every link is pinned, so the second compile hands out
nothing and returns the topology it was given.
-/

namespace Yaog.Compiler

open Allocator Net Validator List

section

variable {used : Resources} {links : List LinkEntity}

def FullyPinned (link : LinkEntity) : Prop :=
  (∃ ports, pinnedPorts link = some ports) ∧ (∃ pair, pinnedTransit link = some pair) ∧
    ∃ pair, pinnedLinkLocal link = some pair

private theorem fillLinks_pinned (pinned : ∀ link ∈ links, FullyPinned link) :
    ∃ allocations, fillLinks used links = .ok allocations := by
  induction links with
  | nil => exact ⟨[], rfl⟩
  | cons link rest ih =>
    obtain ⟨allocations, later⟩ := ih fun other member => pinned other (mem_cons_of_mem _ member)
    obtain ⟨⟨ports, isPorts⟩, ⟨transit, isTransit⟩, linkLocal, isLinkLocal⟩ := pinned link mem_cons_self
    simp only [fillLinks, fillLink, fillPorts, isPorts, fillTransit, isTransit, fillLinkLocal, isLinkLocal, later]
    exact ⟨_, rfl⟩

theorem preallocate_pinned (reserved : Resources) (pinned : ∀ link ∈ links, FullyPinned link) :
    ∃ allocations, preallocateLinkResources links reserved = .ok allocations :=
  fillLinks_pinned fun link member => pinned link ((sortLinks_perm links).mem_iff.mp member)

end

section

variable {env : Externals} {topo : Topology} {reserved : Resources} {allocations : Allocations}
  {fallback : MimicFallback} {keys : Keys}

private theorem buildPeerInfo_oriented {links : List ResolvedEdge}
    (oriented : ∀ link ∈ links, ∀ alloc, lookupAllocation allocations link.linkKey = some alloc →
      alloc.fromNodeID = link.fromNode.id) :
    ∃ peers, buildPeerInfo env fallback keys topo allocations links = some peers := by
  induction links with
  | nil => exact ⟨[], rfl⟩
  | cons link rest ih =>
    obtain ⟨later, isLater⟩ := ih fun other member => oriented other (mem_cons_of_mem _ member)
    cases lookup : lookupAllocation allocations link.linkKey with
    | none => exact ⟨later, by simp only [buildPeerInfo, lookup, isLater]⟩
    | some alloc =>
      have forward := oriented link mem_cons_self alloc lookup
      obtain ⟨first, isFirst⟩ : ∃ first, linkPeers env fallback keys topo link alloc = some first := by
        rw [linkPeers, if_neg (not_not.mpr forward)]
        split
        · exact ⟨_, rfl⟩
        · split <;> exact ⟨_, rfl⟩
      exact ⟨first ++ later, by simp only [buildPeerInfo, lookup, isFirst, isLater]⟩

theorem buildPeerInfo_some (fallback : MimicFallback) (keys : Keys) (accepted : Accepted env topo)
    (allocated : preallocateLinkResources (groupLinks topo) reserved = .ok allocations) :
    ∃ peers, buildPeerInfo env fallback keys topo allocations topo.firstEdges = some peers := by
  refine buildPeerInfo_oriented fun link member alloc lookup => ?_
  have inLinks : linkEntity topo link ∈ groupLinks topo := mem_map_of_mem member
  obtain ⟨alloc', lookup', expected⟩ := preallocate_lookup (groupLinks_keys_nodup topo) (groupLinks_ends accepted)
    allocated inLinks
  obtain rfl : alloc' = alloc := Option.mem_unique lookup' lookup
  exact (filled_of_expected expected).fromNodeID

theorem settled_fullyPinned (accepted : Accepted env topo) (settled : Settled topo) :
    ∀ link ∈ groupLinks topo, FullyPinned link := by
  intro link member
  obtain ⟨inEdges, enabled, isFrom, isTo⟩ := groupLinks_edge member
  obtain ⟨fromEnd, toEnd⟩ := settled.complete link.primaryEdge inEdges enabled
  rw [hasClient_eq isFrom] at fromEnd
  rw [hasClient_eq isTo] at toEnd
  obtain ⟨ports, transit, linkLocal⟩ := pinned_of_complete fromEnd toEnd (groupLinks_toNode accepted member)
  exact ⟨⟨_, ports⟩, ⟨_, transit⟩, _, linkLocal⟩

end

theorem reaccepted_bare (topo : Topology) : Reaccepted topo.bare ↔ Reaccepted topo := by
  have transit : WindowsApart CanonicalApart (transitView (groupLinks topo.bare)) (groupLinks topo.bare) ↔
      WindowsApart CanonicalApart (transitView (groupLinks topo)) (groupLinks topo) := by
    rw [groupLinks_bare]
    exact windowsApart_bare (funext (handedTransit_bare _)) fun _ => rfl
  have linkLocals : WindowsApart CanonicalApart (linkLocalView (groupLinks topo.bare)) (groupLinks topo.bare) ↔
      WindowsApart CanonicalApart (linkLocalView (groupLinks topo)) (groupLinks topo) := by
    rw [groupLinks_bare]
    exact windowsApart_bare (funext fun _ => handedLinkLocals_bare _) fun _ => rfl
  constructor
  · intro reaccepted
    refine ⟨fun resolved inResolved link member key pair slot => ?_, transit.mp reaccepted.transit,
      linkLocals.mp reaccepted.linkLocals⟩
    refine reaccepted.ownPool resolved.bare ?_ link.bare ?_ key pair ?_
    · rw [Topology.bare_resolvedEdges]
      exact mem_map_of_mem inResolved
    · rw [groupLinks_bare]
      exact mem_map_of_mem member
    · rw [groupLinks_bare, linkTransit_bare]
      exact slot
  · intro reaccepted
    refine ⟨fun resolved inResolved link member key pair slot => ?_, transit.mpr reaccepted.transit,
      linkLocals.mpr reaccepted.linkLocals⟩
    rw [Topology.bare_resolvedEdges] at inResolved
    rw [groupLinks_bare] at member slot
    obtain ⟨resolved, wasResolved, rfl⟩ := mem_map.mp inResolved
    obtain ⟨link, isLink, rfl⟩ := mem_map.mp member
    rw [linkTransit_bare] at slot
    exact reaccepted.ownPool resolved wasResolved link isLink key pair slot

def assignedValues (topo : Topology) : List (String × String) × List (String × EndValues × EndValues × Int) :=
  (topo.nodes.map fun node => (node.id, node.overlayIP),
    topo.edges.map fun edge => (edge.id, Edge.fromEnd edge, Edge.toEnd edge, edge.compiledPort))

section

variable {env : Externals} {settings : Settings} {keys : Keys} {input : Topology} {nodes : List Node}
  {allocations : Allocations} {result : CompileResult}

section

variable (run : Compiles env settings keys input.withDefaults nodes allocations result)

include run

theorem result_domains : result.topology.domains.map Domain.withDefaults = result.topology.domains := by
  rw [run.topology, withDefaults_of_accepted run.accepted]
  change (input.domains.map Domain.withDefaults).map Domain.withDefaults = input.domains.map Domain.withDefaults
  rw [map_map]
  refine map_congr_left fun domain _ => ?_
  simp only [Function.comp_apply, Domain.withDefaults]
  split <;> simp_all

theorem result_withDefaults : result.topology.withDefaults = result.topology := by
  have edges : result.topology.edges.map Edge.withDefaults = result.topology.edges :=
    (map_congr_left run.result_transport).trans (map_id _)
  rw [Topology.withDefaults, result_domains run, edges]
  split <;> rfl

theorem result_allocated : allocatedTopology result.topology result.topology.nodes = result.topology := by
  have inferred : result.topology.nodes.map withInferredCapabilities = result.topology.nodes := by
    rw [run.result_nodes, allocatedTopology, map_map]
    exact map_congr_left fun node _ => withInferredCapabilities_idem node
  rw [allocatedTopology, inferred, run.topology]
  rfl

theorem recompile_same (again : Accepted env result.topology) :
    ∃ result', compileAt env settings keys result.topology = .ok result' ∧ result'.topology = result.topology := by
  have defaults := result_withDefaults run
  have addressed : allocateIPs result.topology = .ok result.topology.nodes := by
    rw [allocateIPs_of_accepted again]
    exact assignFree_carried run.result_carries
  have same := result_allocated run
  obtain ⟨allocations', allocated⟩ := preallocate_pinned settings.reserved (settled_fullyPinned again run.settled)
  obtain ⟨peers, derived⟩ := buildPeerInfo_some settings.mimicFallbackDefault keys again allocated
  have steps := @compileAt_of_steps env settings keys result.topology result.topology.nodes allocations' peers
  rw [defaults, same] at steps
  obtain ⟨result', compiled, rerun⟩ := steps again addressed allocated derived
  refine ⟨result', compiled, ?_⟩
  have unchanged : ∀ edge ∈ result.topology.edges, writeBack result.topology allocations' edge = edge := by
    intro edge member
    exact writeBack_settled run.settled again allocated (fun _ _ => ⟨rfl, rfl⟩) member member
      fun _ other isOther _ _ => isOther
  rw [rerun.topology, same, compiledTopology, (map_congr_left unchanged).trans (map_id _)]

end

/-- Compiling its own output: a second compile succeeds and assigns the same values exactly when the pair of
every link lies in the pool of each of its edges and no pool hands out an address that another link has. -/
theorem recompile_fixpoint_iff (compiled : compileAt env settings keys input = .ok result)
    (noReservation : settings.reserved = {}) :
    (∃ result', compileAt env settings keys result.topology = .ok result' ∧
      assignedValues result'.topology = assignedValues result.topology) ↔ Reaccepted input.withDefaults := by
  obtain ⟨nodes, allocations, run⟩ := compileAt_ok compiled
  have allocated := run.allocated
  rw [noReservation] at allocated
  have condition : Accepted env result.topology ↔ Reaccepted input.withDefaults := by
    rw [run.topology, compiled_accepted_iff run.midAccepted allocated, ← reaccepted_bare,
      allocatedTopology_bare run.allAddressed, reaccepted_bare]
  rw [← condition]
  constructor
  · rintro ⟨result', recompiled, -⟩
    obtain ⟨nodes', allocations', rerun⟩ := compileAt_ok recompiled
    rw [← result_withDefaults run]
    exact rerun.accepted
  · intro again
    obtain ⟨result', recompiled, same⟩ := recompile_same run again
    exact ⟨result', recompiled, by rw [same]⟩

end

theorem samplePair_reaccepted : ∃ result, sampleCompile samplePair = .ok result ∧
    Reaccepted samplePair.withDefaults := by
  obtain ⟨result, compiled, isResult⟩ := samplePair_compiles
  obtain ⟨result', recompiled, isResult'⟩ : ∃ result',
      sampleCompile samplePairCompiled = .ok result' ∧
        result'.topology = samplePairCompiled := ok_of_view (by decide +kernel)
  refine ⟨result, compiled, (recompile_fixpoint_iff compiled rfl).mp ⟨result', ?_, ?_⟩⟩
  · rw [isResult]
    exact recompiled
  · rw [isResult, isResult']

/-- Two routers of two domains with a link in both directions: the link takes its pair from the pool of the
first, the reverse edge is checked against the pool of the second. -/
def sampleCrossDomain : Topology where
  project := { id := "p", name := "p" }
  domains := [{ id := "d1", name := "d1", cidr := "10.11.0.0/24", transitCIDR := "10.20.0.0/24" },
    { id := "d2", name := "d2", cidr := "10.12.0.0/24", transitCIDR := "10.30.0.0/24" }]
  nodes := [sampleRouter "a" "d1", sampleRouter "b" "d2"]
  edges := [sampleEdge "e1" "a" "b", sampleEdge "e2" "b" "a"]

theorem recompile_fails_crossDomain : ∃ result, sampleCompile sampleCrossDomain = .ok result ∧
    ¬ ∃ result', sampleCompile result.topology = .ok result' ∧
      assignedValues result'.topology = assignedValues result.topology := by
  obtain ⟨result, compiled, fails⟩ : ∃ result, sampleCompile sampleCrossDomain = .ok result ∧
      (sampleCompile result.topology).toOption.isSome = false := exists_ok_and (by decide +kernel)
  refine ⟨result, compiled, ?_⟩
  rintro ⟨result', recompiled, -⟩
  rw [recompiled] at fails
  cases fails

end Yaog.Compiler
