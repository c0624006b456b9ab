import Yaog.Compiler.Stability
import Yaog.Controller.Subgraph

/-!
# Overlay addresses over incremental stages

A stage sees the addresses of the nodes it compiles. It keeps the stored design free of repeated
addresses exactly when what it hands out is not carried by a node that was left out.
-/

namespace Yaog.Controller

open Allocator Compiler Net Validator List

def overlayHosts (cidr : String) (reservedRanges : List String) : List String :=
  match parseCIDR cidr with
  | none => []
  | some net =>
    match net.ip.to4 with
    | none => []
    | some network =>
      ((List.range' (firstHost net) (endHost net - firstHost net)).map (hostText network)).filter
        (notReserved reservedRanges)

def overlayRequests (topo : Topology) (nodes : List Node) : List (List String) :=
  (nodes.filter fun node => node.overlayIP = "").map fun node =>
    ((topo.domain? node.domainID).map fun domain => overlayHosts domain.cidr domain.reservedRanges).getD []

/-- Requests served in turn, each by its first candidate not yet in use, never take a value of `held`. -/
def FirstFitAvoids (held : List String) : List String → List (List String) → Prop
  | _, [] => True
  | used, candidates :: rest =>
    match candidates.find? (· ∉ used) with
    | none => True
    | some pick => pick ∉ held ∧ FirstFitAvoids held (pick :: used) rest

instance FirstFitAvoids.decidable (held : List String) : ∀ used requests, Decidable (FirstFitAvoids held used requests)
  | _, [] => .isTrue trivial
  | used, candidates :: rest =>
    show Decidable (match candidates.find? (· ∉ used) with
      | none => True
      | some pick => pick ∉ held ∧ FirstFitAvoids held (pick :: used) rest) from
    match candidates.find? (· ∉ used) with
    | none => .isTrue trivial
    | some pick => @instDecidableAnd _ _ _ (FirstFitAvoids.decidable held (pick :: used) rest)

theorem firstFitAvoids_of_apart {held used : List String} {requests : List (List String)}
    (apart : ∀ candidates ∈ requests, ∀ value ∈ candidates, value ∉ held) : FirstFitAvoids held used requests := by
  induction requests generalizing used with
  | nil => trivial
  | cons candidates rest ih =>
    rw [forall_mem_cons] at apart
    unfold FirstFitAvoids
    split
    · trivial
    · next pick found => exact ⟨apart.1 pick (mem_of_find?_eq_some found), ih apart.2⟩

theorem allocateFromCIDR_find {cidr text : String} {reservedRanges usedIPs : List String}
    (allocated : allocateFromCIDR cidr reservedRanges usedIPs = .ok text) :
    (overlayHosts cidr reservedRanges).find? (· ∉ usedIPs) = some text := by
  rw [allocateFromCIDR] at allocated
  rw [overlayHosts]
  cases parsed : parseCIDR cidr with
  | none => simp [parsed] at allocated
  | some net =>
    simp only [parsed] at allocated ⊢
    split_ifs at allocated
    cases isNetwork : net.ip.to4 with
    | none => simp [isNetwork] at allocated
    | some network =>
      simp only [isNetwork] at allocated ⊢
      split at allocated
      case h_2 => cases allocated
      case h_1 host found =>
        cases allocated
        rw [find?_filter, find?_map]
        have same : (fun text => decide (notReserved reservedRanges text = true ∧
            decide (text ∉ usedIPs) = true)) ∘ hostText network =
            fun host => hostText network host ∉ usedIPs && notReserved reservedRanges (hostText network host) := by
          funext host
          rw [Function.comp_apply, Bool.decide_and, Bool.decide_eq_true, Bool.decide_eq_true, Bool.and_comm]
        rw [same, found, Option.map_some]

variable {env : Externals} {topo : Topology} {registry : List RegistryNode} {skipped : List String}

theorem assigns_avoids (held : List String) {usedIPs : List String} {nodes after : List Node}
    (assigns : Assigns topo usedIPs nodes after) :
    FirstFitAvoids held usedIPs (overlayRequests topo nodes) ↔
      ∀ pair ∈ nodes.zip after, pair.1.overlayIP = "" → pair.2.overlayIP ∉ held := by
  induction assigns with
  | nil => simp [overlayRequests, FirstFitAvoids]
  | @keep _ node rest _ carries _ ih =>
    have requests : overlayRequests topo (node :: rest) = overlayRequests topo rest := by
      simp [overlayRequests, carries]
    rw [requests, ih, zip_cons_cons, forall_mem_cons]
    simp [carries]
  | @pick _ node rest _ domain _ blank isDomain allocated _ ih =>
    have requests : overlayRequests topo (node :: rest) =
        overlayHosts domain.cidr domain.reservedRanges :: overlayRequests topo rest := by
      simp [overlayRequests, blank, isDomain]
    rw [requests, FirstFitAvoids]
    simp only [allocateFromCIDR_find allocated]
    rw [ih, zip_cons_cons, forall_mem_cons]
    simp [blank]

def excludedIPs (full : Topology) (registry : List RegistryNode) : List String :=
  carriedIPs (full.nodes.filter fun node => node.id ∉ readyIDs full registry)

/-- The stage hands no node an address that a node left out carries: among the ready nodes, each one without an
address takes the lowest host of its domain that is neither reserved nor carried by a ready node nor taken before. -/
def StageAvoidsExcluded (full : Topology) (registry : List RegistryNode) : Prop :=
  let ready := (enrolledSubgraph full registry).1
  FirstFitAvoids (excludedIPs full registry) (carriedIPs ready.nodes) (overlayRequests ready ready.nodes)

theorem carriedIPs_append (first second : List Node) :
    carriedIPs (first ++ second) = carriedIPs first ++ carriedIPs second := by
  rw [carriedIPs, map_append, filter_append, carriedIPs, carriedIPs]

theorem carriedIPs_perm {first second : List Node} (same : first.Perm second) :
    (carriedIPs first).Perm (carriedIPs second) :=
  (same.map _).filter _

theorem carriedIPs_split (keep : Node → Bool) (nodes : List Node) :
    (carriedIPs (nodes.filter keep) ++ carriedIPs (nodes.filter fun node => !keep node)).Perm (carriedIPs nodes) := by
  rw [← carriedIPs_append]
  exact carriedIPs_perm (filter_append_perm keep nodes)

theorem carriedIPs_of_carry {nodes : List Node} (carry : ∀ node ∈ nodes, node.overlayIP ≠ "") :
    carriedIPs nodes = nodes.map (·.overlayIP) := by
  rw [carriedIPs, filter_eq_self]
  intro text member
  obtain ⟨node, isNode, rfl⟩ := mem_map.mp member
  exact decide_eq_true (carry node isNode)

section

variable {full : Topology} {registry : List RegistryNode} {settings : Settings} {keys : Keys} {nodes : List Node}
  {allocations : Allocations} {result : CompileResult}

theorem ready_addressed
    (run : Compiles env settings keys (enrolledSubgraph full registry).1.withDefaults nodes allocations result) :
    List.Forall₂ (Addressed (enrolledSubgraph full registry).1.withDefaults)
      (enrolledSubgraph full registry).1.nodes nodes := by
  have addressed := run.allAddressed.addressed
  rwa [larger_nodes run] at addressed

theorem compiled_node? (run : Compiles env settings keys topo nodes allocations result) {after : Node}
    (member : after ∈ nodes) : result.topology.node? after.id = some (withInferredCapabilities after) := by
  rw [run.result_node?]
  exact run.midAccepted.node?_eq (mem_map_of_mem member)

private theorem map_eq_of_forall₂ {α β γ : Type} {related : α → β → Prop} {first : α → γ} {second : β → γ}
    {before : List α} {after : List β} (pairs : List.Forall₂ related before after)
    (same : ∀ left, ∀ right ∈ after, related left right → first left = second right) :
    before.map first = after.map second := by
  induction pairs with
  | nil => rfl
  | cons step _ ih =>
    rw [map_cons, map_cons, same _ _ mem_cons_self step,
      ih fun left right member => same left right (mem_cons_of_mem _ member)]

section

variable (run : Compiles env settings keys (enrolledSubgraph full registry).1.withDefaults nodes allocations result)

include run

theorem persisted_ready :
    ((full.nodes.filter fun node => node.id ∈ readyIDs full registry).map (persistNode result.topology)).map
      (·.overlayIP) = nodes.map (·.overlayIP) := by
  have addressed := ready_addressed run
  rw [enrolledSubgraph, List.forall₂_map_left_iff] at addressed
  rw [map_map]
  apply map_eq_of_forall₂ addressed
  intro node after member step
  have sameID : after.id = node.id := by rw [step.same]; rfl
  have carries := run.allAddressed.carries run.accepted after member
  have found := compiled_node? run member
  rw [sameID] at found
  have blank : (withInferredCapabilities after).overlayIP ≠ "" := carries
  simp only [Function.comp_apply, persistNode, found, if_pos blank]
  rfl

theorem persisted_excluded {node : Node} (excluded : node.id ∉ readyIDs full registry) :
    persistNode result.topology node = node := by
  rw [persistNode]
  cases found : result.topology.node? node.id with
  | none => rfl
  | some done =>
    obtain ⟨member, isNode⟩ := Topology.node?_mem found
    rw [run.result_nodes] at member
    obtain ⟨after, isAfter, rfl⟩ := mem_map.mp member
    obtain ⟨before, wasBefore, step⟩ := forall₂_origin (ready_addressed run) isAfter
    obtain ⟨source, isSource, rfl⟩ := mem_map.mp wasBefore
    have sameID : after.id = source.id := by rw [step.same]; rfl
    have ready := (mem_filter.mp isSource).2
    rw [← sameID] at ready
    exact absurd (isNode ▸ of_decide_eq_true ready) excluded

theorem persisted_nodup_iff (distinct : (carriedIPs full.nodes).Nodup) :
    (carriedIPs (persistAllocations full result.topology).nodes).Nodup ↔
      ∀ node ∈ nodes, node.overlayIP ∉ excludedIPs full registry := by
  let isReady : Node → Bool := fun node => node.id ∈ readyIDs full registry
  have readyPart : carriedIPs ((full.nodes.filter isReady).map (persistNode result.topology)) =
      nodes.map (·.overlayIP) := by
    have texts := persisted_ready run
    rw [← texts]
    apply carriedIPs_of_carry
    intro node member
    have inTexts : node.overlayIP ∈ nodes.map (·.overlayIP) := texts ▸ mem_map_of_mem member
    obtain ⟨after, isAfter, same⟩ := mem_map.mp inTexts
    rw [← same]
    exact run.allAddressed.carries run.accepted after isAfter
  have excludedNodes : (full.nodes.filter fun node => !isReady node) =
      full.nodes.filter fun node => node.id ∉ readyIDs full registry := by simp [isReady]
  have excludedPart : carriedIPs ((full.nodes.filter fun node => !isReady node).map (persistNode result.topology)) =
      excludedIPs full registry := by
    have kept : (full.nodes.filter fun node => !isReady node).map (persistNode result.topology) =
        full.nodes.filter fun node => !isReady node := by
      conv_rhs => rw [← map_id (full.nodes.filter fun node => !isReady node)]
      apply map_congr_left
      intro node member
      exact persisted_excluded run (by simpa [isReady] using (mem_filter.mp member).2)
    rw [kept, excludedNodes, excludedIPs]
  have split : (nodes.map (·.overlayIP) ++ excludedIPs full registry).Perm
      (carriedIPs (persistAllocations full result.topology).nodes) := by
    rw [← readyPart, ← excludedPart, ← carriedIPs_append, ← map_append]
    exact carriedIPs_perm ((filter_append_perm isReady full.nodes).map _)
  have excludedDistinct : (excludedIPs full registry).Nodup := by
    have both := (carriedIPs_split isReady full.nodes).nodup_iff.mpr distinct
    rw [excludedNodes] at both
    exact both.of_append_right
  rw [← split.nodup_iff, nodup_append]
  constructor
  · rintro ⟨-, -, apart⟩ node member held
    exact apart _ (mem_map_of_mem member) _ held rfl
  · intro apart
    refine ⟨run.allAddressed.distinct, excludedDistinct, ?_⟩
    rintro text inNodes _ held rfl
    obtain ⟨node, member, rfl⟩ := mem_map.mp inNodes
    exact apart node member held

end

theorem overlayRequests_withDefaults (topo : Topology) (nodes : List Node) :
    overlayRequests topo.withDefaults nodes = overlayRequests topo nodes := by
  rw [Topology.withDefaults]
  split
  · rfl
  · apply map_congr_left
    intro node _
    simp only [Topology.domain?, ← map_reverse, find?_map, Option.map_map]
    rfl

theorem ready_excluded_apart (distinct : (carriedIPs full.nodes).Nodup) {node : Node}
    (ready : node ∈ (enrolledSubgraph full registry).1.nodes) (carries : node.overlayIP ≠ "") :
    node.overlayIP ∉ excludedIPs full registry := by
  obtain ⟨source, isSource, rfl⟩ := mem_map.mp ready
  have both := (carriedIPs_split (fun node => node.id ∈ readyIDs full registry) full.nodes).nodup_iff.mpr distinct
  have apart := (nodup_append.mp both).2.2
  intro held
  have inReady : source.overlayIP ∈ carriedIPs (full.nodes.filter fun node => node.id ∈ readyIDs full registry) :=
    mem_filter.mpr ⟨mem_map_of_mem isSource, decide_eq_true carries⟩
  have inExcluded : source.overlayIP ∈ excludedIPs full registry := held
  refine apart _ inReady _ ?_ rfl
  simpa only [excludedIPs, decide_not] using inExcluded

theorem stageAvoidsExcluded_iff (run : Compiles env settings keys (enrolledSubgraph full registry).1.withDefaults nodes
      allocations result) (distinct : (carriedIPs full.nodes).Nodup) :
    StageAvoidsExcluded full registry ↔ ∀ node ∈ nodes, node.overlayIP ∉ excludedIPs full registry := by
  have assigned := run.addressed
  rw [allocateIPs_of_accepted run.accepted, larger_nodes run] at assigned
  have walk := assigns_avoids (excludedIPs full registry) (assignFree_assigns assigned)
  rw [overlayRequests_withDefaults] at walk
  obtain ⟨lengths, steps⟩ := List.forall₂_iff_zip.mp (ready_addressed run)
  rw [StageAvoidsExcluded, walk]
  constructor
  · intro avoids node member
    have inZip : node ∈ ((enrolledSubgraph full registry).1.nodes.zip nodes).map Prod.snd := by
      rwa [map_snd_zip lengths.ge]
    obtain ⟨⟨before, after⟩, isPair, rfl⟩ := mem_map.mp inZip
    by_cases blank : before.overlayIP = ""
    · exact avoids _ isPair blank
    · -- an address the node had already is carried by a ready node of the stored design
      rw [(steps isPair).kept blank]
      exact ready_excluded_apart distinct (of_mem_zip isPair).1 blank
  · rintro apart ⟨before, after⟩ isPair -
    exact apart after (of_mem_zip isPair).2

end

theorem projected_subgraph {full subgraph : Topology}
    (projected : projectEnrolledSubgraph full registry = .ok (subgraph, skipped)) :
    (enrolledSubgraph full registry).1 = subgraph := by
  rw [projectEnrolledSubgraph] at projected
  split at projected
  case h_1 => cases projected
  case h_2 => exact congrArg Prod.fst (Except.ok.inj projected)

/-- A stage keeps the stored design free of repeated addresses exactly when no address it hands out is carried by a
node that was left out. -/
theorem stage_addresses_distinct_iff {env : Externals} {mimicFallbackDefault : MimicFallback} {keys : Keys}
    {full subgraph : Topology} {result : CompileResult}
    (projected : projectEnrolledSubgraph full registry = .ok (subgraph, skipped))
    (compiled : compileSubgraph env mimicFallbackDefault keys full subgraph = .ok result)
    (distinct : (carriedIPs full.nodes).Nodup) :
    (carriedIPs (persistAllocations full result.topology).nodes).Nodup ↔ StageAvoidsExcluded full registry := by
  obtain rfl := projected_subgraph projected
  obtain ⟨nodes, allocations, run⟩ := compileAt_ok compiled
  rw [persisted_nodup_iff run distinct, stageAvoidsExcluded_iff run distinct]

/-- In particular when no node that was left out carries a host of the domain of a node that is due an address. -/
theorem stage_addresses_distinct {env : Externals} {mimicFallbackDefault : MimicFallback} {keys : Keys}
    {full subgraph : Topology} {result : CompileResult}
    (projected : projectEnrolledSubgraph full registry = .ok (subgraph, skipped))
    (compiled : compileSubgraph env mimicFallbackDefault keys full subgraph = .ok result)
    (distinct : (carriedIPs full.nodes).Nodup)
    (apart : ∀ node ∈ subgraph.nodes, node.overlayIP = "" → ∀ domain, subgraph.domain? node.domainID = some domain →
      ∀ host ∈ overlayHosts domain.cidr domain.reservedRanges, host ∉ excludedIPs full registry) :
    (carriedIPs (persistAllocations full result.topology).nodes).Nodup := by
  obtain rfl := projected_subgraph projected
  obtain ⟨nodes, allocations, run⟩ := compileAt_ok compiled
  rw [persisted_nodup_iff run distinct, ← stageAvoidsExcluded_iff run distinct]
  apply firstFitAvoids_of_apart
  intro candidates asked host inside
  obtain ⟨node, due, rfl⟩ := mem_map.mp asked
  obtain ⟨member, blank⟩ := mem_filter.mp due
  cases found : (enrolledSubgraph full registry).1.domain? node.domainID with
  | none => simp [found] at inside
  | some domain => exact apart node member (of_decide_eq_true blank) domain found host (by simpa [found] using inside)

theorem ok_of_toOption {ε α : Type} {outcome : Except ε α} {value : α} (found : outcome.toOption = some value) :
    outcome = .ok value := by
  cases outcome with
  | error reason => cases found
  | ok other => rw [Option.some.inj found]

/-- A stored design with an address at `held`, a node that never enrolled, and the node `new`. -/
def sampleStored (held : String) : Topology where
  project := { id := "p", name := "p" }
  domains := [{ id := "d1", name := "d1", cidr := "10.11.0.0/24" }]
  nodes := [{ sampleRouter "gone" "d1" with overlayIP := held }, sampleRouter "new" "d1", sampleRouter "peer" "d1"]
  edges := [sampleEdge "e1" "new" "peer"]

def sampleRegistry : List RegistryNode :=
  [{ nodeID := "gone", wgPublicKey := "AAAAAAAAAAAAAAAAAAAAAAAAAAAAAAAAAAAAAAAAAAA=", status := .revoked },
    { nodeID := "new", wgPublicKey := "BAAAAAAAAAAAAAAAAAAAAAAAAAAAAAAAAAAAAAAAAAA=", status := .approved },
    { nodeID := "peer", wgPublicKey := "CAAAAAAAAAAAAAAAAAAAAAAAAAAAAAAAAAAAAAAAAAA=", status := .approved }]

abbrev sampleStaged (held : String) (subgraph : Topology) : Except CompileError CompileResult :=
  compileSubgraph sampleEnv .inherit (fun _ => none) (sampleStored held) subgraph

theorem sampleStored_staged {held : String} {view : CompileResult → Bool} {seen : Bool}
    (evaluated : ((projectEnrolledSubgraph (sampleStored held) sampleRegistry).toOption.bind fun projected =>
      (sampleStaged held projected.1).toOption.map view) = some seen) : ∃ subgraph skipped result,
    projectEnrolledSubgraph (sampleStored held) sampleRegistry = .ok (subgraph, skipped) ∧
      sampleStaged held subgraph = .ok result ∧ view result = seen := by
  obtain ⟨projected, isProjected, rest⟩ := Option.bind_eq_some_iff.mp evaluated
  obtain ⟨result, isResult, viewed⟩ := Option.map_eq_some_iff.mp rest
  exact ⟨projected.1, projected.2, result, ok_of_toOption isProjected, ok_of_toOption isResult, viewed⟩

theorem sampleStored_distinct : ∃ subgraph skipped result,
    projectEnrolledSubgraph (sampleStored "10.11.0.9") sampleRegistry = .ok (subgraph, skipped) ∧
    sampleStaged "10.11.0.9" subgraph = .ok result ∧
    (carriedIPs (persistAllocations (sampleStored "10.11.0.9") result.topology).nodes).Nodup := by
  have avoids : StageAvoidsExcluded (sampleStored "10.11.0.9") sampleRegistry := by
    unfold StageAvoidsExcluded
    decide +kernel
  obtain ⟨subgraph, skipped, result, projects, compiles, -⟩ :=
    @sampleStored_staged "10.11.0.9" (fun _ => true) true (by decide +kernel)
  exact ⟨subgraph, skipped, result, projects, compiles,
    (stage_addresses_distinct_iff projects compiles (by decide +kernel)).mpr avoids⟩

/-- The revoked node keeps its address in the stored design, and the stage hands it out again. -/
theorem sampleStored_repeats : ∃ subgraph skipped result,
    projectEnrolledSubgraph (sampleStored "10.11.0.1") sampleRegistry = .ok (subgraph, skipped) ∧
    sampleStaged "10.11.0.1" subgraph = .ok result ∧ (carriedIPs (sampleStored "10.11.0.1").nodes).Nodup ∧
    ¬ (carriedIPs (persistAllocations (sampleStored "10.11.0.1") result.topology).nodes).Nodup := by
  obtain ⟨subgraph, skipped, result, projects, compiles, repeats⟩ := @sampleStored_staged "10.11.0.1" (fun result =>
    decide (carriedIPs (persistAllocations (sampleStored "10.11.0.1") result.topology).nodes).Nodup) false
      (by decide +kernel)
  exact ⟨subgraph, skipped, result, projects, compiles, by decide +kernel, of_decide_eq_false repeats⟩

end Yaog.Controller
