import Yaog.Controller.CrashAtomicity
import Yaog.Controller.DeployMoves
import Yaog.Controller.Reservations
import Yaog.Controller.TelemetryPolicy

/-!
# What a stage writes into the stored design

The only write of a stage to the stored design is the one that copies the allocations back, and what it
writes is the healed design with the allocations of the compiled part.
-/

namespace Yaog

open List

def Node.withoutAllocation (node : Node) : Node := { node with overlayIP := "" }

def Topology.withoutAllocations (topo : Topology) : Topology :=
  { topo with
    nodes := topo.nodes.map Node.withoutAllocation, edges := topo.edges.map Edge.design, allocSchemaVersion := 0 }

namespace Controller

open Compiler Data Normalize Durable

section

variable {crypto : Crypto} {env : StageEnv} {config : StageConfig} {store : Store} {stored : Topology}

/-- What a stage may leave of the design it read: the design as it was, or the healed design with the
allocations of a compile. -/
def StoredBy (env : StageEnv) (registry : List RegistryNode) (stored : Topology) (after : Store) : Prop :=
  after.topology = some stored ∨ ∃ deployment subgraph skipped result,
    env.deployment (env.heal stored) registry = .ok deployment ∧
    projectEnrolledSubgraph deployment registry = .ok (subgraph, skipped) ∧
    compileSubgraph env.externals env.mimicFallbackDefault (env.keys subgraph) deployment subgraph = .ok result ∧
    after.topology = some (persistAllocations (env.heal stored) result.topology)

theorem compileAndStage_stores (held : store.topology = some stored) :
    Ensures store (compileAndStage crypto env config) (StoredBy env (store.nodes.toList.map (·.2)) stored)
      fun _ => StoredBy env (store.nodes.toList.map (·.2)) stored := by
  have kept {after : Store} (reconciled : Reconciled store after) :
      after.topology = some stored ∧ after.nodes = store.nodes := by
    obtain ⟨pending, audit, rfl⟩ := reconciled
    exact ⟨held, rfl⟩
  have left {after : Store} (path : Prepared crypto (Reconciled store)
      (fun topology => StoredBy env (store.nodes.toList.map (·.2)) stored { topology }) after) :
      StoredBy env (store.nodes.toList.map (·.2)) stored after := by
    obtain ⟨between, reconciled, path⟩ := path
    rcases path.topology with same | written
    · exact .inl (same.trans (kept reconciled).1)
    · exact written
  refine (compileAndStage_prepares reconcile_frames ?_).mono (fun _ => left) fun _ _ => left
  intro between found deployment subgraph skipped result reconciled here prepared projected compiled
  obtain ⟨same, sameNodes⟩ := kept reconciled
  obtain rfl := Option.some.inj (here.symm.trans same)
  rw [sameNodes] at prepared projected
  exact .inr ⟨deployment, subgraph, skipped, result, prepared, projected, compiled, rfl⟩

end

theorem withoutPins_withoutAllocations (topo : Topology) :
    topo.withoutPins.withoutAllocations = topo.withoutAllocations := by
  simp only [Topology.withoutAllocations, Topology.withoutPins, map_map]
  rfl

theorem healed_withoutAllocations (topo : Topology) : (healed topo).withoutAllocations = topo.withoutAllocations := by
  rw [← withoutPins_withoutAllocations, healed_withoutPins, withoutPins_withoutAllocations]

theorem persistAllocations_withoutAllocations (full compiled : Topology) :
    (persistAllocations full compiled).withoutAllocations = full.withoutAllocations := by
  have node (node : Node) : (persistNode compiled node).withoutAllocation = node.withoutAllocation := by
    rw [persistNode]
    split
    · split <;> rfl
    · rfl
  simp only [Topology.withoutAllocations, persistAllocations, map_map, Function.comp_def, node, persistEdge_design]

section

variable {env : Externals} {capabilities : String → Option (List String)} {mode : PolicyDeployMode}
  {stored copy : Topology} {registry : List RegistryNode} {omitted : List String}
  (prepared : prepareTelemetryPolicyDeployment env capabilities mode (healed stored) registry = .ok (copy, omitted))

include prepared

theorem copy_readyIDs : readyIDs copy registry = readyIDs stored registry := by
  obtain ⟨domains, change, keeps, rfl⟩ := prepare_copies prepared
  rw [keeps.readyIDs, ← readyIDs_withoutPins, healed_withoutPins, readyIDs_withoutPins]

theorem copy_edgeIDs :
    (enrolledSubgraph copy registry).1.edges.map (·.id) = (enrolledSubgraph stored registry).1.edges.map (·.id) := by
  have ids (topo : Topology) : topo.edges.map (·.id) = topo.withoutPins.edges.map (·.id) := by
    rw [Topology.withoutPins, map_map]
    rfl
  have edges : (enrolledSubgraph copy registry).1.edges = (enrolledSubgraph (healed stored) registry).1.edges := by
    obtain ⟨domains, change, keeps, rfl⟩ := prepare_copies prepared
    simp only [enrolledSubgraph, keeps.readyIDs]
  have healing := enrolledSubgraph_withoutPins (healed stored) registry
  rw [healed_withoutPins, enrolledSubgraph_withoutPins] at healing
  rw [edges, ids, ← (Prod.mk.inj healing).1, ← ids]

end

theorem deploying_eq_ok {env : StageEnv} {capabilities : String → Option (List String)} {mode : PolicyDeployMode}
    {topo copy : Topology} {registry : List RegistryNode}
    (prepared : (env.deploying capabilities mode).deployment topo registry = .ok copy) : ∃ omitted,
      prepareTelemetryPolicyDeployment env.externals capabilities mode topo registry = .ok (copy, omitted) := by
  obtain ⟨decided, good, rfl⟩ := map_eq_ok prepared
  exact ⟨decided.2, mapError_eq_ok good⟩

def Store.compiledPart (store : Store) (stored : Topology) : Topology :=
  (enrolledSubgraph stored (store.nodes.toList.map (·.2))).1

/-- However a stage ends, the stored design has changed at most in fields that hold allocations. Nodes outside
the compiled part are as they were, and an edge that shares its identifier with no compiled edge is as the
heal left it. -/
theorem stage_stores_only_allocations (crypto : Crypto) (env : StageEnv) (capabilities : String → Option (List String))
    (mode : PolicyDeployMode) (config : StageConfig) (store : Store) (plan : List Fault) (stored : Topology)
    (held : store.topology = some stored) :
    ∃ next, ((compileAndStage crypto (env.deploying capabilities mode) config).left store plan).topology = some next ∧
      next.withoutAllocations = stored.withoutAllocations ∧
      (∀ (i : Nat) (node : Node), stored.nodes[i]? = some node → node.id ∉ (store.compiledPart stored).nodes.map (·.id) →
        next.nodes[i]? = some node) ∧
      (next = stored ∨ ∀ (i : Nat) (edge : Edge), stored.edges[i]? = some edge →
        edge.id ∉ (store.compiledPart stored).edges.map (·.id) → next.edges[i]? = (healed stored).edges[i]?) := by
  have ended : StoredBy (env.deploying capabilities mode) (store.nodes.toList.map (·.2)) stored
      ((compileAndStage crypto (env.deploying capabilities mode) config).left store plan) :=
    (compileAndStage_stores held).left plan
  rcases ended with unchanged | ⟨deployment, subgraph, skipped, result, prepared, projected, compiled, written⟩
  · exact ⟨stored, unchanged, rfl, fun _ _ found _ => found, .inl rfl⟩
  · obtain ⟨omitted, prepared⟩ := deploying_eq_ok prepared
    have part : (enrolledSubgraph deployment (store.nodes.toList.map (·.2))).1 = subgraph :=
      projected_subgraph projected
    subst part
    obtain ⟨nodes, allocations, run⟩ := compileAt_ok compiled
    refine ⟨_, written, ?_, ?_, .inr ?_⟩
    · exact (persistAllocations_withoutAllocations _ _).trans (healed_withoutAllocations stored)
    · intro i node found outside
      have excluded : node.id ∉ readyIDs deployment (store.nodes.toList.map (·.2)) := by
        rw [copy_readyIDs prepared]
        exact fun ready => outside (mem_subgraph_ids.mpr ⟨mem_map_of_mem (mem_of_getElem? found), ready⟩)
      have same : (persistAllocations (healed stored) result.topology).nodes[i]? =
          stored.nodes[i]?.map (persistNode result.topology) := getElem?_map
      rw [found] at same
      exact same.trans (congrArg some (persisted_excluded run excluded))
    · intro i edge found outside
      have same : (persistAllocations (healed stored) result.topology).edges[i]? =
          (healed stored).edges[i]?.map (persistEdge result.topology) := getElem?_map
      refine same.trans ?_
      rw [healed_getElem?, found, Option.map_some, Option.map_some]
      refine congrArg some (persisted_outside run ?_)
      rw [copy_edgeIDs prepared]
      split <;> exact outside

/-- Two links that carry one pair of link-local addresses; the node `a` asks for device telemetry. -/
def samplePinnedTwice : Topology where
  project := { id := "p", name := "p" }
  domains := [{ id := "d1", name := "d1", cidr := "10.11.0.0/24" }]
  nodes := [{ sampleRouter "a" "d1" with telemetryDevices := some { mode := "all-eligible-v1" } },
    sampleRouter "b" "d1", sampleRouter "c" "d1", sampleRouter "d" "d1"]
  edges := [{ sampleEdge "e1" "a" "b" with pinnedFromLinkLocal := "fe80::1", pinnedToLinkLocal := "fe80::2" },
    { sampleEdge "e2" "c" "d" with pinnedFromLinkLocal := "fe80::1", pinnedToLinkLocal := "fe80::2" }]

/-- Only the ends of the first link have enrolled. -/
def sampleFleet : Store where
  nodes := ((∅ : Records RegistryNode).insert "a"
    { nodeID := "a", wgPublicKey := "AAAAAAAAAAAAAAAAAAAAAAAAAAAAAAAAAAAAAAAAAAA=", status := .approved }).insert "b"
    { nodeID := "b", wgPublicKey := "BAAAAAAAAAAAAAAAAAAAAAAAAAAAAAAAAAAAAAAAAAA=", status := .approved }
  topology := some samplePinnedTwice

def sampleStaging (checksums : String) : StageEnv where
  externals := sampleEnv
  keys := fun _ _ => none
  heal := id
  deployment := fun topology _ => .ok topology
  signer := .ok none
  probes := fun _ => false
  bundleFiles := fun _ _ => .ok ((∅ : Records String).insert "checksums.sha256" checksums)

abbrev sampleFleetStage : Durable Store DeployError StageResult :=
  compileAndStage sampleCrypto ((sampleStaging "one").deploying (fun _ => none) .upgradeAgentsFirst) {}

/-- The policy of `a` is held back from the compile and stays in the stored design. -/
theorem sampleFleet_allocates : ∃ next, (sampleFleetStage.left sampleFleet []).topology = some next ∧
    next ≠ samplePinnedTwice ∧ next.withoutAllocations = samplePinnedTwice.withoutAllocations := by
  obtain ⟨next, isNext, same, -⟩ := stage_stores_only_allocations sampleCrypto (sampleStaging "one") (fun _ => none)
    .upgradeAgentsFirst {} sampleFleet [] samplePinnedTwice rfl
  have evaluated : (sampleFleetStage.left sampleFleet []).topology ≠ some samplePinnedTwice := by decide +kernel
  exact ⟨next, isNext, fun unchanged => evaluated (isNext.trans (congrArg some unchanged)), same⟩

/-- The second link is not compiled, and the stored design loses its pins. -/
theorem sampleFleet_strips_excluded : ∃ result next before after,
    (sampleFleetStage sampleFleet []).outcome = .done result ∧
    (sampleFleetStage.left sampleFleet []).topology = some next ∧
    samplePinnedTwice.edges[1]? = some before ∧ before.id ∉ (sampleFleet.compiledPart samplePinnedTwice).edges.map (·.id) ∧
    next.edges[1]? = some after ∧ before.pinnedFromLinkLocal = "fe80::1" ∧ after.pinnedFromLinkLocal = "" := by
  have done : (sampleFleetStage sampleFleet []).outcome.value?.isSome = true := by decide +kernel
  have evaluated : ((sampleFleetStage.left sampleFleet []).topology.bind fun next =>
      next.edges[1]?.map (·.pinnedFromLinkLocal)) = some "" := by
    decide +kernel
  obtain ⟨result, ended⟩ := Option.isSome_iff_exists.mp done
  obtain ⟨next, isNext, edge⟩ := Option.bind_eq_some_iff.mp evaluated
  obtain ⟨after, isAfter, cleared⟩ := Option.map_eq_some_iff.mp edge
  exact ⟨result, next, _, after, Outcome.eq_done ended, isNext, rfl, by decide +kernel, isAfter, rfl, cleared⟩

end Controller

end Yaog
