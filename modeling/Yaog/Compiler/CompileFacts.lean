import Yaog.Allocator.OverlayFacts
import Yaog.Compiler.Compile
import Yaog.Compiler.GapFill
import Yaog.Validator.Design
import Yaog.Validator.LinkKeys
import Yaog.Validator.PinFacts

/-!
# What a successful compile has done
-/

namespace Yaog.Compiler

open Allocator Net Validator List

def compiledTopology (compiled : Topology) (allocations : Allocations) : Topology :=
  { compiled with edges := compiled.edges.map (writeBack compiled allocations) }

/-- The intermediate results of a successful compile of an accepted topology. -/
structure Compiles (env : Externals) (settings : Settings) (keys : Keys) (topo : Topology) (nodes : List Node)
    (allocations : Allocations) (result : CompileResult) : Prop where
  accepted : Accepted env topo
  addressed : allocateIPs topo = .ok nodes
  allocated : preallocateLinkResources (groupLinks (allocatedTopology topo nodes)) settings.reserved =
    .ok allocations
  derived : buildPeerInfo env settings.mimicFallbackDefault keys (allocatedTopology topo nodes) allocations
    (allocatedTopology topo nodes).firstEdges = some result.peers
  topology : result.topology = compiledTopology (allocatedTopology topo nodes) allocations
  clientConfigs : result.clientConfigs =
    deriveClientConfigs settings.mimicFallbackDefault keys (allocatedTopology topo nodes) allocations

variable {env : Externals} {settings : Settings} {keys : Keys} {input topo : Topology} {nodes : List Node}
  {allocations : Allocations} {result : CompileResult}

theorem compileAt_ok (compiled : compileAt env settings keys input = .ok result) :
    ∃ nodes allocations, Compiles env settings keys input.withDefaults nodes allocations result := by
  simp only [compileAt] at compiled
  split at compiled
  case isTrue => cases compiled
  case isFalse schema =>
    split at compiled
    case isTrue => cases compiled
    case isFalse semantic =>
      rw [derive] at compiled
      split at compiled
      case h_1 => cases compiled
      case h_2 nodes addressed =>
        simp only at compiled
        split at compiled
        case h_1 => cases compiled
        case h_2 allocations allocated =>
          split at compiled
          case h_1 => cases compiled
          case h_2 peers derived =>
            cases compiled
            refine ⟨nodes, allocations, ⟨accepted_iff.mp ⟨?_, ?_⟩, addressed, allocated, derived, rfl, rfl⟩⟩
            · simpa using schema
            · simpa using semantic

theorem compileAt_of_steps {peers : Peers} (accepted : Accepted env input.withDefaults)
    (addressed : allocateIPs input.withDefaults = .ok nodes)
    (allocated : preallocateLinkResources (groupLinks (allocatedTopology input.withDefaults nodes))
      settings.reserved = .ok allocations)
    (derived : buildPeerInfo env settings.mimicFallbackDefault keys (allocatedTopology input.withDefaults nodes)
      allocations (allocatedTopology input.withDefaults nodes).firstEdges = some peers) :
    ∃ result, compileAt env settings keys input = .ok result ∧
      Compiles env settings keys input.withDefaults nodes allocations result := by
  obtain ⟨schema, semantic⟩ := accepted_iff.mpr accepted
  simp only [compileAt, schema, semantic, derive, addressed, allocated, derived, Bool.not_true,
    Bool.false_eq_true, if_false]
  exact ⟨_, rfl, ⟨accepted, addressed, allocated, derived, rfl, rfl⟩⟩

theorem withInferredCapabilities_idem (node : Node) :
    withInferredCapabilities (withInferredCapabilities node) = withInferredCapabilities node := by
  have same : inferCapabilitiesFromRole (withInferredCapabilities node) = inferCapabilitiesFromRole node := by
    by_cases listed : node.publicEndpoints = [] <;> cases role : node.role <;>
      simp [inferCapabilitiesFromRole, withInferredCapabilities, listed, role]
  rw [withInferredCapabilities, same]
  rfl

private theorem addressed_design {before after : List Node} (addressed : List.Forall₂ (Addressed topo) before after) :
    after.map Node.design = before.map Node.design := by
  induction addressed with
  | nil => rfl
  | cons step _ ih =>
    rw [map_cons, map_cons, ih, step.same]
    rfl

theorem allocatedTopology_bare (all : AllAddressed topo nodes) :
    (allocatedTopology topo nodes).bare = topo.bare := by
  have same : (nodes.map withInferredCapabilities).map Node.design = topo.nodes.map Node.design := by
    rw [map_map, ← addressed_design all.addressed]
    rfl
  simp only [Topology.bare, allocatedTopology, same]

theorem allocatedTopology_design (all : AllAddressed topo nodes) :
    (allocatedTopology topo nodes).design = topo.design := by
  have bare := allocatedTopology_bare all
  have same := congrArg Topology.nodes bare
  simp only [Topology.bare] at same
  simp only [Topology.design, same]
  rfl

theorem allocated_node? (accepted : Accepted env topo) (all : AllAddressed topo nodes) {id : String} {node : Node}
    (found : (allocatedTopology topo nodes).node? id = some node) :
    ∃ before, topo.node? id = some before ∧
      node = { before with overlayIP := node.overlayIP, capabilities := inferCapabilitiesFromRole before } ∧
      (before.overlayIP ≠ "" → node.overlayIP = before.overlayIP) := by
  obtain ⟨member, rfl⟩ := Topology.node?_mem found
  obtain ⟨after, wasAfter, rfl⟩ := mem_map.mp member
  obtain ⟨before, wasMember, step⟩ := forall₂_origin all.addressed wasAfter
  have sameID : (withInferredCapabilities after).id = before.id := by rw [step.same]; rfl
  refine ⟨before, sameID ▸ accepted.node?_eq wasMember, ?_, step.kept⟩
  rw [step.same]
  rfl

private theorem dialed_mono {before after : Node}
    (same : after = { before with overlayIP := after.overlayIP, capabilities := inferCapabilitiesFromRole before })
    (notClient : before.isClient = false) :
    (before.capabilities.hasPublicIP = true → after.capabilities.hasPublicIP = true) ∧
      (canBeDialed before = true → canBeDialed after = true) := by
  have notClient' : before.role ≠ .client := by simpa [Node.isClient] using notClient
  have inferred : after.capabilities = inferCapabilitiesFromRole before := by rw [same]
  have role : after.role = before.role := by rw [same]
  simp only [canBeDialed, inferred, role, inferCapabilitiesFromRole]
  clear same inferred role
  split <;> simp_all <;> tauto

theorem allocatedTopology_accepted (accepted : Accepted env topo) (all : AllAddressed topo nodes) :
    Accepted env (allocatedTopology topo nodes) := by
  have bare := allocatedTopology_bare all
  have insideOf : ∀ node ∈ (allocatedTopology topo nodes).nodes, ∀ domain, topo.domain? node.domainID = some domain →
      ∃ net ip, parseCIDR domain.cidr = some net ∧ parseIP node.overlayIP = some ip ∧ net.contains ip = true := by
    intro node member domain isDomain
    obtain ⟨after, wasAfter, rfl⟩ := mem_map.mp member
    exact all.inside after wasAfter domain isDomain
  refine accepted.of_design (allocatedTopology_design all) (le_refl _) ?overlay ?addresses ?reachable ?pins
  case pins =>
    rw [← validateAllocationPins_bare, bare, validateAllocationPins_bare]
    exact accepted.pins
  case overlay =>
    intro node member _
    obtain ⟨after, wasAfter, rfl⟩ := mem_map.mp member
    obtain ⟨before, wasMember, step⟩ := forall₂_origin all.addressed wasAfter
    obtain ⟨domain, isDomain, -⟩ := accepted.node_domain wasMember
    have sameDomain : after.domainID = before.domainID := by rw [step.same]
    obtain ⟨net, ip, -, isIP, -⟩ := all.inside after wasAfter domain (sameDomain ▸ isDomain)
    exact Option.isSome_iff_exists.mpr ⟨ip, isIP⟩
  case addresses =>
    refine isValid_validateIPSemantics_of ?_ ?_
    · intro node member domain isDomain net ip parsed isIP
      obtain ⟨net', ip', parsed', isIP', inside⟩ := insideOf node member domain isDomain
      rw [parsed'] at parsed
      rw [isIP'] at isIP
      cases parsed
      cases isIP
      exact inside
    · rw [allocatedTopology, map_map]
      exact all.distinct
  case reachable =>
    intro link member
    obtain ⟨inEdges, enabled, isFrom, isTo⟩ := mem_resolvedEdges.mp member
    obtain ⟨fromBefore, wasFrom, fromSame, -⟩ := allocated_node? accepted all isFrom
    obtain ⟨toBefore, wasTo, toSame, -⟩ := allocated_node? accepted all isTo
    have fromID : link.fromNode.id = fromBefore.id := by rw [fromSame]
    have toID : link.toNode.id = toBefore.id := by rw [toSame]
    have before : { link with fromNode := fromBefore, toNode := toBefore } ∈ topo.resolvedEdges :=
      mem_resolvedEdges.mpr ⟨inEdges, enabled, wasFrom, wasTo⟩
    have alive := isValid_validateNATReachability.mp accepted.reachability _ before
    -- a client end has an endpoint host; other ends only gain reachability
    cases client : fromBefore.isClient with
    | true =>
      have host := accepted.client_endpointHost before client
      simp [deadLink, host]
    | false =>
      obtain ⟨fromPublic, fromDialed⟩ := dialed_mono fromSame client
      obtain ⟨toPublic, toDialed⟩ := dialed_mono toSame (accepted.toNode_not_client before)
      have endpoints : ∀ fromID toID, hasEnabledEndpointEdge (allocatedTopology topo nodes) fromID toID =
          hasEnabledEndpointEdge topo fromID toID := fun _ _ => rfl
      simp only [deadLink, Bool.and_eq_false_iff, Bool.not_eq_false', endpoints, fromID, toID] at alive ⊢
      grind

end Yaog.Compiler
