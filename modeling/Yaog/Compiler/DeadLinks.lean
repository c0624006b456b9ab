import Yaog.Compiler.Endpoints

/-!
# Dead links

Validation refuses a direct edge between two nodes behind NAT when neither it nor any enabled edge the other way names a
host.
-/

namespace Yaog.Compiler

open Allocator Net Validator List

/-- A direct link between two nodes of which neither can be dialed. -/
@[mk_iff]
structure BehindNAT (link : ResolvedEdge) : Prop where
  fromNode : link.fromNode.isClient = false
  toNode : link.toNode.isClient = false
  direct : link.edge.type = .direct
  fromEnd : canBeDialed link.fromNode = false
  toEnd : canBeDialed link.toNode = false

instance (link : ResolvedEdge) : Decidable (BehindNAT link) := decidable_of_iff' _ (behindNAT_iff link)

def Dialed (env : Externals) (peers : Peers) (link : ResolvedEdge) : Prop :=
  ∃ peer ∈ peersOver env peers link link.fromNode.id ++ peersOver env peers link link.toNode.id, peer.endpoint ≠ ""

instance (env : Externals) (peers : Peers) (link : ResolvedEdge) : Decidable (Dialed env peers link) :=
  inferInstanceAs (Decidable (∃ peer ∈ _, _))

def NoDeadLinks (env : Externals) (result : CompileResult) : Prop :=
  ∀ link ∈ result.topology.firstEdges, BehindNAT link → Dialed env result.peers link

instance (env : Externals) (result : CompileResult) : Decidable (NoDeadLinks env result) :=
  inferInstanceAs (Decidable (∀ link ∈ _, _))

def ResolvedEdge.inferred (link : ResolvedEdge) : ResolvedEdge :=
  { link with fromNode := withInferredCapabilities link.fromNode, toNode := withInferredCapabilities link.toNode }

/-- A link behind NAT whose first edge names no host is dialed through the last primary edge the other way. -/
def ReverseHosts (topo : Topology) : Prop :=
  ∀ link ∈ topo.firstEdges, BehindNAT (ResolvedEdge.inferred link) → link.edge.endpointHost = "" →
    ∃ edge, edgeInDirection topo link.toNode.id link.fromNode.id = some edge ∧ edge.endpointHost ≠ ""

section

variable {env : Externals} {fallback : MimicFallback} {keys : Keys} {topo : Topology} {reserved : Resources}
  {allocations : Allocations} {peers : Peers} {link : ResolvedEdge}

theorem endpointText_ne_iff {target : Option DialTarget} {remotePort : Int} :
    endpointText target remotePort ≠ "" ↔ target.isSome = true := by
  cases target with
  | none => simp [endpointText]
  | some found => simp [endpointText, DialTarget.endpoint, formatEndpoint_ne]

theorem BehindNAT.reverseTarget_isSome (behind : BehindNAT link) (inferred : Inferred link.fromNode) :
    (reverseTarget topo link.edge link.fromNode).isSome = true ↔ link.edge.linkDirection ≠ .forward ∧
      ∃ edge, edgeInDirection topo link.edge.toNodeID link.edge.fromNodeID = some edge ∧ edge.endpointHost ≠ "" := by
  have hidden := behind.fromEnd
  simp only [canBeDialed, Bool.or_eq_false_iff] at hidden
  have unlisted : link.fromNode.publicEndpoints = [] := by
    by_contra listed
    simp [inferred listed] at hidden
  rw [reverseTarget]
  split
  case isTrue oneWay => simp [oneWay]
  case isFalse twoWay =>
    cases search : edgeInDirection topo link.edge.toNodeID link.edge.fromNodeID with
    | none => simp [unlisted]
    | some edge => by_cases host : edge.endpointHost = "" <;> simp [Option.filter, host, unlisted, twoWay]

theorem Derives.dialed_iff (derives : Derives env fallback keys topo reserved peers allocations)
    (member : link ∈ topo.firstEdges) (behind : BehindNAT link) (inferred : Inferred link.fromNode) :
    Dialed env peers link ↔ (link.edge.endpointHost = "" →
      ∃ edge, edgeInDirection topo link.toNode.id link.fromNode.id = some edge ∧ edge.endpointHost ≠ "") := by
  have resolved := firstEdges_resolved member
  obtain ⟨inEdges, enabled, -, -⟩ := mem_resolvedEdges.mp resolved
  obtain ⟨fromID, toID⟩ := resolved_ids resolved
  obtain ⟨alloc, given⟩ := derives.given member
  have fromPeers := derives.peersOver_from member given behind.fromNode
  have toPeers := derives.peersOver_to member given
  rw [toPeer, behind.fromNode, if_neg Bool.false_ne_true] at toPeers
  have endpoints : Dialed env peers link ↔ (forwardTarget link.edge).isSome = true ∨
      (reverseTarget topo link.edge link.fromNode).isSome = true := by
    rw [Dialed, fromPeers, toPeers, singleton_append]
    simp only [mem_pair, exists_eq_or_imp, exists_eq_left]
    rw [forwardPeer_endpoint _ _ _ _ _ behind.toNode, reversePeer_endpoint _ _ _ _ resolved inferred, endpointText_ne_iff,
      endpointText_ne_iff]
  rw [endpoints, behind.reverseTarget_isSome inferred, fromID, toID]
  by_cases host : link.edge.endpointHost = ""
  · -- validation refuses a one-way edge without a host
    have twoWay : link.edge.linkDirection ≠ .forward := fun oneWay =>
      (forward_edge derives.accepted inEdges enabled oneWay).1 host
    simp [forwardTarget, host, twoWay]
  · simp [forwardTarget, host]

end

section

variable {env : Externals} {settings : Settings} {keys : Keys} {topo input : Topology} {nodes : List Node}
  {allocations : Allocations} {result : CompileResult} {link : ResolvedEdge}

theorem allocated_firstEdges (all : AllAddressed topo nodes) :
    (allocatedTopology topo nodes).firstEdges.map ResolvedEdge.bare = topo.firstEdges.map ResolvedEdge.bare := by
  rw [← Topology.bare_firstEdges, allocatedTopology_bare all, Topology.bare_firstEdges]

theorem canBeDialed_allocated (accepted : Accepted env topo) (all : AllAddressed topo nodes) {id : String}
    {node before : Node} (found : (allocatedTopology topo nodes).node? id = some node)
    (wasNode : topo.node? id = some before) : canBeDialed node = canBeDialed (withInferredCapabilities before) := by
  obtain ⟨before', wasNode', same, -⟩ := allocated_node? accepted all found
  obtain rfl := Option.mem_unique wasNode wasNode'
  rw [same]
  rfl

theorem behindNAT_bare (accepted : Accepted env topo) (all : AllAddressed topo nodes) {before : ResolvedEdge}
    (member : link ∈ (allocatedTopology topo nodes).firstEdges) (wasLink : before ∈ topo.firstEdges)
    (same : ResolvedEdge.bare link = ResolvedEdge.bare before) :
    BehindNAT link ↔ BehindNAT (ResolvedEdge.inferred before) := by
  have edges : link.edge = before.edge := by
    have designs := congrArg ResolvedEdge.edge same
    exact designs
  obtain ⟨-, -, isFrom, isTo⟩ := mem_resolvedEdges.mp (firstEdges_resolved member)
  obtain ⟨-, -, wasFrom, wasTo⟩ := mem_resolvedEdges.mp (firstEdges_resolved wasLink)
  rw [edges] at isFrom isTo
  have fromDialed := canBeDialed_allocated accepted all isFrom wasFrom
  have toDialed := canBeDialed_allocated accepted all isTo wasTo
  have fromClient : link.fromNode.isClient = before.fromNode.isClient := by
    have designs := congrArg (fun link => link.fromNode.isClient) same
    exact designs
  have toClient : link.toNode.isClient = before.toNode.isClient := by
    have designs := congrArg (fun link => link.toNode.isClient) same
    exact designs
  constructor
  · rintro ⟨fromNode, toNode, direct, fromEnd, toEnd⟩
    exact ⟨fromClient ▸ fromNode, toClient ▸ toNode, edges ▸ direct, fromDialed ▸ fromEnd, toDialed ▸ toEnd⟩
  · rintro ⟨fromNode, toNode, direct, fromEnd, toEnd⟩
    exact ⟨fromClient.trans fromNode, toClient.trans toNode, edges ▸ direct, fromDialed.trans fromEnd,
      toDialed.trans toEnd⟩

theorem behindNAT_writtenBack :
    BehindNAT (ResolvedEdge.writtenBack topo allocations link) ↔ BehindNAT link := by
  have type : (writeBack topo allocations link.edge).type = link.edge.type := by
    have designs := congrArg Edge.type (writeBack_design topo allocations link.edge)
    exact designs
  constructor
  · rintro ⟨fromNode, toNode, direct, fromEnd, toEnd⟩
    exact ⟨fromNode, toNode, type ▸ direct, fromEnd, toEnd⟩
  · rintro ⟨fromNode, toNode, direct, fromEnd, toEnd⟩
    exact ⟨fromNode, toNode, type.trans direct, fromEnd, toEnd⟩

theorem Compiles.noDeadLinks_iff (run : Compiles env settings keys topo nodes allocations result) :
    NoDeadLinks env result ↔ ∀ link ∈ (allocatedTopology topo nodes).firstEdges, BehindNAT link →
      Dialed env result.peers link := by
  have dialed : ∀ link, Dialed env result.peers
      (ResolvedEdge.writtenBack (allocatedTopology topo nodes) allocations link) ↔ Dialed env result.peers link := by
    intro link
    rw [Dialed, peersOver_writtenBack, peersOver_writtenBack]
    rfl
  rw [NoDeadLinks, run.topology, compiled_firstEdges]
  simp only [forall_mem_map, behindNAT_writtenBack, dialed]

/-- A compile leaves no dead link between nodes behind NAT exactly when every such link whose first edge names no host
has one on the last primary edge the other way. -/
theorem no_dead_links_iff (compiled : compileAt env settings keys input = .ok result) :
    NoDeadLinks env result ↔ ReverseHosts input.withDefaults := by
  obtain ⟨nodes, allocations, run⟩ := compileAt_ok compiled
  have all := run.allAddressed
  have links := allocated_firstEdges all
  -- link by link: both sides read the first edge and the edge the other way
  have agree : ∀ link ∈ (allocatedTopology input.withDefaults nodes).firstEdges, ∀ before ∈ input.withDefaults.firstEdges,
      ResolvedEdge.bare link = ResolvedEdge.bare before → ((BehindNAT link → Dialed env result.peers link) ↔
        (BehindNAT (ResolvedEdge.inferred before) → before.edge.endpointHost = "" → ∃ edge,
          edgeInDirection input.withDefaults before.toNode.id before.fromNode.id = some edge ∧
            edge.endpointHost ≠ "")) := by
    intro link member before wasLink same
    have edges := congrArg (fun link => link.edge.endpointHost) same
    have froms := congrArg (fun link => link.fromNode.id) same
    have tos := congrArg (fun link => link.toNode.id) same
    simp only [ResolvedEdge.bare, Node.design_id] at edges froms tos
    rw [← behindNAT_bare run.accepted all member wasLink same]
    refine imp_congr_right fun behind => ?_
    obtain ⟨-, -, isFrom, -⟩ := mem_resolvedEdges.mp (firstEdges_resolved member)
    rw [run.derives.dialed_iff member behind (allocatedTopology_inferred (Topology.node?_mem isFrom).1), edges, froms, tos]
    exact Iff.rfl
  rw [run.noDeadLinks_iff]
  constructor
  · intro dialed before wasLink
    obtain ⟨link, member, same⟩ := mem_map.mp (links ▸ mem_map_of_mem wasLink)
    exact (agree link member before wasLink same).mp (dialed link member)
  · intro hosts link member
    obtain ⟨before, wasLink, same⟩ := mem_map.mp (links ▸ mem_map_of_mem member)
    exact (agree link member before wasLink same.symm).mpr (hosts before wasLink)

end

/-- A router that nobody can dial. -/
def sampleHidden (id : String) : Node := { sampleRouter id "d1" with capabilities := {} }

/-- A direct edge without a host, and one the other way with a host. -/
def sampleHiddenPair (role : EdgeRole) : Topology :=
  { samplePair with
    nodes := [sampleHidden "a", sampleHidden "b"]
    edges := [{ sampleEdge "e1" "a" "b" with endpointHost := "" }, { sampleEdge "e2" "b" "a" with role := role }] }

theorem sampleHiddenPair_alive : ∃ result,
    sampleCompile (sampleHiddenPair .primary) = .ok result ∧ NoDeadLinks sampleEnv result := by
  obtain ⟨result, compiled⟩ : ∃ result, sampleCompile (sampleHiddenPair .primary) = .ok result :=
    exists_ok (by decide +kernel)
  refine ⟨result, compiled, (no_dead_links_iff compiled).mpr fun link member _ _ => ?_⟩
  have only : ∀ link ∈ (sampleHiddenPair .primary).withDefaults.firstEdges,
      ((edgeInDirection (sampleHiddenPair .primary).withDefaults link.toNode.id link.fromNode.id).any fun edge =>
        edge.endpointHost ≠ "") = true := by decide +kernel
  have reverse := only link member
  rw [Option.any_eq_true] at reverse
  obtain ⟨edge, found, host⟩ := reverse
  exact ⟨edge, found, of_decide_eq_true host⟩

/-- Validation counts the host of a backup edge; the primary link is not dialed through it. -/
theorem sampleHiddenPair_dead : ∃ result,
    sampleCompile (sampleHiddenPair .backup) = .ok result ∧ ¬ NoDeadLinks sampleEnv result := by
  obtain ⟨result, compiled, dead⟩ := @ok_of_view _ _ _ (sampleCompile (sampleHiddenPair .backup))
    (fun result => decide (NoDeadLinks sampleEnv result)) false (by decide +kernel)
  exact ⟨result, compiled, of_decide_eq_false dead⟩

end Yaog.Compiler
