import Yaog.Normalize.Pins

/-!
# One heal is enough

Which edges lose their pins is settled by a recursion over the link keys, so it does not depend on the
order of the edge array, nothing collides afterwards, and a second heal finds nothing to do.
-/

namespace Yaog.Normalize

open Data Validator List

/-- Every resource is pinned at both ends or at none; at a client no port is pinned. -/
@[mk_iff]
structure CompletePins (topo : Topology) (edge : Edge) : Prop where
  fromClient : atClient topo edge.fromNodeID = true → edge.pinnedFromPort = 0
  toClient : atClient topo edge.toNodeID = true → edge.pinnedToPort = 0
  ports : atClient topo edge.fromNodeID = false → atClient topo edge.toNodeID = false →
    (edge.pinnedFromPort = 0 ↔ edge.pinnedToPort = 0)
  transit : edge.pinnedFromTransitIP = "" ↔ edge.pinnedToTransitIP = ""
  linkLocals : edge.pinnedFromLinkLocal = "" ↔ edge.pinnedToLinkLocal = ""

instance (topo : Topology) (edge : Edge) : Decidable (CompletePins topo edge) :=
  decidable_of_iff' _ (completePins_iff topo edge)

def portValue (nodeID : String) (port : Int) : List Claim := if port = 0 then [] else [.port nodeID port]

def addressValue (claim : String → Claim) (address : String) : List Claim :=
  if address = "" then [] else [claim (canonicalIP address)]

def pinnedValues (edge : Edge) : List Claim :=
  portValue edge.fromNodeID edge.pinnedFromPort ++ portValue edge.toNodeID edge.pinnedToPort
    ++ addressValue .transit edge.pinnedFromTransitIP ++ addressValue .transit edge.pinnedToTransitIP
    ++ addressValue .linkLocal edge.pinnedFromLinkLocal ++ addressValue .linkLocal edge.pinnedToLinkLocal

/-- The enabled edges carry complete pins and no negative port. -/
structure WellPinned (topo : Topology) : Prop where
  distinct : (topo.edges.map (·.id)).Nodup
  complete : ∀ edge ∈ topo.edges, edge.isEnabled = true → CompletePins topo edge
  nonnegative : ∀ edge ∈ topo.edges, edge.isEnabled = true → 0 ≤ edge.pinnedFromPort ∧ 0 ≤ edge.pinnedToPort

variable {topo : Topology} {edge : Edge} {claim : String → Claim} {i : Nat} {reordered : Topology} {κ : Type}
  {finding : Finding} {env : Externals} {link : ResolvedEdge}

theorem CompletePins.cleared (complete : CompletePins topo edge) : clearClientPorts topo edge = edge := by
  have ends : (if atClient topo edge.fromNodeID = true then 0 else edge.pinnedFromPort) = edge.pinnedFromPort ∧
      (if atClient topo edge.toNodeID = true then 0 else edge.pinnedToPort) = edge.pinnedToPort := by
    constructor
    · split
      case isTrue client => exact (complete.fromClient client).symm
      case isFalse => rfl
    · split
      case isTrue client => exact (complete.toClient client).symm
      case isFalse => rfl
  rw [clearClientPorts, ends.1, ends.2]

private theorem mem_addressClaims {first second : String} (pair : first = "" ↔ second = "") (value : Claim) :
    value ∈ addressClaims claim first second ↔ value ∈ addressValue claim first ++ addressValue claim second := by
  rw [addressClaims, addressValue, addressValue]
  by_cases blank : first = ""
  · simp [blank, pair.mp blank]
  · have set : second ≠ "" := fun other => blank (pair.mpr other)
    simp [blank, set]

private theorem mem_portClaims (complete : CompletePins topo edge)
    (nonnegative : 0 ≤ edge.pinnedFromPort ∧ 0 ≤ edge.pinnedToPort) (value : Claim) :
    value ∈ portClaims topo edge ↔
      value ∈ portValue edge.fromNodeID edge.pinnedFromPort ++ portValue edge.toNodeID edge.pinnedToPort := by
  have positive : ∀ port : Int, 0 ≤ port → (0 < port ↔ port ≠ 0) := fun port bound => by omega
  have fromSet := positive _ nonnegative.1
  have toSet := positive _ nonnegative.2
  cases fromClient : atClient topo edge.fromNodeID <;> cases toClient : atClient topo edge.toNodeID
  · have pair := complete.ports fromClient toClient
    by_cases unset : edge.pinnedFromPort = 0
    · simp [portClaims, portValue, fromClient, toClient, unset, pair.mp unset]
    · have other : edge.pinnedToPort ≠ 0 := fun blank => unset (pair.mpr blank)
      simp [portClaims, portValue, fromClient, toClient, unset, other, fromSet, toSet]
  · have cleared := complete.toClient toClient
    by_cases unset : edge.pinnedFromPort = 0
    · simp [portClaims, portValue, fromClient, toClient, unset, cleared]
    · simp [portClaims, portValue, fromClient, toClient, unset, cleared, fromSet]
  · have cleared := complete.fromClient fromClient
    by_cases unset : edge.pinnedToPort = 0
    · simp [portClaims, portValue, fromClient, toClient, unset, cleared]
    · simp [portClaims, portValue, fromClient, toClient, unset, cleared, toSet]
  · simp [portClaims, portValue, fromClient, toClient, complete.fromClient fromClient, complete.toClient toClient]

theorem mem_claims (complete : CompletePins topo edge)
    (nonnegative : 0 ≤ edge.pinnedFromPort ∧ 0 ≤ edge.pinnedToPort) (value : Claim) :
    value ∈ claims topo edge ↔ value ∈ pinnedValues edge := by
  have ports := mem_portClaims complete nonnegative value
  have transit := @mem_addressClaims .transit _ _ complete.transit value
  have linkLocals := @mem_addressClaims .linkLocal _ _ complete.linkLocals value
  rw [claims, pinnedValues]
  simp only [mem_append] at ports transit linkLocals ⊢
  rw [ports, transit, linkLocals]
  simp only [or_assoc]

theorem mem_strippedAt (found : topo.edges[i]? = some edge) :
    i ∈ strippedAt topo ↔ (clearClientPorts topo edge, i) ∈ strippedEntries topo := by
  rw [strippedAt, mem_map]
  constructor
  · rintro ⟨entry, member, rfl⟩
    have inOrder := (dropped_sublist _ _).subset member
    obtain ⟨at_i, -⟩ := mem_healOrder.mp inOrder
    rw [clearedEdges, getElem?_map, found] at at_i
    rw [Option.some.inj at_i]
    exact member
  · exact fun member => ⟨_, member, rfl⟩

theorem stripped_iff (distinct : (topo.edges.map (·.id)).Nodup) (found : topo.edges[i]? = some edge) :
    stripped topo edge = true ↔ i ∈ strippedAt topo := by
  simp only [stripped, any_eq_true, decide_eq_true_eq]
  constructor
  · rintro ⟨j, member, at_j⟩
    obtain ⟨bound, -⟩ := List.getElem?_eq_some_iff.mp at_j
    have same : j = i := (getElem?_inj bound distinct.of_map).mp (at_j.trans found.symm)
    exact same ▸ member
  · exact fun member => ⟨i, member, found⟩

theorem stripped_enabled (member : i ∈ strippedAt topo) (found : topo.edges[i]? = some edge) :
    edge.isEnabled = true :=
  (mem_healOrder.mp ((dropped_sublist _ _).subset ((mem_strippedAt found).mp member))).2

theorem WellPinned.settles (wellPinned : WellPinned topo) :
    Settles Edge.linkKey pinnedValues (fun first second => textLT first second = true)
      (topo.edges.filter (·.isEnabled)) (stripped topo · = true) := by
  have inOrder : ∀ {edge : Edge} {i : Nat}, topo.edges[i]? = some edge → edge.isEnabled = true →
      (edge, i) ∈ healOrder (clearedEdges topo) ∧ (stripped topo edge = true ↔ (edge, i) ∈ strippedEntries topo) := by
    intro edge i found enabled
    have cleared := (wellPinned.complete edge (mem_of_getElem? found) enabled).cleared
    have at_i : (clearedEdges topo)[i]? = some edge := by
      rw [clearedEdges, getElem?_map, found, Option.map_some, cleared]
    rw [stripped_iff wellPinned.distinct found, mem_strippedAt found, cleared]
    exact ⟨mem_healOrder.mpr ⟨at_i, enabled⟩, Iff.rfl⟩
  have fromOrder : ∀ {entry : Edge × Nat}, entry ∈ healOrder (clearedEdges topo) →
      topo.edges[entry.2]? = some entry.1 ∧ entry.1.isEnabled = true := by
    intro entry member
    obtain ⟨at_i, enabled⟩ := mem_healOrder.mp member
    rw [clearedEdges, getElem?_map, Option.map_eq_some_iff] at at_i
    obtain ⟨original, found, isCleared⟩ := at_i
    have originalEnabled : original.isEnabled = true := by
      rw [← isCleared] at enabled
      exact enabled
    rw [(wellPinned.complete original (mem_of_getElem? found) originalEnabled).cleared] at isCleared
    rw [← isCleared]
    exact ⟨found, originalEnabled⟩
  have shares : ∀ {edge other : Edge}, edge ∈ topo.edges → edge.isEnabled = true → other ∈ topo.edges →
      other.isEnabled = true → (Shares (claims topo) edge other ↔ Shares pinnedValues edge other) := by
    intro edge other member enabled otherMember otherEnabled
    refine exists_congr fun value => and_congr ?_ ?_
    · exact mem_claims (wellPinned.complete edge member enabled) (wellPinned.nonnegative edge member enabled) value
    · exact mem_claims (wellPinned.complete other otherMember otherEnabled)
        (wellPinned.nonnegative other otherMember otherEnabled) value
  have loop : Settles (fun entry : Edge × Nat => entry.1.linkKey) (fun entry => claims topo entry.1)
      (fun first second => textLT first second = true) (healOrder (clearedEdges topo)) (· ∈ strippedEntries topo) :=
    dropped_settles (healOrder_nodup (clearedEdges topo)) (healOrder_sorted (clearedEdges topo))
  intro edge member
  obtain ⟨inEdges, enabled⟩ := mem_filter.mp member
  obtain ⟨i, found⟩ := getElem?_of_mem inEdges
  obtain ⟨here, isStripped⟩ := inOrder found enabled
  refine isStripped.trans ((loop (edge, i) here).trans ?_)
  constructor
  · rintro ⟨entry, inLoop, below, stays, shared⟩
    obtain ⟨foundOther, otherEnabled⟩ := fromOrder inLoop
    have otherMember := mem_of_getElem? foundOther
    refine ⟨entry.1, mem_filter.mpr ⟨otherMember, otherEnabled⟩, below, fun lost => stays ?_, ?_⟩
    · exact (inOrder foundOther otherEnabled).2.mp lost
    · exact (shares inEdges enabled otherMember otherEnabled).mp shared
  · rintro ⟨other, inFilter, below, stays, shared⟩
    obtain ⟨otherMember, otherEnabled⟩ := mem_filter.mp inFilter
    obtain ⟨j, foundOther⟩ := getElem?_of_mem otherMember
    obtain ⟨otherInLoop, otherStripped⟩ := inOrder foundOther otherEnabled
    exact ⟨(other, j), otherInLoop, below, fun lost => stays (otherStripped.mpr lost),
      (shares inEdges enabled otherMember otherEnabled).mpr shared⟩

theorem WellPinned.reorder (wellPinned : WellPinned topo) (nodes : reordered.nodes = topo.nodes)
    (edges : reordered.edges.Perm topo.edges) : WellPinned reordered := by
  have same : ∀ id, atClient reordered id = atClient topo id := by
    intro id
    rw [atClient, atClient, Topology.node?, Topology.node?, nodes]
  refine ⟨(edges.map _).nodup_iff.mpr wellPinned.distinct, fun edge member enabled => ?_, fun edge member enabled => ?_⟩
  · have complete := wellPinned.complete edge (edges.mem_iff.mp member) enabled
    exact ⟨fun client => complete.fromClient (same _ ▸ client), fun client => complete.toClient (same _ ▸ client),
      fun fromClient toClient => complete.ports (same _ ▸ fromClient) (same _ ▸ toClient), complete.transit,
      complete.linkLocals⟩
  · exact wellPinned.nonnegative edge (edges.mem_iff.mp member) enabled

theorem WellPinned.stripped_reorder (wellPinned : WellPinned topo)
    (nodes : reordered.nodes = topo.nodes) (edges : reordered.edges.Perm topo.edges) (edge : Edge) :
    stripped reordered edge = stripped topo edge := by
  have ofStripped : ∀ {part : Topology}, stripped part edge = true → edge ∈ part.edges ∧ edge.isEnabled = true := by
    intro part isStripped
    simp only [stripped, any_eq_true, decide_eq_true_eq] at isStripped
    obtain ⟨i, member, found⟩ := isStripped
    exact ⟨mem_of_getElem? found, stripped_enabled member found⟩
  by_cases live : edge ∈ topo.edges ∧ edge.isEnabled = true
  · have settled := wellPinned.settles
    have settled' := (wellPinned.reorder nodes edges).settles.of_perm (edges.filter _)
    rw [Bool.eq_iff_iff]
    exact settled'.unique settled (mem_filter.mpr live)
  · have unstripped : stripped topo edge = false := by
      rw [Bool.eq_false_iff]
      exact fun isStripped => live (ofStripped isStripped)
    have unstripped' : stripped reordered edge = false := by
      rw [Bool.eq_false_iff]
      intro isStripped
      obtain ⟨member, enabled⟩ := ofStripped isStripped
      exact live ⟨edges.mem_iff.mp member, enabled⟩
    rw [unstripped, unstripped']

theorem clearClientPorts_stripPins (edge : Edge) : clearClientPorts topo (stripPins edge) = stripPins edge := by
  have ports : (stripPins edge).pinnedFromPort = 0 ∧ (stripPins edge).pinnedToPort = 0 := ⟨rfl, rfl⟩
  rw [clearClientPorts, ports.1, ports.2, ite_self, ite_self]
  rfl

theorem clearClientPorts_idem (edge : Edge) :
    clearClientPorts topo (clearClientPorts topo edge) = clearClientPorts topo edge := by
  simp only [clearClientPorts]
  congr 1 <;> split <;> rfl

theorem claims_stripPins (edge : Edge) : claims topo (stripPins edge) = [] := by
  simp [claims, portClaims, addressClaims, stripPins, stripAllocationPins]

theorem healed_eq (distinct : (topo.edges.map (·.id)).Nodup) :
    healed topo = { topo with
      edges := topo.edges.map fun edge => if stripped topo edge then stripPins edge else clearClientPorts topo edge } := by
  have edges : (healed topo).edges =
      topo.edges.map fun edge => if stripped topo edge then stripPins edge else clearClientPorts topo edge := by
    apply ext_getElem?
    intro i
    rw [healed_getElem?, getElem?_map]
    cases found : topo.edges[i]? with
    | none => rfl
    | some edge => simp only [Option.map_some, stripped_iff distinct found]
  rw [← edges]
  rfl

theorem WellPinned.healed_edge (wellPinned : WellPinned topo) (found : (healed topo).edges[i]? = some edge)
    (enabled : edge.isEnabled = true) :
    edge ∈ topo.edges ∧ stripped topo edge = false ∨ claims topo edge = [] ∧ pinnedValues edge = [] := by
  rw [healed_getElem?, Option.map_eq_some_iff] at found
  obtain ⟨original, isOriginal, rfl⟩ := found
  have member := mem_of_getElem? isOriginal
  by_cases lost : i ∈ strippedAt topo
  · rw [if_pos lost]
    exact .inr ⟨claims_stripPins original, rfl⟩
  · rw [if_neg lost] at enabled ⊢
    rw [(wellPinned.complete original member enabled).cleared]
    refine .inl ⟨member, ?_⟩
    rw [Bool.eq_false_iff, ne_eq, stripped_iff wellPinned.distinct isOriginal]
    exact lost

theorem WellPinned.healed_consistent (wellPinned : WellPinned topo) {other : Edge} (member : edge ∈ (healed topo).edges)
    (enabled : edge.isEnabled = true) (otherMember : other ∈ (healed topo).edges) (otherEnabled : other.isEnabled = true)
    (shares : Shares pinnedValues edge other) : edge.linkKey = other.linkKey := by
  obtain ⟨i, found⟩ := getElem?_of_mem member
  obtain ⟨j, foundOther⟩ := getElem?_of_mem otherMember
  obtain ⟨value, inEdge, inOther⟩ := shares
  rcases wellPinned.healed_edge found enabled with ⟨inEdges, stays⟩ | ⟨-, bare⟩
  · rcases wellPinned.healed_edge foundOther otherEnabled with ⟨inEdges', stays'⟩ | ⟨-, bare⟩
    · exact wellPinned.settles.consistent (mem_filter.mpr ⟨inEdges, enabled⟩)
        (mem_filter.mpr ⟨inEdges', otherEnabled⟩) (by simp [stays]) (by simp [stays']) ⟨value, inEdge, inOther⟩
    · rw [bare] at inOther
      cases inOther
  · rw [bare] at inEdge
    cases inEdge

theorem cleared_healed (member : edge ∈ (healed topo).edges) : clearClientPorts (healed topo) edge = edge := by
  obtain ⟨i, found⟩ := getElem?_of_mem member
  rw [healed_getElem?, Option.map_eq_some_iff] at found
  obtain ⟨original, -, rfl⟩ := found
  split
  · exact clearClientPorts_stripPins original
  · exact clearClientPorts_idem original

theorem clearedEdges_healed : clearedEdges (healed topo) = (healed topo).edges := by
  rw [clearedEdges, map_congr_left fun _ member => cleared_healed member]
  exact map_id _

theorem WellPinned.healed_stripped (wellPinned : WellPinned topo) : strippedEntries (healed topo) = [] := by
  refine dropped_eq_nil ownedBy_nil fun entry member other place shares => ?_
  rw [clearedEdges_healed] at member place
  obtain ⟨found, enabled⟩ := mem_healOrder.mp member
  obtain ⟨foundOther, otherEnabled⟩ := mem_healOrder.mp (place.resolve_left (by simp))
  obtain ⟨value, inEdge, inOther⟩ := shares
  have values : ∀ {i : Nat} {edge : Edge}, (healed topo).edges[i]? = some edge → edge.isEnabled = true →
      value ∈ claims topo edge → value ∈ pinnedValues edge := by
    intro i edge found enabled claimed
    rcases wellPinned.healed_edge found enabled with ⟨inEdges, -⟩ | ⟨bare, -⟩
    · exact (mem_claims (wellPinned.complete edge inEdges enabled)
        (wellPinned.nonnegative edge inEdges enabled) value).mp claimed
    · rw [bare] at claimed
      cases claimed
  exact wellPinned.healed_consistent (mem_of_getElem? foundOther) otherEnabled (mem_of_getElem? found) enabled
    ⟨value, values foundOther otherEnabled inOther, values found enabled inEdge⟩

theorem hasClientPort_eq_false (cleared : clearClientPorts topo edge = edge) : hasClientPort topo edge = false := by
  have fromPort : (if atClient topo edge.fromNodeID = true then 0 else edge.pinnedFromPort) = edge.pinnedFromPort :=
    congrArg Edge.pinnedFromPort cleared
  have toPort : (if atClient topo edge.toNodeID = true then 0 else edge.pinnedToPort) = edge.pinnedToPort :=
    congrArg Edge.pinnedToPort cleared
  rw [hasClientPort]
  cases fromClient : atClient topo edge.fromNodeID <;> cases toClient : atClient topo edge.toNodeID <;> simp_all

theorem WellPinned.heal_again (wellPinned : WellPinned topo) : healCollidingPins (healed topo) = (healed topo, false) := by
  have nothing : strippedAt (healed topo) = [] := by rw [strippedAt, wellPinned.healed_stripped, map_nil]
  have edges : (clearedEdges (healed topo)).mapIdx (fun i edge =>
      if i ∈ strippedAt (healed topo) then stripPins edge else edge) = (healed topo).edges := by
    rw [nothing, clearedEdges_healed]
    apply ext_getElem?
    intro i
    simp [getElem?_mapIdx]
  have unchanged : (healed topo).edges.any (hasClientPort (healed topo)) = false := by
    rw [any_eq_false]
    intro edge member
    rw [hasClientPort_eq_false (cleared_healed member)]
    exact Bool.false_ne_true
  rw [healCollidingPins, edges, unchanged, nothing]
  rfl

def crossLinkCodes : List Code :=
  [.pinPortDuplicateCrossLink, .pinTransitIPDuplicateCrossLink, .pinLinkLocalDuplicateCrossLink]

theorem duplicateFindings_eq_nil [DecidableEq κ] {path param : String} {code : Code}
    {earlier entries : List (PinEntry κ)} (consistent : OneLinkPerKey (earlier ++ entries)) :
    duplicateFindings path code param earlier entries = [] := by
  induction entries generalizing earlier with
  | nil => rfl
  | cons entry rest ih =>
    have regroup : earlier ++ entry :: rest = earlier ++ [entry] ++ rest := by simp
    rw [duplicateFindings, ih (regroup ▸ consistent), append_nil]
    cases found : earlier.find? fun owner => owner.key = entry.key with
    | none => rfl
    | some owner =>
      have keys : owner.key = entry.key := by simpa using find?_some found
      have links := consistent owner (by simp [mem_of_find?_eq_some found]) entry (by simp) keys
      simp [report, links]

private theorem mem_report {condition : Bool} {reported : Finding} (member : finding ∈ report condition reported) :
    finding = reported := by
  rw [report] at member
  split at member
  · exact mem_singleton.mp member
  · cases member

theorem validateOwnPins_codes {path : String}
    (member : finding ∈ validateOwnPins env topo path link) : finding.code ∉ crossLinkCodes := by
  have reported : ∀ {condition : Bool} {field : String} {code : Code} {params : List (String × String)},
      code ∉ crossLinkCodes → finding ∈ report condition (error field code params) → finding.code ∉ crossLinkCodes := by
    intro condition field code params other isReported
    rw [mem_report isReported]
    exact other
  have transit : ∀ {field value cidr : String}, finding ∈ validatePinnedTransitInCIDR env field value cidr →
      finding.code ∉ crossLinkCodes := by
    intro field value cidr isReported
    rw [validatePinnedTransitInCIDR] at isReported
    split at isReported
    case isTrue => cases isReported
    case isFalse =>
      split at isReported
      case h_1 =>
        rw [mem_singleton.mp isReported]
        exact (by decide : Code.pinTransitIPInvalid ∉ crossLinkCodes)
      case h_2 =>
        split at isReported
        case h_1 => cases isReported
        case h_2 => exact reported (by decide) isReported
  simp only [validateOwnPins, validatePinPairCompleteness, validatePinnedPortRange, mem_append] at member
  rcases member with (((((client | ((ports | transits) | linkLocals)) | fromPort) | toPort) | fromTransit) | toTransit)
  · exact reported (by decide) client
  · exact reported (by decide) ports
  · exact reported (by decide) transits
  · exact reported (by decide) linkLocals
  · exact reported (by decide) fromPort
  · exact reported (by decide) toPort
  · exact transit fromTransit
  · exact transit toTransit

theorem validateAllocationPins_codes (ports : OneLinkPerKey (topo.resolvedEdges.flatMap portPins))
    (transit : OneLinkPerKey (topo.resolvedEdges.flatMap transitPins))
    (linkLocals : OneLinkPerKey (topo.resolvedEdges.flatMap linkLocalPins))
    (member : finding ∈ validateAllocationPins env topo) : finding.code ∉ crossLinkCodes := by
  rw [validateAllocationPins, eachIndexed, mem_flatten] at member
  obtain ⟨round, inRounds, inRound⟩ := member
  obtain ⟨i, bound, rfl⟩ := mem_mapIdx.mp inRounds
  rw [validateEdgePins] at inRound
  cases resolved : topo.resolve topo.edges[i] with
  | none => simp [resolved] at inRound
  | some link =>
    have inside : (topo.edges.take i).filterMap topo.resolve ++ [link] ⊆ topo.resolvedEdges := by
      intro other place
      rcases mem_append.mp place with early | last
      · obtain ⟨edge, before, isOther⟩ := mem_filterMap.mp early
        exact mem_filterMap.mpr ⟨edge, mem_of_mem_take before, isOther⟩
      · rw [mem_singleton.mp last]
        exact mem_filterMap.mpr ⟨_, getElem_mem bound, resolved⟩
    have fewer : ∀ {κ : Type} (pins : ResolvedEdge → List (PinEntry κ)),
        ((topo.edges.take i).filterMap topo.resolve).flatMap pins ++ pins link ⊆ topo.resolvedEdges.flatMap pins := by
      intro κ pins entry place
      have whole : entry ∈ ((topo.edges.take i).filterMap topo.resolve ++ [link]).flatMap pins := by
        rw [flatMap_append, flatMap_singleton]
        exact place
      obtain ⟨other, isOther, isEntry⟩ := mem_flatMap.mp whole
      exact mem_flatMap.mpr ⟨other, inside isOther, isEntry⟩
    simp only [resolved, duplicateFindings_eq_nil (ports.of_subset (fewer portPins)),
      duplicateFindings_eq_nil (transit.of_subset (fewer transitPins)),
      duplicateFindings_eq_nil (linkLocals.of_subset (fewer linkLocalPins)), append_nil] at inRound
    exact validateOwnPins_codes inRound

private theorem portPins_value {entry : PinEntry (String × Int)} (member : entry ∈ portPins link) :
    entry.link = link.linkKey ∧ Claim.port entry.key.1 entry.key.2 ∈ pinnedValues link.edge := by
  obtain ⟨pin, inPair, isEntry⟩ := mem_filterMap.mp member
  by_cases unset : pin.2 = 0
  · simp [unset] at isEntry
  · obtain rfl := by simpa [unset] using isEntry
    refine ⟨rfl, ?_⟩
    rcases mem_cons.mp inPair with rfl | inRest
    · simp [pinnedValues, portValue, unset]
    · obtain rfl := mem_singleton.mp inRest
      simp [pinnedValues, portValue, unset]

private theorem addressPins_value {first second : String} {entry : PinEntry String}
    (pinned : addressValue claim first ++ addressValue claim second ⊆ pinnedValues link.edge)
    (member : entry ∈ addressPins link [first, second]) :
    entry.link = link.linkKey ∧ claim entry.key ∈ pinnedValues link.edge := by
  obtain ⟨value, inPair, isEntry⟩ := mem_filterMap.mp member
  by_cases unset : value = ""
  · simp [unset] at isEntry
  · obtain rfl := by simpa [unset] using isEntry
    refine ⟨rfl, pinned ?_⟩
    rcases mem_cons.mp inPair with rfl | inRest
    · simp [addressValue, unset]
    · obtain rfl := mem_singleton.mp inRest
      simp [addressValue, unset]

theorem WellPinned.healed_oneLink (wellPinned : WellPinned topo) {pins : ResolvedEdge → List (PinEntry κ)}
    {claim : κ → Claim}
    (values : ∀ link, ∀ entry ∈ pins link, entry.link = link.linkKey ∧ claim entry.key ∈ pinnedValues link.edge) :
    OneLinkPerKey ((healed topo).resolvedEdges.flatMap pins) := by
  intro first isFirst second isSecond keys
  obtain ⟨link, inLinks, inPins⟩ := mem_flatMap.mp isFirst
  obtain ⟨link', inLinks', inPins'⟩ := mem_flatMap.mp isSecond
  obtain ⟨isLink, value⟩ := values link first inPins
  obtain ⟨isLink', value'⟩ := values link' second inPins'
  obtain ⟨member, enabled, -, -⟩ := mem_resolvedEdges.mp inLinks
  obtain ⟨member', enabled', -, -⟩ := mem_resolvedEdges.mp inLinks'
  rw [isLink, isLink']
  exact wellPinned.healed_consistent member enabled member' enabled' ⟨claim first.key, value, keys ▸ value'⟩

theorem WellPinned.healed_codes (wellPinned : WellPinned topo)
    (member : finding ∈ validateAllocationPins env (healed topo)) : finding.code ∉ crossLinkCodes := by
  refine validateAllocationPins_codes ?_ ?_ ?_ member
  · exact @WellPinned.healed_oneLink topo _ wellPinned _ (fun key => .port key.1 key.2) fun link entry => portPins_value
  · refine @WellPinned.healed_oneLink topo _ wellPinned _ .transit fun link entry => addressPins_value ?_
    intro value inValues
    simp only [pinnedValues, mem_append] at inValues ⊢
    grind
  · refine @WellPinned.healed_oneLink topo _ wellPinned _ .linkLocal fun link entry => addressPins_value ?_
    intro value inValues
    simp only [pinnedValues, mem_append] at inValues ⊢
    grind

/-- One heal of complete pins converges: the cross-link checks find nothing, an edge is stripped exactly when
it shares a pinned value with an edge of a smaller link key that is not, in whatever order the edges stand, a
second heal changes nothing, and nothing else changes. -/
theorem heal_converges (distinct : (topo.edges.map (·.id)).Nodup)
    (complete : ∀ edge ∈ topo.edges, edge.isEnabled = true → CompletePins topo edge)
    (nonnegative : ∀ edge ∈ topo.edges, edge.isEnabled = true → 0 ≤ edge.pinnedFromPort ∧ 0 ≤ edge.pinnedToPort) :
    (∀ finding ∈ validateAllocationPins env (healCollidingPins topo).1, finding.code ∉ crossLinkCodes) ∧
      (∀ edge ∈ topo.edges, edge.isEnabled = true →
        (stripped topo edge = true ↔ ∃ other ∈ topo.edges, other.isEnabled = true ∧
          textLT other.linkKey edge.linkKey = true ∧ stripped topo other = false ∧
          ∃ value ∈ pinnedValues edge, value ∈ pinnedValues other)) ∧
      (∀ reordered : Topology, reordered.nodes = topo.nodes → reordered.edges.Perm topo.edges →
        ∀ edge, stripped reordered edge = stripped topo edge) ∧
      healCollidingPins (healCollidingPins topo).1 = ((healCollidingPins topo).1, false) ∧
      (healCollidingPins topo).1 = { topo with
        edges := topo.edges.map fun edge =>
          if stripped topo edge then stripPins edge else clearClientPorts topo edge } := by
  have wellPinned : WellPinned topo := ⟨distinct, complete, nonnegative⟩
  refine ⟨fun finding member => wellPinned.healed_codes member, fun edge member enabled => ?_,
    fun reordered nodes edges edge => wellPinned.stripped_reorder nodes edges edge, wellPinned.heal_again,
    healed_eq distinct⟩
  refine (wellPinned.settles edge (mem_filter.mpr ⟨member, enabled⟩)).trans ?_
  constructor
  · rintro ⟨other, inFilter, below, stays, shares⟩
    obtain ⟨otherMember, otherEnabled⟩ := mem_filter.mp inFilter
    exact ⟨other, otherMember, otherEnabled, below, Bool.eq_false_iff.mpr stays, shares⟩
  · rintro ⟨other, otherMember, otherEnabled, below, stays, shares⟩
    exact ⟨other, mem_filter.mpr ⟨otherMember, otherEnabled⟩, below, Bool.eq_false_iff.mp stays, shares⟩

def samplePinnedEdge (id fromNodeID toNodeID : String) (port : Int) (transit linkLocal : String × String) : Edge where
  id := id
  fromNodeID := fromNodeID
  toNodeID := toNodeID
  type := .direct
  pinnedFromPort := port
  pinnedToPort := port
  pinnedFromTransitIP := transit.1
  pinnedToTransitIP := transit.2
  pinnedFromLinkLocal := linkLocal.1
  pinnedToLinkLocal := linkLocal.2

def sampleMesh (edges : List Edge) : Topology where
  project := { id := "p", name := "p" }
  domains := [{ id := "d1", name := "d1", cidr := "10.11.0.0/24" }]
  nodes := ["a", "b", "c"].map fun id => { id, name := id, role := .router, domainID := "d1" }
  edges := edges

/-- The second edge collides with the first, the third with the second only. -/
def sampleContested : Topology :=
  sampleMesh [
    samplePinnedEdge "e3" "b" "c" 51821 ("10.10.0.5", "10.10.0.6") ("FE80::3", "fe80::4"),
    samplePinnedEdge "e2" "a" "c" 51822 ("10.10.0.1", "10.10.0.2") ("fe80::3", "fe80::4"),
    samplePinnedEdge "e1" "a" "b" 51820 ("10.10.0.1", "10.10.0.2") ("fe80::1", "fe80::2")]

def sampleExternals : Externals where
  sha256 := fun _ _ => 0
  quote := id
  validateProbes := fun _ => none

theorem sampleContested_converges :
    sampleContested.edges.map (stripped sampleContested) = [false, true, false] ∧
      healCollidingPins (healCollidingPins sampleContested).1 = ((healCollidingPins sampleContested).1, false) ∧
      ∀ finding ∈ validateAllocationPins sampleExternals (healCollidingPins sampleContested).1,
        finding.code ∉ crossLinkCodes := by
  obtain ⟨codes, -, -, again, -⟩ := @heal_converges sampleContested sampleExternals (by decide) (by decide) (by decide)
  exact ⟨by decide +kernel, again, codes⟩

/-- Negative ports are no claims of the heal, but pins to the validator. -/
theorem sampleNegative_reported : ∃ topo : Topology, (topo.edges.map (·.id)).Nodup ∧
    (∀ edge ∈ topo.edges, edge.isEnabled = true → CompletePins topo edge) ∧
    ∃ finding ∈ validateAllocationPins sampleExternals (healCollidingPins topo).1, finding.code ∈ crossLinkCodes := by
  exact ⟨sampleMesh [samplePinnedEdge "e1" "a" "b" (-5) ("", "") ("", ""),
    samplePinnedEdge "e2" "a" "c" (-5) ("", "") ("", "")], by decide, by decide, by decide +kernel⟩

end Yaog.Normalize
