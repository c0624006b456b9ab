import Yaog.Validator.SemanticPins

/-!
# What an accepted topology satisfies
-/

namespace Yaog.Validator

open Net List

variable {edge : Edge} {link : ResolvedEdge}

/-- No check of the schema or the semantic pass reports an error. -/
structure Accepted (env : Externals) (topo : Topology) : Prop where
  bounded : topologyExceedsBounds topo = false
  project : isValid (validateProjectSchema topo) = true
  domains : isValid (validateDomainsSchema topo) = true
  nodes : isValid (validateNodesSchema env topo) = true
  edges : isValid (validateEdgesSchema env topo) = true
  domainRefs : isValid (validateNodeDomainRefs topo) = true
  nodeRefs : isValid (validateEdgeNodeRefs topo) = true
  addresses : isValid (validateIPSemantics topo) = true
  identifiers : isValid (validateIDUniqueness topo) = true
  names : isValid (validateNodeNameCollisions env topo) = true
  ports : isValid (validateEffectivePortRanges topo) = true
  reachability : isValid (validateNATReachability topo) = true
  clients : isValid (validateClientEdges topo) = true
  mimic : isValid (validateMimicTransport topo env) = true
  interfaces : isValid (validateInterfaceNameUniqueness topo env) = true
  primaries : isValid (validateSinglePrimaryPerPair topo) = true
  backups : isValid (validateBackupClientEdges topo) = true
  directions : isValid (validateLinkDirection topo) = true
  pins : isValid (validateAllocationPins env topo) = true
  routePolicies : isValid (validateRoutePoliciesReserved topo) = true

variable {env : Externals} {topo : Topology}

theorem isValid_flatMap {α : Type} {items : List α} {check : α → List Finding} :
    isValid (items.flatMap check) = true ↔ ∀ item ∈ items, isValid (check item) = true := by
  rw [flatMap_def, isValid_flatten]
  simp

private theorem warnings_valid (topo : Topology) :
    isValid (detectIsolatedNodes topo) = true ∧ isValid (validateEdgeEndpointConsistency topo) = true ∧
      isValid (detectDuplicateEnabledEdges topo) = true ∧ isValid (validateParallelLinkCosts topo) = true := by
  refine ⟨?_, ?_, ?_, ?_⟩
  · rw [detectIsolatedNodes]
    split
    · rfl
    · exact isValid_flatMap.mpr fun node _ => isValid_report_warning _ _ _ _
  · refine isValid_eachIndexed.mpr fun i edge _ => ?_
    cases topo.node? edge.toNodeID with
    | none => rfl
    | some node => exact isValid_report_warning _ _ _ _
  · refine isValid_eachIndexed.mpr fun i edge _ => ?_
    split
    · split <;> rfl
    · rfl
  · refine isValid_flatMap.mpr fun entry _ => ?_
    simp only [isValid_append, isValid_report_warning, and_self]

private theorem bounds_reported (exceeds : topologyExceedsBounds topo = true) :
    isValid (boundsFindings topo) = false := by
  rw [Bool.eq_false_iff]
  intro valid
  simp only [boundsFindings, boundFinding, isValid_append, isValid_report_error, decide_eq_false_iff_not,
    isValid_eachIndexed] at valid
  obtain ⟨⟨⟨⟨version, nodes⟩, edges⟩, domains⟩, ranges⟩ := valid
  simp only [topologyExceedsBounds, version, nodes, edges, domains, decide_false, Bool.false_or,
    any_eq_true, decide_eq_true_eq] at exceeds
  obtain ⟨domain, member, many⟩ := exceeds
  obtain ⟨i, found⟩ := getElem?_of_mem member
  exact ranges i domain found many

theorem accepted_iff :
    isValid (validateSchema env topo) = true ∧ isValid (validateSemantic env topo) = true ↔
      Accepted env topo := by
  cases bounded : topologyExceedsBounds topo with
  | true =>
    have refused := bounds_reported bounded
    constructor
    · rintro ⟨schema, -⟩
      rw [validateSchema, if_pos bounded, refused] at schema
      cases schema
    · intro accepted
      rw [accepted.bounded] at bounded
      cases bounded
  | false =>
    obtain ⟨isolated, endpoints, duplicates, costs⟩ := warnings_valid topo
    simp only [validateSchema, validateSemantic, bounded, Bool.false_eq_true, if_false, isValid_append,
      isolated, endpoints, duplicates, costs, and_true]
    constructor
    · rintro ⟨⟨⟨⟨project, domains⟩, nodes⟩, edges⟩, rest⟩
      obtain ⟨⟨⟨⟨⟨⟨⟨⟨⟨⟨⟨⟨⟨⟨domainRefs, nodeRefs⟩, addresses⟩, identifiers⟩, names⟩, ports⟩,
        reachability⟩, clients⟩, mimic⟩, interfaces⟩, primaries⟩, backups⟩, directions⟩, pins⟩,
        routePolicies⟩ := rest
      exact { bounded, project, domains, nodes, edges, domainRefs, nodeRefs, addresses, identifiers, names,
              ports, reachability, clients, mimic, interfaces, primaries, backups, directions, pins,
              routePolicies }
    · intro accepted
      exact ⟨⟨⟨⟨accepted.project, accepted.domains⟩, accepted.nodes⟩, accepted.edges⟩,
        ⟨⟨⟨⟨⟨⟨⟨⟨⟨⟨⟨⟨⟨⟨accepted.domainRefs, accepted.nodeRefs⟩, accepted.addresses⟩,
          accepted.identifiers⟩, accepted.names⟩, accepted.ports⟩, accepted.reachability⟩,
          accepted.clients⟩, accepted.mimic⟩, accepted.interfaces⟩, accepted.primaries⟩,
          accepted.backups⟩, accepted.directions⟩, accepted.pins⟩, accepted.routePolicies⟩⟩

theorem charsetFinding_chars {field param text : String} {code : Code} {inClass : Char → Bool}
    (valid : isValid (charsetFinding env field code param text (matchesClass inClass)) = true) :
    ∀ c ∈ text.toList, inClass c = true := by
  simp only [charsetFinding, isValid_report_error, Bool.and_eq_false_iff, decide_eq_false_iff_not, ne_eq,
    not_not, Bool.not_eq_false', matchesClass, Bool.and_eq_true, all_eq_true] at valid
  rcases valid with rfl | legal
  · simp
  · exact legal.2

theorem isValid_distinct {α κ : Type} [DecidableEq κ] {items : List α} {key : α → κ}
    (finding : Nat → α → Finding) (isError : ∀ i item, (finding i item).level = .error) :
    isValid (eachIndexed items fun i item =>
        report ((items.take i).any fun other => decide (key other = key item)) (finding i item)) = true ↔
      (items.map key).Nodup := by
  have single : ∀ condition i item, isValid (report condition (finding i item)) = !condition := by
    intro condition i item
    cases condition with
    | false => rfl
    | true => simp [report, isValid, errors, isError]
  simp only [isValid_eachIndexed, single, Bool.not_eq_true', any_eq_false, decide_eq_true_eq]
  change _ ↔ (items.map key).Pairwise (· ≠ ·)
  rw [pairwise_map, pairwise_iff_getElem]
  constructor
  · intro fresh i j iBound jBound before
    exact fresh j items[j] (getElem?_eq_getElem jBound) items[i] (mem_take_iff_getElem.mpr ⟨i, by omega, rfl⟩)
  · intro distinct j item found other earlier
    obtain ⟨jBound, rfl⟩ := List.getElem?_eq_some_iff.mp found
    obtain ⟨i, iBound, rfl⟩ := mem_take_iff_getElem.mp earlier
    exact distinct i j (by omega) jBound (by omega)

theorem isValid_validateIPSemantics_of
    (inside : ∀ node ∈ topo.nodes, ∀ domain, topo.domain? node.domainID = some domain → ∀ net ip,
      parseCIDR domain.cidr = some net → parseIP node.overlayIP = some ip → net.contains ip = true)
    (distinct : (topo.nodes.map (·.overlayIP)).Nodup) : isValid (validateIPSemantics topo) = true := by
  refine isValid_eachIndexed.mpr fun i node found => ?_
  have member := mem_of_getElem? found
  obtain ⟨bound, isNode⟩ := List.getElem?_eq_some_iff.mp found
  have noConflict : ((topo.nodes.take i).find? fun other => other.overlayIP = node.overlayIP) = none := by
    refine find?_eq_none.mpr fun other earlier => ?_
    obtain ⟨j, below, rfl⟩ := mem_take_iff_getElem.mp earlier
    have pairwise := pairwise_iff_getElem.mp (pairwise_map.mp distinct) j i (by omega) bound (by omega)
    simpa [isNode] using pairwise
  simp only [noConflict, append_nil]
  split
  case isTrue => rfl
  case isFalse =>
    cases isIP : parseIP node.overlayIP with
    | none => rfl
    | some ip =>
      have inCIDR : overlayOutOfCIDR topo node ip = none := by
        cases isDomain : topo.domain? node.domainID with
        | none => simp [overlayOutOfCIDR, isDomain]
        | some domain =>
          cases parsed : parseCIDR domain.cidr with
          | none => simp [overlayOutOfCIDR, isDomain, parsed]
          | some net =>
            simp [overlayOutOfCIDR, isDomain, parsed, inside node member domain isDomain net ip parsed isIP]
      simp only [inCIDR]
      rfl

namespace Accepted

variable (accepted : Accepted env topo) {node : Node}

include accepted

theorem domainIDs_nodup : (topo.domains.map (·.id)).Nodup := by
  have valid := accepted.identifiers
  simp only [validateIDUniqueness, isValid_append] at valid
  exact (isValid_distinct _ fun _ _ => rfl).mp valid.1.1

theorem nodeIDs_nodup : (topo.nodes.map (·.id)).Nodup := by
  have valid := accepted.identifiers
  simp only [validateIDUniqueness, isValid_append] at valid
  refine (isValid_distinct (fun i node =>
    error s!"nodes[{i}].id" .nodeIDDuplicate [("id", node.id)]) fun _ _ => rfl).mp ?_
  refine isValid_eachIndexed.mpr fun i node found => ?_
  have round := isValid_eachIndexed.mp valid.1.2 i node found
  rw [isValid_append] at round
  exact round.1

theorem edgeIDs_nodup : (topo.edges.map (·.id)).Nodup := by
  have valid := accepted.identifiers
  simp only [validateIDUniqueness, isValid_append] at valid
  exact (isValid_distinct _ fun _ _ => rfl).mp valid.2

theorem node?_eq (member : node ∈ topo.nodes) : topo.node? node.id = some node := by
  cases found : topo.node? node.id with
  | none =>
    have absent := find?_eq_none.mp found node (mem_reverse.mpr member)
    simp at absent
  | some other =>
    obtain ⟨otherMember, same⟩ := Topology.node?_mem found
    rw [inj_on_of_nodup_map accepted.nodeIDs_nodup otherMember member same]

theorem node_checks (member : node ∈ topo.nodes) :
    ∃ path, isValid (validateNodeIdentity env path node) = true ∧ isValid (validateNodeModes env path node) = true ∧
      isValid (validateNodeOverlayIP path node) = true ∧ isValid (validateNodeNetwork env path node) = true ∧
      isValid (validateNodeHosts env path node) = true := by
  obtain ⟨i, found⟩ := getElem?_of_mem member
  have valid := isValid_eachIndexed.mp accepted.nodes i node found
  simp only [validateNodeSchema, isValid_append] at valid
  obtain ⟨⟨⟨⟨identity, modes⟩, overlay⟩, network⟩, hosts⟩ := valid
  exact ⟨_, identity, modes, overlay, network, hosts⟩

theorem node_schema (member : node ∈ topo.nodes) :
    ∃ path, isValid (validateNodeIdentity env path node) = true ∧
      isValid (validateNodeOverlayIP path node) = true := by
  obtain ⟨path, identity, -, overlay, -, -⟩ := accepted.node_checks member
  exact ⟨path, identity, overlay⟩

section

variable (member : edge ∈ topo.edges)

include member

theorem edge_schema : ∃ i, isValid (validateEdgeSchema env i edge) = true := by
  obtain ⟨i, found⟩ := getElem?_of_mem member
  exact ⟨i, isValid_eachIndexed.mp accepted.edges i edge found⟩

theorem edge_ends :
    edge.fromNodeID ≠ "" ∧ edge.toNodeID ≠ "" ∧ edge.fromNodeID ≠ edge.toNodeID := by
  obtain ⟨i, valid⟩ := accepted.edge_schema member
  simp only [validateEdgeSchema, isValid_append, isValid_report_error, decide_eq_false_iff_not,
    Bool.and_eq_false_iff, ne_eq, not_not] at valid
  obtain ⟨⟨⟨⟨⟨⟨⟨⟨⟨⟨⟨-, fromSet⟩, toSet⟩, -⟩, -⟩, -⟩, -⟩, -⟩, -⟩, -⟩, -⟩, loop⟩ := valid
  exact ⟨fromSet, toSet, loop.resolve_left fromSet⟩

theorem node?_isSome :
    (∃ fromNode, topo.node? edge.fromNodeID = some fromNode) ∧
      ∃ toNode, topo.node? edge.toNodeID = some toNode := by
  obtain ⟨i, found⟩ := getElem?_of_mem member
  obtain ⟨fromSet, toSet, -⟩ := accepted.edge_ends member
  have valid := isValid_eachIndexed.mp accepted.nodeRefs i edge found
  simp only [isValid_append, isValid_report_error, Bool.and_eq_false_iff, decide_eq_false_iff_not, ne_eq,
    not_not, fromSet, toSet, false_or, Option.isNone_eq_false_iff, Option.isSome_iff_exists] at valid
  exact valid

theorem resolve_eq (enabled : edge.isEnabled = true) :
    ∃ fromNode toNode, topo.node? edge.fromNodeID = some fromNode ∧
      topo.node? edge.toNodeID = some toNode ∧ topo.resolve edge = some { edge, fromNode, toNode } := by
  obtain ⟨⟨fromNode, isFrom⟩, toNode, isTo⟩ := accepted.node?_isSome member
  exact ⟨fromNode, toNode, isFrom, isTo, by simp [Topology.resolve, enabled, isFrom, isTo]⟩

end

end Accepted

theorem resolve_some (resolved : topo.resolve edge = some link) :
    edge.isEnabled = true ∧ link.edge = edge ∧ topo.node? edge.fromNodeID = some link.fromNode ∧
      topo.node? edge.toNodeID = some link.toNode := by
  rw [Topology.resolve] at resolved
  split at resolved
  case isFalse => cases resolved
  case isTrue enabled =>
    split at resolved
    case h_1 fromNode toNode isFrom isTo =>
      cases resolved
      exact ⟨enabled, rfl, isFrom, isTo⟩
    case h_2 => cases resolved

theorem mem_resolvedEdges :
    link ∈ topo.resolvedEdges ↔ link.edge ∈ topo.edges ∧ link.edge.isEnabled = true ∧
      topo.node? link.edge.fromNodeID = some link.fromNode ∧
      topo.node? link.edge.toNodeID = some link.toNode := by
  rw [Topology.resolvedEdges, mem_filterMap]
  constructor
  · rintro ⟨edge, member, resolved⟩
    obtain ⟨enabled, rfl, isFrom, isTo⟩ := resolve_some resolved
    exact ⟨member, enabled, isFrom, isTo⟩
  · rintro ⟨member, enabled, isFrom, isTo⟩
    exact ⟨link.edge, member, by simp [Topology.resolve, enabled, isFrom, isTo]⟩

namespace Accepted

variable (accepted : Accepted env topo) {domain : Domain} {node : Node}

include accepted

theorem clientEdge_valid (inEdges : edge ∈ topo.edges) : ∃ i, isValid (validateClientEdge topo i edge) = true := by
  obtain ⟨i, found⟩ := getElem?_of_mem inEdges
  have valid := accepted.clients
  rw [validateClientEdges, isValid_append] at valid
  exact ⟨i, isValid_eachIndexed.mp valid.1 i edge found⟩

theorem toNode_not_client (member : link ∈ topo.resolvedEdges) : link.toNode.isClient = false := by
  obtain ⟨inEdges, enabled, -, isTo⟩ := mem_resolvedEdges.mp member
  obtain ⟨i, round⟩ := accepted.clientEdge_valid inEdges
  simp only [validateClientEdge, enabled, isTo, if_true, isValid_append, isValid_report_error] at round
  exact round.1

theorem client_endpointHost (member : link ∈ topo.resolvedEdges)
    (client : link.fromNode.isClient = true) : link.edge.endpointHost ≠ "" := by
  obtain ⟨inEdges, enabled, isFrom, isTo⟩ := mem_resolvedEdges.mp member
  obtain ⟨i, round⟩ := accepted.clientEdge_valid inEdges
  simp only [validateClientEdge, enabled, isFrom, isTo, client, if_true, isValid_append,
    isValid_report_error, decide_eq_false_iff_not] at round
  exact round.2.2

theorem backup_not_client (member : link ∈ topo.resolvedEdges)
    (backup : link.edge.isBackup = true) : link.fromNode.isClient = false := by
  obtain ⟨inEdges, enabled, isFrom, isTo⟩ := mem_resolvedEdges.mp member
  obtain ⟨i, found⟩ := getElem?_of_mem inEdges
  have round := isValid_eachIndexed.mp accepted.backups i link.edge found
  simp only [enabled, backup, isFrom, isTo, isValid_report_error, Bool.true_and, Option.any_some,
    Bool.or_eq_false_iff] at round
  exact round.1

theorem domain_schema (member : domain ∈ topo.domains) :
    ∃ i, isValid (validateDomainSchema i domain) = true := by
  obtain ⟨i, found⟩ := getElem?_of_mem member
  have valid := accepted.domains
  rw [validateDomainsSchema, if_neg (ne_nil_of_mem member)] at valid
  exact ⟨i, isValid_eachIndexed.mp valid i domain found⟩

theorem domain_cidr (member : domain ∈ topo.domains) :
    ∃ net network, parseCIDR domain.cidr = some net ∧ net.ip.to4 = some network ∧ domain.cidr ≠ "" := by
  obtain ⟨i, valid⟩ := accepted.domain_schema member
  simp only [validateDomainSchema, isValid_append] at valid
  obtain ⟨⟨⟨⟨⟨⟨-, -⟩, cidr⟩, -⟩, -⟩, -⟩, -⟩ := valid
  rw [validateDomainCIDR] at cidr
  split at cidr
  case isTrue => cases cidr
  case isFalse nonempty =>
    cases parsed : parseCIDR domain.cidr with
    | none => simp [parsed, isValid, errors, error] at cidr
    | some net =>
      cases isNetwork : net.ip.to4 with
      | none => simp [parsed, isNetwork, isValid, errors, error] at cidr
      | some network => exact ⟨net, network, rfl, isNetwork, nonempty⟩

theorem domain_transitCIDR (member : domain ∈ topo.domains) (set : domain.transitCIDR ≠ "") :
    ∃ net network, parseCIDR domain.transitCIDR = some net ∧ net.ip.to4 = some network ∧
      8 ≤ net.ones ∧ net.ones ≤ 30 := by
  obtain ⟨i, valid⟩ := accepted.domain_schema member
  simp only [validateDomainSchema, isValid_append] at valid
  obtain ⟨-, transit⟩ := valid
  rw [validateTransitCIDR, if_neg set] at transit
  cases parsed : parseCIDR domain.transitCIDR with
  | none => simp [parsed, isValid, errors, error] at transit
  | some net =>
    cases isNetwork : net.ip.to4 with
    | none => simp [parsed, isNetwork, isValid, errors, error] at transit
    | some network =>
      simp only [parsed, isNetwork, reduceCtorEq, if_false] at transit
      split at transit
      case isTrue => simp [isValid, errors, error] at transit
      case isFalse large =>
        have small : ¬ 30 < net.ones := by simpa using transit
        exact ⟨net, network, rfl, isNetwork, by omega, by omega⟩

theorem node_domain (member : node ∈ topo.nodes) :
    ∃ domain, topo.domain? node.domainID = some domain ∧ domain ∈ topo.domains := by
  obtain ⟨i, found⟩ := getElem?_of_mem member
  obtain ⟨path, identity, -⟩ := accepted.node_schema member
  have set : node.domainID ≠ "" := by
    simp only [validateNodeIdentity, isValid_append, isValid_report_error, decide_eq_false_iff_not] at identity
    exact identity.1.2
  have valid := isValid_eachIndexed.mp accepted.domainRefs i node found
  simp only [isValid_report_error, Bool.and_eq_false_iff, decide_eq_false_iff_not, ne_eq, not_not, set,
    false_or, Option.isNone_eq_false_iff, Option.isSome_iff_exists] at valid
  obtain ⟨domain, isDomain⟩ := valid
  exact ⟨domain, isDomain, (Topology.domain?_mem isDomain).1⟩

theorem node_overlayIP (member : node ∈ topo.nodes) :
    node.overlayIP = "" ∨ ∃ ip, parseIP node.overlayIP = some ip := by
  obtain ⟨path, -, overlay⟩ := accepted.node_schema member
  simp only [validateNodeOverlayIP, isValid_report_error, Bool.and_eq_false_iff, decide_eq_false_iff_not,
    ne_eq, not_not, Option.isNone_eq_false_iff, Option.isSome_iff_exists] at overlay
  exact overlay

theorem overlay_inside {net : IPNet} (member : node ∈ topo.nodes) (carries : node.overlayIP ≠ "")
    (isDomain : topo.domain? node.domainID = some domain) (parsed : parseCIDR domain.cidr = some net) :
    ∃ ip, parseIP node.overlayIP = some ip ∧ net.contains ip = true := by
  obtain ⟨i, found⟩ := getElem?_of_mem member
  obtain ⟨ip, isIP⟩ := (accepted.node_overlayIP member).resolve_left carries
  refine ⟨ip, isIP, ?_⟩
  obtain ⟨-, -, -, -, nonempty⟩ := accepted.domain_cidr (Topology.domain?_mem isDomain).1
  have valid := isValid_eachIndexed.mp accepted.addresses i node found
  simp only [carries, if_false, isIP, isValid_append] at valid
  cases inside : net.contains ip with
  | true => rfl
  | false => simp [overlayOutOfCIDR, isDomain, parsed, nonempty, inside, isValid, errors, error] at valid

theorem overlay_distinct {i j : Nat} {first second : Node} (before : i < j) (isFirst : topo.nodes[i]? = some first)
    (isSecond : topo.nodes[j]? = some second) (carries : second.overlayIP ≠ "") :
    first.overlayIP ≠ second.overlayIP := by
  intro same
  obtain ⟨domain, isDomain, inDomains⟩ := accepted.node_domain (mem_of_getElem? isSecond)
  obtain ⟨net, network, parsed, -, -⟩ := accepted.domain_cidr inDomains
  obtain ⟨ip, isIP, -⟩ := accepted.overlay_inside (mem_of_getElem? isSecond) carries isDomain parsed
  have valid := isValid_eachIndexed.mp accepted.addresses j second isSecond
  simp only [carries, if_false, isIP, isValid_append] at valid
  have earlier : first ∈ topo.nodes.take j := by
    obtain ⟨bound, rfl⟩ := List.getElem?_eq_some_iff.mp isFirst
    obtain ⟨bound', -⟩ := List.getElem?_eq_some_iff.mp isSecond
    exact mem_take_iff_getElem.mpr ⟨i, by omega, rfl⟩
  cases conflict : (topo.nodes.take j).find? fun other => other.overlayIP = second.overlayIP with
  | none =>
    have absent := find?_eq_none.mp conflict first earlier
    simp [same] at absent
  | some other => simp [conflict, isValid, errors, error] at valid

section

variable (member : node ∈ topo.nodes)

include member

theorem node_id_chars : ∀ c ∈ node.id.toList, isIDChar c = true := by
  obtain ⟨path, identity, -⟩ := accepted.node_schema member
  simp only [validateNodeIdentity, isValid_append] at identity
  have part := identity.1.1.1
  rw [validateNodeID] at part
  split at part
  case isTrue => cases part
  case isFalse =>
    split at part
    case isTrue => cases part
    case isFalse legal =>
      simp only [Bool.or_eq_true, decide_eq_true_eq, Bool.not_eq_true', not_or, Bool.not_eq_false,
        nodeIDCharset, matchesClass, Bool.and_eq_true, all_eq_true] at legal
      exact legal.2.2

theorem node_name_chars :
    ∀ c ∈ node.name.toList, (isIDChar c || c = ' ') = true := by
  obtain ⟨path, identity, -⟩ := accepted.node_schema member
  simp only [validateNodeIdentity, isValid_append] at identity
  have part := identity.1.1.2
  rw [validateNodeName] at part
  split at part
  case isTrue => cases part
  case isFalse =>
    simp only [isValid_report_error, Bool.or_eq_false_iff, nodeNameCharset, matchesClass,
      Bool.not_eq_false', Bool.and_eq_true, all_eq_true] at part
    exact part.2.2

theorem node_publicKey (set : node.wireGuardPublicKey ≠ "") :
    validWGPublicKey node.wireGuardPublicKey = true := by
  obtain ⟨path, -, -, -, network, -⟩ := accepted.node_checks member
  simp only [validateNodeNetwork, isValid_append, isValid_report_error, Bool.and_eq_false_iff,
    decide_eq_false_iff_not, ne_eq, not_not, set, false_or, Bool.not_eq_false'] at network
  exact network.1.1.1.1

theorem node_publicEndpoint_chars {endpoint : PublicEndpoint} (isEndpoint : endpoint ∈ node.publicEndpoints) :
    ∀ c ∈ endpoint.host.toList, (isIDChar c || c = ':' || c = '[' || c = ']') = true := by
  obtain ⟨path, -, -, -, -, hosts⟩ := accepted.node_checks member
  simp only [validateNodeHosts, isValid_append] at hosts
  obtain ⟨k, found⟩ := getElem?_of_mem isEndpoint
  exact charsetFinding_chars (isValid_eachIndexed.mp hosts.2 k endpoint found)

end

theorem edge_endpointHost_chars (member : edge ∈ topo.edges) :
    ∀ c ∈ edge.endpointHost.toList, (isIDChar c || c = ':' || c = '[' || c = ']') = true := by
  obtain ⟨i, valid⟩ := accepted.edge_schema member
  simp only [validateEdgeSchema, isValid_append] at valid
  exact charsetFinding_chars valid.1.1.1.2

end Accepted

end Yaog.Validator
