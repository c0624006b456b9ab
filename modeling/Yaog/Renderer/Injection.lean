import Yaog.Compiler.PortOwnership
import Yaog.Renderer.Keys
import Yaog.Renderer.WireGuard

/-!
# What reaches the WireGuard configurations

Every value of a configuration is made of a few plain characters, because a check of the topology or the function that
prints it says so. The exception are the link-local addresses an operator pins: no check reads them, and the allocator
passes them through.
-/

namespace Yaog.Renderer

open Allocator Compiler Data Net Validator List

def isPlain (c : Char) : Bool := isIDChar c || c = ':' || c = '+' || c = '/' || c = '='

def Plain (text : String) : Prop := ∀ c ∈ text.toList, isPlain c = true

theorem ascii_of_isPlain {c : Char} (plain : isPlain c = true) : c.toNat < 128 := by
  have bound : ∀ last : Char, last.toNat < 128 → c ≤ last → c.toNat < 128 := fun _ small below =>
    lt_of_le_of_lt below small
  simp only [isPlain, isIDChar, isLetter, Char.isDigit, Bool.or_eq_true, Bool.and_eq_true, decide_eq_true_eq] at plain
  rcases plain with ((((((((letter | letter) | digit) | rfl) | rfl) | rfl) | rfl) | rfl) | rfl) | rfl
  · exact bound 'z' (by decide) letter.2
  · exact bound 'Z' (by decide) letter.2
  · exact bound '9' (by decide) digit.2
  all_goals decide

theorem forbids_of_isPlain (place : Place) {c : Char} (plain : isPlain c = true) : place.forbids c = false := by
  have all : ∀ place ∈ [Place.comment, .setting, .shell], ∀ code < 128, isPlain (Char.ofNat code) = true →
      place.forbids (Char.ofNat code) = false := by
    decide +kernel
  have listed : place ∈ [Place.comment, .setting, .shell] := by cases place <;> decide
  have here := all place listed c.toNat (ascii_of_isPlain plain)
  rw [Char.ofNat_toNat] at here
  exact here plain

theorem Plain.inert {text : String} (plain : Plain text) (place : Place) : place.Inert text :=
  fun c member => forbids_of_isPlain place (plain c member)

theorem Plain.append {first second : String} (left : Plain first) (right : Plain second) : Plain (first ++ second) := by
  intro c member
  rw [String.toList_append, mem_append] at member
  exact member.elim (left c) (right c)

theorem isPlain_of_isIDChar {c : Char} (isID : isIDChar c = true) : isPlain c = true := by simp [isPlain, isID]

theorem isIDChar_of_isDigit {c : Char} (digit : c.isDigit = true) : isIDChar c = true := by simp [isIDChar, digit]

theorem isIDChar_digitChar (digit : Fin 16) : isIDChar (Nat.digitChar digit) = true := by
  revert digit
  decide

theorem plain_nat (number : Nat) : Plain (toString number) := by
  intro c member
  have isDigit : c ∈ Nat.toDigits 10 number := by simpa [toString, Nat.repr] using member
  exact isPlain_of_isIDChar (isIDChar_of_isDigit (Nat.isDigit_of_mem_toDigits (by decide) (by decide) isDigit))

theorem plain_int (number : Int) : Plain (toString number) := by
  cases number with
  | ofNat number => exact plain_nat number
  | negSucc number => exact Plain.append (chars_of_all (by decide)) (plain_nat (number + 1))

theorem plain_itoa (number : Int) : Plain (itoa number) := by
  rw [itoa]
  split
  · simp [Plain]
  · exact plain_nat _

theorem isPlain_of_isAddressChar {c : Char} (isAddress : isAddressChar c = true) : isPlain c = true := by
  simp only [isAddressChar, Bool.or_eq_true, decide_eq_true_eq] at isAddress
  rcases isAddress with (hex | rfl) | rfl
  · rw [hexValue?] at hex
    refine isPlain_of_isIDChar ?_
    split at hex
    case isTrue digit => exact isIDChar_of_isDigit digit
    case isFalse =>
      split at hex
      case isTrue lower => simp [isIDChar, isLetter, lower.1, Char.le_trans lower.2 (show 'f' ≤ 'z' by decide)]
      case isFalse =>
        split at hex
        case isTrue upper => simp [isIDChar, isLetter, upper.1, Char.le_trans upper.2 (show 'F' ≤ 'Z' by decide)]
        case isFalse => cases hex
  · decide
  · decide

theorem plain_of_parseIP {text : String} {ip : IP} (parsed : parseIP text = some ip) : Plain text :=
  fun c member => isPlain_of_isAddressChar (parseIP_chars parsed c member)

theorem plain_linkLocalText (number : Nat) : Plain (linkLocalText number) := by
  refine Plain.append (chars_of_all (by decide)) fun c member => ?_
  rw [hexText, String.toList_ofList] at member
  obtain ⟨digit, rfl⟩ := exists_hexDigit member
  exact isPlain_of_isIDChar (isIDChar_digitChar digit)

theorem isPlain_of_isBase64 {c : Char} (base64 : isBase64 c = true) : isPlain c = true := by
  simp only [isBase64, Bool.or_eq_true, decide_eq_true_eq] at base64
  rcases base64 with (((letter | digit) | rfl) | rfl) | rfl
  · exact isPlain_of_isIDChar (by simp [isIDChar, letter])
  · exact isPlain_of_isIDChar (isIDChar_of_isDigit digit)
  all_goals decide

theorem PrivateText.plain {text : String} (isPrivate : PrivateText text) : Plain text := by
  cases isPrivate with
  | placeholder => exact chars_of_all (by decide)
  | key key =>
    intro c member
    rw [Key.text, String.toList_ofList] at member
    exact isPlain_of_isBase64 (isBase64_encodeBase64 key.bytes c member)

theorem plain_of_validWGPublicKey {key : String} (valid : validWGPublicKey key = true) : Plain key := by
  simp only [validWGPublicKey, Bool.and_eq_true, decide_eq_true_eq, all_eq_true] at valid
  obtain ⟨⟨-, digits⟩, padding⟩ := valid
  intro c member
  rw [← take_append_drop 43 key.toList, padding, mem_append, mem_singleton] at member
  refine isPlain_of_isBase64 ?_
  rcases member with inDigits | rfl
  · simp only [isBase64, digits c inDigits, Bool.true_or]
  · decide

theorem isPlain_of_isInterfaceChar {c : Char} (usable : isInterfaceChar c = true) : isPlain c = true := by
  simp only [isInterfaceChar, Bool.or_eq_true, decide_eq_true_eq] at usable
  refine isPlain_of_isIDChar ?_
  rcases usable with (letter | digit) | rfl
  · simp [isIDChar, isLetter, letter]
  · exact isIDChar_of_isDigit digit
  · decide

theorem plain_wgInterfaceNameForEdge (env : Externals) (remoteName edgeID : String) (backup : Bool) :
    Plain (wgInterfaceNameForEdge env remoteName edgeID backup) :=
  fun c member => isPlain_of_isInterfaceChar ((wgInterfaceNameForEdge_usable env remoteName edgeID backup).chars c member)

theorem inert_of_name {name : String} (chars : ∀ c ∈ name.toList, (isIDChar c || c = ' ') = true) :
    Place.comment.Inert name := by
  intro c member
  have legal := chars c member
  simp only [Bool.or_eq_true, decide_eq_true_eq] at legal
  rcases legal with isID | rfl
  · exact forbids_of_isPlain .comment (isPlain_of_isIDChar isID)
  · decide

theorem inert_of_host {host : String} (chars : ∀ c ∈ host.toList, (isIDChar c || c = ':' || c = '[' || c = ']') = true) :
    Place.setting.Inert host := by
  intro c member
  have legal := chars c member
  simp only [Bool.or_eq_true, decide_eq_true_eq] at legal
  rcases legal with ((isID | rfl) | rfl) | rfl
  · exact forbids_of_isPlain .setting (isPlain_of_isIDChar isID)
  all_goals decide

theorem inert_formatEndpoint {host : String} (inert : Place.setting.Inert host) (port : Int) :
    Place.setting.Inert (formatEndpoint host port) := by
  have number := (plain_itoa port).inert .setting
  have leading : Place.setting.Inert "[" := chars_of_all (by decide)
  have closing : Place.setting.Inert "]:" := chars_of_all (by decide)
  have between : Place.setting.Inert ":" := chars_of_all (by decide)
  rw [formatEndpoint]
  split
  · exact ((leading.append inert).append closing).append number
  · exact (inert.append between).append number

def KeysPaired (keys : Keys) (topo : Topology) : Prop :=
  ∀ node ∈ topo.nodes, ∃ pair, keys node.id = some pair ∧ Paired node pair

/-- What a peer brings to its configuration besides the link-local address. -/
structure CleanPeer (peer : PeerInfo) : Prop where
  interfaceName : Plain peer.interfaceName
  nodeName : Place.comment.Inert peer.nodeName
  localTransitIP : Plain peer.localTransitIP
  overlayIP : Plain peer.overlayIP
  clientOverlayIP : Plain peer.clientOverlayIP
  publicKey : Plain peer.publicKey ∧ peer.publicKey ≠ ""
  allowedIPs : ∀ item ∈ peer.allowedIPs, Plain item ∧ item ≠ ""
  endpoint : Place.setting.Inert peer.endpoint

theorem inert_empty (place : Place) : place.Inert "" := by simp [Place.Inert]

theorem CleanPeer.ofClient {peer : PeerInfo} (clean : CleanPeer peer) : CleanPeer peer.ofClient :=
  { clean with
    clientOverlayIP := clean.overlayIP
    allowedIPs := by
      intro item member
      rw [mem_singleton.mp member]
      exact ⟨clean.overlayIP.append (chars_of_all (by decide)), by simp⟩ }

theorem CleanPeer.dialing {peer : PeerInfo} (clean : CleanPeer peer) {endpoint : String}
    (inert : Place.setting.Inert endpoint) (persistentKeepalive linkCost : Int) :
    CleanPeer { peer with endpoint, persistentKeepalive, linkCost } :=
  { clean with endpoint := inert }

section

variable {env : Externals} {fallback : MimicFallback} {keys : Keys} {topo : Topology} {reserved : Resources}
  {allocations : Allocations} {peers : Peers} {link : ResolvedEdge} {alloc : PairAllocation} {nodes : List Node}
  {entry : String × PeerInfo}

section

variable (accepted : Accepted env topo)

include accepted

theorem cleanPeer_base (paired : KeysPaired keys topo) {remote : Node}
    (member : remote ∈ topo.nodes) {resources : Oriented} (transit : Plain resources.fromTransitIP) (edge : Edge)
    (owner : Node) : CleanPeer (basePeer env fallback keys edge owner remote resources) := by
  obtain ⟨pair, isPair, good⟩ := paired remote member
  have isKey : (keys.get remote.id).publicKey = pair.publicKey := by rw [Keys.get, isPair, Option.getD_some]
  refine
    { interfaceName := plain_wgInterfaceNameForEdge _ _ _ _
      nodeName := inert_of_name (accepted.node_name_chars member)
      localTransitIP := transit
      overlayIP := ?overlay
      clientOverlayIP := by simp [Plain, basePeer]
      publicKey := ?key
      allowedIPs := ?allowed
      endpoint := inert_empty _ }
  case overlay =>
    change Plain remote.overlayIP
    rcases accepted.node_overlayIP member with unset | ⟨ip, parsed⟩
    · rw [unset]
      simp [Plain]
    · exact plain_of_parseIP parsed
  case key =>
    change Plain (keys.get remote.id).publicKey ∧ (keys.get remote.id).publicKey ≠ ""
    have set := good.publicSet
    rw [isKey, good.publicKey]
    rw [good.publicKey] at set
    exact ⟨plain_of_validWGPublicKey (accepted.node_publicKey member set), set⟩
  case allowed =>
    change ∀ item ∈ ["0.0.0.0/0", "::/0"], Plain item ∧ item ≠ ""
    simp only [forall_mem_cons]
    exact ⟨⟨chars_of_all (by decide), by decide⟩, ⟨chars_of_all (by decide), by decide⟩, by simp⟩

theorem inert_forwardEndpoint {edge : Edge} (member : edge ∈ topo.edges)
    (alloc : PairAllocation) : Place.setting.Inert (forwardEndpoint edge alloc) := by
  rw [forwardEndpoint]
  split
  · exact inert_empty _
  · exact inert_formatEndpoint (inert_of_host (accepted.edge_endpointHost_chars member)) _

theorem inert_reverseEndpoint (member : link.fromNode ∈ topo.nodes)
    (alloc : PairAllocation) : Place.setting.Inert (reverseEndpoint topo link alloc) := by
  rw [reverseEndpoint]
  split
  case isTrue => exact inert_empty _
  case isFalse =>
    split
    case h_1 edge found =>
      have isEdge := mem_reverse.mp (mem_of_find?_eq_some (Option.filter_eq_some_iff.mp found).1)
      exact inert_formatEndpoint (inert_of_host (accepted.edge_endpointHost_chars isEdge)) _
    case h_2 =>
      split
      case h_1 endpoint rest _ listed =>
        have isEndpoint : endpoint ∈ link.fromNode.publicEndpoints := listed ▸ mem_cons_self
        exact inert_formatEndpoint (inert_of_host (accepted.node_publicEndpoint_chars member isEndpoint)) _
      case h_2 => exact inert_empty _

theorem plain_transit (given : LinkAllocated topo reserved allocations link alloc) :
    Plain alloc.localTransit ∧ Plain alloc.remoteTransit := by
  obtain ⟨ports, transit, linkLocal, -, isTransit, -, rfl⟩ := expectedAllocation_some given.expected
  have parses := expectedTransit_parses accepted given.member isTransit
  obtain ⟨first, isFirst⟩ := parses transit.1 (by simp [pairMarks])
  obtain ⟨second, isSecond⟩ := parses transit.2 (by simp [pairMarks])
  exact ⟨plain_of_parseIP isFirst, plain_of_parseIP isSecond⟩

theorem endPeers_clean (paired : KeysPaired keys topo) (member : link ∈ topo.firstEdges)
    (given : LinkAllocated topo reserved allocations link alloc) :
    ∀ entry ∈ endPeers env fallback keys topo link alloc, CleanPeer entry.2 := by
  have resolved := firstEdges_resolved member
  obtain ⟨inEdges, -, isFrom, isTo⟩ := mem_resolvedEdges.mp resolved
  have fromNode := (Topology.node?_mem isFrom).1
  have toNode := (Topology.node?_mem isTo).1
  have notClient := accepted.toNode_not_client resolved
  have forward : alloc.fromNodeID = link.fromNode.id := given.filled.fromNodeID
  obtain ⟨near, far⟩ := plain_transit accepted given
  have base : ∀ (owner : Node) {remote : Node} (isForward : Bool), remote ∈ topo.nodes →
      CleanPeer (basePeer env fallback keys link.edge owner remote (alloc.oriented isForward)) := by
    intro owner remote isForward inNodes
    refine cleanPeer_base accepted paired inNodes ?_ link.edge owner
    cases isForward
    · exact far
    · exact near
  rw [endPeers]
  split
  case isTrue =>
    intro entry isEntry
    rw [mem_singleton.mp isEntry]
    exact (base link.toNode _ fromNode).ofClient
  case isFalse =>
    intro entry isEntry
    rcases mem_pair.mp isEntry with rfl | rfl
    · rw [forwardPeer, notClient]
      exact (base link.fromNode true toNode).dialing (inert_forwardEndpoint accepted inEdges alloc) _ _
    · exact (base link.toNode false fromNode).dialing (inert_reverseEndpoint accepted fromNode alloc) _ _

end

/-- A configuration whose values are inert where they stand, and that reads as the template means it. -/
structure SafeConfig (node : Node) (peer : PeerInfo) (pair : KeyPair) : Prop where
  inert : ∀ value ∈ interpolated node peer pair, value.1.Inert value.2
  reads : readConfig (renderPerPeerWireGuardConfig node peer pair) = perPeerDirectives peer pair

theorem CleanPeer.safe_iff {peer : PeerInfo} (clean : CleanPeer peer) {node : Node} {pair : KeyPair}
    (name : Place.comment.Inert node.name) (privateText : PrivateText pair.privateKey) :
    SafeConfig node peer pair ↔ Place.shell.Inert peer.localLinkLocal := by
  constructor
  · intro safe
    exact safe.inert (.shell, peer.localLinkLocal) (by simp [interpolated])
  · intro linkLocal
    have inert : ∀ value ∈ interpolated node peer pair, value.1.Inert value.2 := by
      simp only [interpolated, mem_append, mem_map, mem_cons, not_mem_nil, or_false]
      rintro value (((rfl | rfl | rfl | rfl | rfl | rfl | rfl | rfl | rfl | rfl) | ⟨item, member, rfl⟩) | rfl | rfl)
      · exact clean.interfaceName.inert _
      · exact name
      · exact clean.nodeName
      · exact privateText.plain.inert _
      · exact clean.localTransitIP.inert _
      · exact (plain_int _).inert _
      · exact (plain_int _).inert _
      · exact linkLocal
      · exact clean.clientOverlayIP.inert _
      · exact clean.publicKey.1.inert _
      · exact (clean.allowedIPs item member).1.inert _
      · exact clean.endpoint
      · exact (plain_int _).inert _
    exact ⟨inert, readConfig_perPeer inert privateText.ne_empty clean.publicKey.2
      fun item member => (clean.allowedIPs item member).2⟩

def Rendered (topo : Topology) (keys : Keys) (entry : String × PeerInfo) (node : Node) (pair : KeyPair)
    (config : String × String) : Prop :=
  topo.node? entry.1 = some node ∧ keys entry.1 = some pair ∧
    config = (entry.1 ++ ":" ++ entry.2.interfaceName, renderPerPeerWireGuardConfig node entry.2 pair)

theorem renderAll_ok (known : ∀ entry ∈ peers, ∃ node pair, topo.node? entry.1 = some node ∧ keys entry.1 = some pair) :
    ∃ configs, renderAllWireGuardConfigs topo keys peers = .ok configs ∧
      List.Forall₂ (fun entry config => ∃ node pair, Rendered topo keys entry node pair config) peers configs := by
  induction peers with
  | nil => exact ⟨[], rfl, .nil⟩
  | cons entry rest ih =>
    obtain ⟨⟨node, pair, isNode, isPair⟩, later⟩ := forall_mem_cons.mp known
    obtain ⟨configs, rendered, each⟩ := ih later
    refine ⟨_ :: configs, ?_, .cons ⟨node, pair, isNode, isPair, rfl⟩ each⟩
    simp only [renderAllWireGuardConfigs, isNode, isPair, rendered]

def ConfigsSafe (result : CompileResult) (keys : Keys) : Prop :=
  ∃ configs, renderAllWireGuardConfigs result.topology keys result.peers = .ok configs ∧
    List.Forall₂ (fun entry config => ∃ node pair, Rendered result.topology keys entry node pair config ∧
      SafeConfig node entry.2 pair) result.peers configs

theorem configsSafe_iff {result : CompileResult} :
    ConfigsSafe result keys ↔ ∀ entry ∈ result.peers, ∃ node pair, result.topology.node? entry.1 = some node ∧
      keys entry.1 = some pair ∧ SafeConfig node entry.2 pair := by
  constructor
  · rintro ⟨configs, -, each⟩
    refine ((List.forall₂_and_left (R := fun _ _ => True) _ _).mp (each.imp fun entry config => ?_)).1
    rintro ⟨node, pair, ⟨isNode, isPair, -⟩, safe⟩
    exact ⟨⟨node, pair, isNode, isPair, safe⟩, trivial⟩
  · intro safe
    have known : ∀ entry ∈ result.peers, ∃ node pair,
        result.topology.node? entry.1 = some node ∧ keys entry.1 = some pair := by
      intro entry member
      obtain ⟨node, pair, isNode, isPair, -⟩ := safe entry member
      exact ⟨node, pair, isNode, isPair⟩
    obtain ⟨configs, rendered, each⟩ := renderAll_ok known
    refine ⟨configs, rendered, ((List.forall₂_and_left _ _).mpr ⟨safe, each⟩).imp fun entry config => ?_⟩
    rintro ⟨⟨node, pair, isNode, isPair, good⟩, node', pair', isNode', isPair', written⟩
    obtain rfl := Option.mem_unique isNode isNode'
    obtain rfl := Option.mem_unique isPair isPair'
    exact ⟨node, pair, ⟨isNode, isPair, written⟩, good⟩

def LinkLocalPinsInert (topo : Topology) : Prop :=
  ∀ link ∈ groupLinks topo, ∀ pins, pinnedLinkLocal link = some pins →
    (link.fromNode.isClient = false → Place.shell.Inert pins.1) ∧ Place.shell.Inert pins.2

theorem linkLocals_cases (given : LinkAllocated topo reserved allocations link alloc) :
    (pinnedLinkLocal (linkEntity topo link) = none ∧ Plain alloc.localLL ∧ Plain alloc.remoteLL) ∨
      pinnedLinkLocal (linkEntity topo link) = some (alloc.localLL, alloc.remoteLL) := by
  obtain ⟨ports, transit, linkLocal, -, -, isLinkLocal, rfl⟩ := expectedAllocation_some given.expected
  rw [expectedLinkLocal] at isLinkLocal
  cases pinned : pinnedLinkLocal (linkEntity topo link) with
  | none =>
    rw [pinned] at isLinkLocal
    obtain ⟨index, -, rfl⟩ := Option.map_eq_some_iff.mp isLinkLocal
    exact .inl ⟨rfl, plain_linkLocalText _, plain_linkLocalText _⟩
  | some pins =>
    rw [pinned] at isLinkLocal
    cases isLinkLocal
    exact .inr rfl

theorem endPeers_linkLocals_iff (accepted : Accepted env topo) (member : link ∈ topo.firstEdges)
    (given : LinkAllocated topo reserved allocations link alloc) :
    (∀ entry ∈ endPeers env fallback keys topo link alloc, Place.shell.Inert entry.2.localLinkLocal) ↔
      ∀ pins, pinnedLinkLocal (linkEntity topo link) = some pins →
        (link.fromNode.isClient = false → Place.shell.Inert pins.1) ∧ Place.shell.Inert pins.2 := by
  have notClient := accepted.toNode_not_client (firstEdges_resolved member)
  have forward : alloc.fromNodeID = link.fromNode.id := given.filled.fromNodeID
  have toEnd := (toPeer_ends env fallback keys topo forward).2.2.2.2.1
  have fromEnd := (forwardPeer_ends env fallback keys topo alloc notClient).2.2.2.2.1
  have ends : (∀ entry ∈ endPeers env fallback keys topo link alloc, Place.shell.Inert entry.2.localLinkLocal) ↔
      (link.fromNode.isClient = false → Place.shell.Inert alloc.localLL) ∧ Place.shell.Inert alloc.remoteLL := by
    rw [toPeer] at toEnd
    cases client : link.fromNode.isClient with
    | true =>
      rw [client, if_pos rfl] at toEnd
      simp [endPeers, client, toEnd]
    | false =>
      rw [client, if_neg (by decide)] at toEnd
      simp [endPeers, client, toEnd, fromEnd]
  rw [ends]
  rcases linkLocals_cases given with ⟨unpinned, near, far⟩ | pinned
  · simp [unpinned, near.inert .shell, far.inert .shell]
  · simp only [pinned, Option.some.injEq, forall_eq']

theorem linkLocalPinsInert_allocated (all : AllAddressed topo nodes) :
    LinkLocalPinsInert (allocatedTopology topo nodes) ↔ LinkLocalPinsInert topo := by
  have bare : ∀ topo, LinkLocalPinsInert topo ↔ ∀ link ∈ (groupLinks topo).map LinkEntity.bare, ∀ pins,
      pinnedLinkLocal link = some pins →
        (link.fromNode.isClient = false → Place.shell.Inert pins.1) ∧ Place.shell.Inert pins.2 := by
    intro topo
    rw [forall_mem_map]
    rfl
  rw [bare, bare, allocated_groupLinks all]

theorem KeysPaired.allocated (paired : KeysPaired keys topo) (all : AllAddressed topo nodes) :
    KeysPaired keys (allocatedTopology topo nodes) := by
  intro node member
  obtain ⟨after, wasAfter, rfl⟩ := mem_map.mp member
  obtain ⟨before, wasMember, step⟩ := forall₂_origin all.addressed wasAfter
  obtain ⟨pair, isPair, good⟩ := paired before wasMember
  rw [step.same]
  exact ⟨pair, isPair, good.publicKey, good.publicSet, good.privateText⟩

theorem endPeers_owner (member : entry ∈ endPeers env fallback keys topo link alloc) :
    entry.1 = link.fromNode.id ∨ entry.1 = link.toNode.id := by
  rw [endPeers] at member
  split at member
  case isTrue => exact .inr (congrArg Prod.fst (mem_singleton.mp member))
  case isFalse => exact (mem_pair.mp member).imp (congrArg Prod.fst) (congrArg Prod.fst)

theorem derived_safe_iff (derives : Derives env fallback keys topo reserved peers allocations)
    (paired : KeysPaired keys topo) {entry : String × PeerInfo} (member : entry ∈ peers) :
    (∃ node pair, topo.node? entry.1 = some node ∧ keys entry.1 = some pair ∧ SafeConfig node entry.2 pair) ↔
      Place.shell.Inert entry.2.localLinkLocal := by
  have accepted := derives.accepted
  obtain ⟨link, first, alloc, given, isEntry⟩ := derives.mem_peers.mp member
  have clean := endPeers_clean accepted paired first given entry isEntry
  obtain ⟨-, -, isFrom, isTo⟩ := mem_resolvedEdges.mp (firstEdges_resolved first)
  obtain ⟨node, inNodes, owner⟩ : ∃ node ∈ topo.nodes, entry.1 = node.id :=
    (endPeers_owner isEntry).elim (fun isOwner => ⟨_, (Topology.node?_mem isFrom).1, isOwner⟩)
      fun isOwner => ⟨_, (Topology.node?_mem isTo).1, isOwner⟩
  obtain ⟨pair, isPair, good⟩ := paired node inNodes
  have iff := clean.safe_iff (inert_of_name (accepted.node_name_chars inNodes)) good.privateText
  rw [owner, accepted.node?_eq inNodes, isPair]
  constructor
  · rintro ⟨found, foundPair, isNode, isFoundPair, safe⟩
    cases isNode
    cases isFoundPair
    exact iff.mp safe
  · exact fun inert => ⟨node, pair, rfl, rfl, iff.mpr inert⟩

end

/-- What `wg-quick` reads from the configurations of a compile, and hands to a shell, is what the template means exactly
when the operator's link-local pins hold nothing a shell acts on. -/
theorem wireguard_configs_safe_iff {env : Externals} {settings : Settings} {custody : KeyCustody} {keygen : Keygen}
    {input topo : Topology} {keys : Keys} {result : CompileResult}
    (generated : generateKeysWith custody keygen input = .ok (topo, keys))
    (compiled : compileAt env settings keys topo = .ok result) :
    ConfigsSafe result keys ↔ LinkLocalPinsInert topo.withDefaults := by
  obtain ⟨nodes, allocations, run⟩ := compileAt_ok compiled
  have derives := run.derives
  have sameNodes : topo.withDefaults.nodes = topo.nodes := by
    unfold Topology.withDefaults
    split <;> rfl
  have distinct := run.accepted.nodeIDs_nodup
  rw [sameNodes] at distinct
  have paired : KeysPaired keys topo.withDefaults := by
    rw [KeysPaired, sameNodes]
    exact generateKeysWith_paired generated distinct
  have perEntry : ∀ entry ∈ result.peers, (∃ node pair, result.topology.node? entry.1 = some node ∧
      keys entry.1 = some pair ∧ SafeConfig node entry.2 pair) ↔ Place.shell.Inert entry.2.localLinkLocal := by
    intro entry member
    rw [run.topology]
    exact derived_safe_iff derives (paired.allocated run.allAddressed) member
  rw [configsSafe_iff, forall₂_congr perEntry, ← linkLocalPinsInert_allocated run.allAddressed, LinkLocalPinsInert,
    groupLinks, forall_mem_map]
  constructor
  · intro inert link first
    obtain ⟨alloc, given⟩ := derives.given first
    exact (endPeers_linkLocals_iff derives.accepted first given).mp fun entry member =>
      inert entry (derives.mem_peers.mpr ⟨link, first, alloc, given, member⟩)
  · intro inert entry member
    obtain ⟨link, first, alloc, given, isEntry⟩ := derives.mem_peers.mp member
    exact (endPeers_linkLocals_iff derives.accepted first given).mpr (inert link first) entry isEntry

/-- Keys that depend on the node's position alone. -/
def sampleKeygen : Keygen where
  decode := fun _ => none
  publicKey := id
  fresh := fun position => some ⟨List.replicate 32 (BitVec.ofNat 8 position), length_replicate⟩

/-- The two routers, their link with a pinned link-local address. -/
def samplePinned (linkLocal : String) : Topology :=
  { samplePair with
    edges := [{ sampleEdge "e1" "a" "b" with pinnedFromLinkLocal := linkLocal, pinnedToLinkLocal := "fe80::2" }] }

theorem samplePinned_safe : ∃ topo keys result,
    generateKeysWith .airGap sampleKeygen (samplePinned "fe80::1") = .ok (topo, keys) ∧
      compileAt sampleEnv {} keys topo = .ok result ∧ ConfigsSafe result keys := by
  obtain ⟨⟨topo, keys⟩, generated, evaluated⟩ : ∃ out,
      generateKeysWith .airGap sampleKeygen (samplePinned "fe80::1") = .ok out ∧
        (compileAt sampleEnv {} out.2 out.1).toOption.isSome = true ∧
        ∀ link ∈ groupLinks out.1.withDefaults, (pinnedLinkLocal link).all (fun pins =>
          pins.1.toList.all (fun c => !Place.shell.forbids c) && pins.2.toList.all fun c => !Place.shell.forbids c) =
      true :=
    exists_ok_and (by decide +kernel)
  simp only [Bool.and_eq_true, all_eq_true, Option.all_eq_true, Bool.not_eq_true'] at evaluated
  obtain ⟨result, compiled⟩ := exists_ok evaluated.1
  refine ⟨topo, keys, result, generated, compiled, (wireguard_configs_safe_iff generated compiled).mpr ?_⟩
  intro link member pins pinned
  exact ⟨fun _ => (evaluated.2 link member pins pinned).1, (evaluated.2 link member pins pinned).2⟩

def injectedAddress : String := "fe80::1/64 dev %i" ++ "\n" ++ "PostUp = reboot #"

/-- A configuration with that address has `wg-quick` reboot the host. -/
theorem injectedAddress_runs {node : Node} {peer : PeerInfo} {pair : KeyPair}
    (address : peer.localLinkLocal = injectedAddress) :
    ⟨["PostUp"], ["reboot"]⟩ ∈ readConfig (renderPerPeerWireGuardConfig node peer pair) := by
  have isLine : settingLine "PostUp" (commandText "ip -6 addr add" (injectedAddress ++ "/64")) =
      "PostUp = ip -6 addr add fe80::1/64 dev %i" ++ "\n" ++
        settingLine "PostUp" "reboot #/64 dev %i 2>/dev/null || true" := by
    decide +kernel
  have inFile : settingLine "PostUp" (commandText "ip -6 addr add" (peer.localLinkLocal ++ "/64")) ∈
      perPeerLines node peer pair := by
    simp [perPeerLines]
  rw [address, isLine] at inFile
  exact readConfig_broken inFile (chars_of_all (by decide +kernel)) (by decide +kernel)

/-- The pinned address is accepted, and a configuration reads as a template with one more command. -/
theorem samplePinned_injected : ∃ topo keys result,
    generateKeysWith .airGap sampleKeygen (samplePinned injectedAddress) = .ok (topo, keys) ∧
      compileAt sampleEnv {} keys topo = .ok result ∧ ¬ ConfigsSafe result keys ∧
      ∃ entry ∈ result.peers, ∀ node pair,
        ⟨["PostUp"], ["reboot"]⟩ ∈ readConfig (renderPerPeerWireGuardConfig node entry.2 pair) := by
  obtain ⟨⟨topo, keys⟩, generated, evaluated⟩ : ∃ out,
      generateKeysWith .airGap sampleKeygen (samplePinned injectedAddress) = .ok out ∧
        (compileAt sampleEnv {} out.2 out.1).toOption.any (fun result =>
          decide (∃ entry ∈ result.peers, entry.2.localLinkLocal = injectedAddress)) = true :=
    exists_ok_and (by decide +kernel)
  obtain ⟨result, compiled, entry, member, address⟩ := exists_ok_and evaluated
  refine ⟨topo, keys, result, generated, compiled, ?_, entry, member, fun _ _ => injectedAddress_runs address⟩
  intro safe
  obtain ⟨node, pair, -, -, good⟩ := configsSafe_iff.mp safe entry member
  have inert := good.inert (.shell, entry.2.localLinkLocal) (by simp [interpolated])
  have breaks : '\n' ∈ entry.2.localLinkLocal.toList := by
    rw [address]
    decide
  exact inert.unbroken _ breaks rfl

end Yaog.Renderer
