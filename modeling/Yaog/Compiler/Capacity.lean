import Yaog.Compiler.LinkPeers

/-!
# The room the schema leaves

The schema admits 10000 edges. A link takes at most one port of a node, pinned or not, and 13716 ports stand above
the base; a link holds at most two link-local addresses, and each of them blocks at most one candidate pair.
-/

namespace Yaog.Compiler

open Net Data Validator List

/-- The loop of `gapFillLinkLocalPair`, which has no bound of its own, cut off after `fuel` candidates. -/
def searchLinkLocal (used : List String) : (fuel index : Nat) → Option (String × String)
  | 0, _ => none
  | fuel + 1, index =>
    if linkLocalFree used index then some (allocateLinkLocalPair index)
    else searchLinkLocal used fuel (index + 1)

theorem searchLinkLocal_eq (used : List String) (fuel index : Nat) :
    searchLinkLocal used fuel index =
      ((List.range' index fuel).find? (linkLocalFree used)).map allocateLinkLocalPair := by
  induction fuel generalizing index with
  | zero => rfl
  | succ fuel ih =>
    rw [searchLinkLocal, range'_succ]
    cases free : linkLocalFree used index with
    | true => simp [free]
    | false => simp [free, ih]

theorem searchLinkLocal_ends {used : Resources} {fuel : Nat} (enough : used.linkLocals.length < fuel) :
    searchLinkLocal used.linkLocals fuel 0 = some (gapFillLinkLocalPair used) := by
  have found := Option.some_get (exists_linkLocalFree used.linkLocals)
  have early : List.range (used.linkLocals.length + 1) <+: List.range fuel := by
    obtain ⟨more, rfl⟩ := Nat.exists_eq_add_of_le enough
    rw [Nat.succ_eq_add_one, range_add (n := used.linkLocals.length + 1)]
    exact prefix_append _ _
  rw [searchLinkLocal_eq, ← range_eq_range', early.find?_eq_some found.symm, Option.map_some]
  rfl

section

variable {links done rest : List LinkEntity} {link : LinkEntity} {used : Resources} {name : String}

theorem freePorts_length (used : List (String × Int)) (nodeID : String) :
    13716 ≤ (freePorts used nodeID).length + used.countP fun entry => entry.1 = nodeID := by
  let taken := portCandidates.filter fun port : Nat => !decide ((nodeID, (port : Int)) ∉ used)
  have distinct : (taken.map fun port : Nat => (nodeID, (port : Int))).Nodup := by
    refine List.Nodup.map (fun port port' same => ?_) (List.Nodup.filter _ nodup_range')
    exact_mod_cast (Prod.mk.inj same).2
  have inUse : (taken.map fun port : Nat => (nodeID, (port : Int))) ⊆ used.filter fun entry => entry.1 = nodeID := by
    intro entry member
    obtain ⟨port, isTaken, rfl⟩ := mem_map.mp member
    exact mem_filter.mpr ⟨by simpa using (mem_filter.mp isTaken).2, by simp⟩
  have few := (distinct.subperm inUse).length_le
  have total := length_eq_length_filter_add (l := portCandidates)
    fun port : Nat => decide ((nodeID, (port : Int)) ∉ used)
  have size : portCandidates.length = 13716 := length_range'
  rw [length_map] at few
  rw [freePorts, countP_eq_length_filter]
  exact size ▸ total ▸ Nat.add_le_add_left few _

theorem portsAt_le (distinct : link.fromNode.id ≠ link.toNode.id) (nodeID : String) :
    (pinnedResources link).ports.countP (fun entry => entry.1 = nodeID) + (if needsPort nodeID link then 1 else 0) ≤
      1 := by
  cases pinned : pinnedPorts link with
  | none =>
    have empty : (pinnedResources link).ports = [] := by simp [pinnedResources, pinned]
    rw [empty, countP_nil]
    split <;> omega
  | some ports =>
    have asksNone : needsPort nodeID link = false := by simp [needsPort, pinned]
    have entries : (pinnedResources link).ports = (if ports.1 = 0 then [] else [(link.fromNode.id, ports.1)])
        ++ if ports.2 = 0 then [] else [(link.toNode.id, ports.2)] := by simp [pinnedResources, pinned]
    rw [asksNone, entries]
    by_cases fromHere : link.fromNode.id = nodeID
    · have toThere : link.toNode.id ≠ nodeID := fun here => distinct (fromHere.trans here.symm)
      split <;> split <;> simp [fromHere, toThere]
    · split <;> split <;> simp [fromHere, countP_cons, countP_nil] <;> split <;> omega

section

variable (distinct : ∀ link ∈ links, link.fromNode.id ≠ link.toNode.id)

include distinct

theorem portsAt_total (nodeID : String) :
    (links.flatMap fun link => (pinnedResources link).ports).countP (fun entry => entry.1 = nodeID)
      + links.countP (needsPort nodeID) ≤ links.length := by
  induction links with
  | nil => simp
  | cons link rest ih =>
    have here := portsAt_le (distinct link mem_cons_self) nodeID
    have later := ih fun other member => distinct other (mem_cons_of_mem _ member)
    rw [flatMap_cons, countP_append, countP_cons, length_cons]
    omega

private theorem portSlot_exists (few : links.length ≤ 13716) (split : done ++ link :: rest = sortLinks links)
    (node : Node) (asks : node.isClient = false → needsPort node.id link = true) :
    ∃ port, portSlot (reservePins {} links) done node = some port := by
  cases client : node.isClient with
  | true => exact ⟨0, by simp [portSlot, portAt, client]⟩
  | false =>
    have pins : (reservePins {} links).ports = links.flatMap fun link => (pinnedResources link).ports := by
      rw [reservePins_eq]
      rfl
    have room := freePorts_length (reservePins {} links).ports node.id
    have total := portsAt_total distinct node.id
    have requests : done.countP (needsPort node.id) < links.countP (needsPort node.id) := by
      rw [← (sortLinks_perm links).countP_eq, ← split, countP_append, countP_cons, asks client, if_pos rfl]
      omega
    have bound : done.countP (needsPort node.id) < (freePorts (reservePins {} links).ports node.id).length := by
      rw [pins] at room ⊢
      omega
    exact ⟨_, (if_neg (by simp [client])).trans (congrArg (Option.map _) (getElem?_eq_getElem bound))⟩

theorem expectedPorts_exists (few : links.length ≤ 13716) (split : done ++ link :: rest = sortLinks links) :
    ∃ ports, expectedPorts (reservePins {} links) done link = some ports := by
  cases pinned : pinnedPorts link with
  | some ports => exact ⟨ports, by simp [expectedPorts, pinned]⟩
  | none =>
    obtain ⟨fromPort, isFrom⟩ := portSlot_exists distinct few split link.fromNode fun client => by
      simp [needsPort, pinned, client]
    obtain ⟨toPort, isTo⟩ := portSlot_exists distinct few split link.toNode fun client => by
      simp [needsPort, pinned, client]
    exact ⟨(fromPort, toPort), by simp [expectedPorts, pinned, isFrom, isTo]⟩

end

/-- The states of the gap-filling loop, each with the links it has still to serve. -/
inductive Reaches (links : List LinkEntity) : Resources → List LinkEntity → Prop
  | start : Reaches links (reservePins {} links) (sortLinks links)
  | round {used used' : Resources} {link : LinkEntity} {rest : List LinkEntity} {alloc : PairAllocation}
      (before : Reaches links used (link :: rest)) (filled : fillLink used link = .ok (alloc, used')) :
      Reaches links used' rest

theorem Reaches.progress (distinct : ∀ link ∈ links, link.fromNode.id ≠ link.toNode.id)
    (reached : Reaches links used rest) :
    ∃ done, done ++ rest = sortLinks links ∧ Progress (reservePins {} links) links.length done used := by
  induction reached with
  | start => exact ⟨[], rfl, Progress.start _ _⟩
  | @round used used' link rest alloc before filled ih =>
    obtain ⟨done, split, progress⟩ := ih
    have size := congrArg List.length split
    rw [length_append, length_cons, (sortLinks_perm links).length_eq] at size
    have inside : link ∈ links := (sortLinks_perm links).mem_iff.mp (split ▸ by simp)
    refine ⟨done ++ [link], by simpa using split, ?_⟩
    exact ((fillLink_fills progress (distinct link inside) (by omega)).of_ok filled).2

/-- What a call of `gapFillLinkLocalPair` returns, and that it returns. -/
structure LinkLocalFits (used : Resources) : Prop where
  ends : ∀ fuel, used.linkLocals.length < fuel →
    searchLinkLocal used.linkLocals fuel 0 = some (gapFillLinkLocalPair used)
  valid : ∀ text ∈ pairMarks (gapFillLinkLocalPair used), ∃ number, 0 < number ∧ number ≤ 0xffff ∧
    text = linkLocalText number ∧ parseIP text = some (twoGroupValue 0xfe80 number)

/-- A round that finds a port at each end and, where its transit pair is found too, a link-local pair. -/
structure RoundFits (used : Resources) (link : LinkEntity) : Prop where
  ports : ∃ found, fillPorts used link = .ok found
  linkLocals : ∀ ports afterPorts transit afterTransit, fillPorts used link = .ok (ports, afterPorts) →
    fillTransit afterPorts link = .ok (transit, afterTransit) → LinkLocalFits afterTransit

theorem linkLocalFits_of_served {reserved : Resources} {total : Nat}
    (served : LinkLocalsServed reserved total done used) (room : done.length < total) (few : total ≤ 10000)
    (pins : reserved.linkLocals.length ≤ 2 * total) : LinkLocalFits used := by
  refine ⟨fun fuel => searchLinkLocal_ends, ?_⟩
  obtain ⟨index, slot, filled⟩ := gapFillLinkLocalPair_served served (Nat.lt_of_le_of_lt countP_le_length room)
  have bound := mem_range.mp (mem_of_mem_filter (mem_of_getElem? slot))
  have parses : ∀ number, number ≤ 0xffff → parseIP (linkLocalText number) = some (twoGroupValue 0xfe80 number) := by
    intro number small
    rw [linkLocalText_eq, parseIP_twoGroupText (by decide) (by omega)]
  intro text inPair
  rw [filled, pairMarks, mem_pair] at inPair
  rcases inPair with rfl | rfl
  · exact ⟨2 * index + 1, by omega, by omega, rfl, parses _ (by omega)⟩
  · exact ⟨2 * index + 2, by omega, by omega, rfl, parses _ (by omega)⟩

theorem Reaches.fits (distinct : ∀ link ∈ links, link.fromNode.id ≠ link.toNode.id) (few : links.length ≤ 10000)
    (reached : Reaches links used (link :: rest)) : RoundFits used link := by
  obtain ⟨done, split, progress⟩ := reached.progress distinct
  have inside : link ∈ links := (sortLinks_perm links).mem_iff.mp (split ▸ by simp)
  have size := congrArg List.length split
  rw [length_append, length_cons, (sortLinks_perm links).length_eq] at size
  refine ⟨?ports, ?linkLocals⟩
  case ports =>
    obtain ⟨ports, expected⟩ := expectedPorts_exists distinct (by omega) split
    cases filled : fillPorts used link with
    | ok found => exact ⟨found, rfl⟩
    | error reason =>
      have unserved := (fillPorts_fills (distinct link inside) progress.ports).of_error filled
      rw [expected] at unserved
      cases unserved
  case linkLocals =>
    intro ports afterPorts transit afterTransit first second
    obtain ⟨-, sameTransit, sameLinkLocals, -⟩ := (fillPorts_fills (distinct link inside) progress.ports).of_ok first
    have served : TransitServed (reservePins {} links) done afterPorts := fun cidr => by
      simpa only [sameTransit] using progress.transit cidr
    obtain ⟨-, -, sameLinkLocals', -⟩ := (fillTransit_fills served).of_ok second
    have left : LinkLocalsServed (reservePins {} links) links.length done afterTransit := by
      simpa only [LinkLocalsServed, sameLinkLocals', sameLinkLocals] using progress.linkLocals
    exact linkLocalFits_of_served left (by omega) few (reservePins_linkLocals_length links)

theorem fillLink_exhausted (failed : fillLink used link = .error (.listenPortExhausted name)) :
    fillPorts used link = .error (.listenPortExhausted name) := by
  rw [fillLink] at failed
  cases first : fillPorts used link with
  | error reason => simpa only [first, Except.error.injEq] using failed
  | ok outcome =>
    obtain ⟨ports, afterPorts⟩ := outcome
    cases second : fillTransit afterPorts link with
    | ok outcome => simp [first, second] at failed
    | error reason =>
      -- the transit search has an error of its own
      simp only [first, second, Except.error.injEq] at failed
      subst failed
      rw [fillTransit] at second
      split at second
      case h_1 => cases second
      case h_2 => split at second <;> cases second

theorem fillLinks_exhausted (reached : Reaches links used rest)
    (failed : fillLinks used rest = .error (.listenPortExhausted name)) :
    ∃ used link rest, Reaches links used (link :: rest) ∧ fillPorts used link = .error (.listenPortExhausted name) := by
  induction rest generalizing used with
  | nil => cases failed
  | cons link rest ih =>
    rw [fillLinks] at failed
    cases filled : fillLink used link with
    | error reason =>
      simp only [filled, Except.error.injEq] at failed
      exact ⟨used, link, rest, reached, fillLink_exhausted (failed ▸ filled)⟩
    | ok outcome =>
      obtain ⟨alloc, used'⟩ := outcome
      cases later : fillLinks used' rest with
      | ok allocations => simp [filled, later] at failed
      | error reason =>
        simp only [filled, later, Except.error.injEq] at failed
        exact ih (reached.round filled) (failed ▸ later)

end

section

variable {env : Externals} {fallback : MimicFallback} {keys : Keys} {topo : Topology} {reserved : Resources}
  {allocations : Allocations} {peers : Peers} {link : ResolvedEdge} {alloc : PairAllocation}

/-- The ports the interfaces of the nodes listen on: one for each peer, and the shared interface of each client. -/
def listenPorts (peers : Peers) (configs : List ClientPeerInfo) : List (String × Int) :=
  peers.map (fun entry => (entry.1, entry.2.listenPort)) ++ configs.map fun config => (config.nodeID, config.listenPort)

def PortsFit (ports : List (String × Int)) : Prop := ports.Nodup ∧ ∀ entry ∈ ports, 1024 ≤ entry.2 ∧ entry.2 ≤ 65535

theorem endPeers_ports (accepted : Accepted env topo) (member : link ∈ topo.firstEdges)
    (given : LinkAllocated topo reserved allocations link alloc) :
    (endPeers env fallback keys topo link alloc).map (fun entry => (entry.1, entry.2.listenPort)) =
      portEntries (linkEntity topo link) (alloc.fromPort, alloc.toPort) := by
  have forward : alloc.fromNodeID = link.fromNode.id := given.filled.fromNodeID
  have toNotClient := accepted.toNode_not_client (firstEdges_resolved member)
  have fromPort : if link.fromNode.isClient then alloc.fromPort = 0 else 0 < alloc.fromPort := given.filled.fromPort
  have toPort : if link.toNode.isClient then alloc.toPort = 0 else 0 < alloc.toPort := given.filled.toPort
  have toSet : alloc.toPort ≠ 0 := by
    rw [toNotClient, if_neg (by decide)] at toPort
    omega
  cases client : link.fromNode.isClient with
  | true =>
    rw [client, if_pos rfl] at fromPort
    have port := (toPeer_ends env fallback keys topo forward).2.1
    simp only [toPeer, client, if_true] at port
    simp [endPeers, client, port, portEntries, fromPort, toSet, linkEntity]
  | false =>
    have fromSet : alloc.fromPort ≠ 0 := by
      rw [client, if_neg (by decide)] at fromPort
      omega
    have near := (forwardPeer_ends env fallback keys topo alloc toNotClient).2.1
    have far := (toPeer_ends env fallback keys topo forward).2.1
    simp only [toPeer, client, Bool.false_eq_true, if_false] at far
    simp [endPeers, client, near, far, portEntries, fromSet, toSet, linkEntity]

theorem portEntries_nodup {link : LinkEntity} (distinct : link.fromNode.id ≠ link.toNode.id) (ports : Int × Int) :
    (portEntries link ports).Nodup := by
  rw [portEntries]
  split <;> split <;> simp [distinct]

def linkEntries (topo : Topology) (allocations : Allocations) (link : ResolvedEdge) :
    List (String × Int) :=
  ((lookupAllocation allocations link.linkKey).map fun alloc =>
    portEntries (linkEntity topo link) (alloc.fromPort, alloc.toPort)).getD []

theorem Allocated.linkEntries_eq (given : LinkAllocated topo reserved allocations link alloc) :
    linkEntries topo allocations link = portEntries (linkEntity topo link) (alloc.fromPort, alloc.toPort) := by
  have lookup : lookupAllocation allocations link.linkKey = some alloc := given.lookup
  rw [linkEntries, lookup, Option.map_some, Option.getD_some]

theorem Derives.ports_eq (derives : Derives env fallback keys topo reserved peers allocations) :
    peers.map (fun entry => (entry.1, entry.2.listenPort)) = topo.firstEdges.flatMap (linkEntries topo allocations) :=
  derives.map_peers fun link member alloc given => by
    rw [given.linkEntries_eq, endPeers_ports derives.accepted member given]

section

variable (derives : Derives env fallback keys topo {} peers allocations)

include derives

theorem Derives.ports_nodup : (peers.map fun entry => (entry.1, entry.2.listenPort)).Nodup := by
  rw [derives.ports_eq, nodup_flatMap]
  refine ⟨fun link member => ?_, ?_⟩
  · obtain ⟨alloc, given⟩ := derives.given member
    rw [given.linkEntries_eq]
    exact portEntries_nodup (firstEdges_ends derives.accepted member) _
  · have keys : topo.firstEdges.Pairwise fun first second => first.linkKey ≠ second.linkKey :=
      pairwise_map.mp (Data.keepFirst_keys_nodup topo.resolvedEdges)
    refine keys.imp_of_mem fun {first second} member member' different => ?_
    obtain ⟨alloc, given⟩ := derives.given member
    obtain ⟨alloc', given'⟩ := derives.given member'
    rw [Function.onFun, given.linkEntries_eq, given'.linkEntries_eq]
    have apart : linkEntity topo first ≠ linkEntity topo second := fun same =>
      different (congrArg LinkEntity.linkKey same)
    intro entry inFirst inSecond
    exact linkPorts_separate (groupLinks_keys_nodup topo) given.member given'.member apart
      (pinnedPorts_apart derives.accepted given.member given'.member apart) (linkAllocation_slots given.expected).1
      (linkAllocation_slots given'.expected).1 inFirst inSecond

theorem Derives.ports_range
    {entry : String × PeerInfo} (member : entry ∈ peers) : 1024 ≤ entry.2.listenPort ∧ entry.2.listenPort ≤ 65535 := by
  obtain ⟨link, inFirsts, alloc, given, inEnds⟩ := derives.mem_peers.mp member
  have inEntries := mem_map_of_mem (f := fun entry => (entry.1, entry.2.listenPort)) inEnds
  rw [endPeers_ports derives.accepted inFirsts given] at inEntries
  exact port_range derives.accepted given.member (linkAllocation_slots given.expected).1 inEntries

theorem Derives.listenPorts_nodup :
    (listenPorts peers (deriveClientConfigs fallback keys topo allocations)).Nodup := by
  refine nodup_append'.mpr ⟨derives.ports_nodup, ?_, ?_⟩
  · refine List.Nodup.of_map Prod.fst ?_
    rw [map_map]
    exact clientConfigs_nodup derives.accepted
  · intro entry ofPeer ofClient
    obtain ⟨peer, inPeers, rfl⟩ := mem_map.mp ofPeer
    obtain ⟨config, inConfigs, same⟩ := mem_map.mp ofClient
    obtain ⟨node, inNodes, configured⟩ := mem_filterMap.mp inConfigs
    obtain ⟨client, owner, -⟩ := clientConfig_owner configured
    have notClient := derives.owner_not_client inNodes inPeers ((Prod.mk.inj same).1.symm.trans owner)
    simp [client] at notClient

theorem Derives.listenPorts_range
    {entry : String × Int} (member : entry ∈ listenPorts peers (deriveClientConfigs fallback keys topo allocations)) :
    1024 ≤ entry.2 ∧ entry.2 ≤ 65535 := by
  rcases mem_append.mp member with ofPeer | ofClient
  · obtain ⟨peer, inPeers, rfl⟩ := mem_map.mp ofPeer
    exact derives.ports_range inPeers
  · obtain ⟨config, inConfigs, rfl⟩ := mem_map.mp ofClient
    obtain ⟨node, inNodes, configured⟩ := mem_filterMap.mp inConfigs
    obtain ⟨-, -, port, -⟩ := clientConfig_owner configured
    have base : wgListenPortBase = 51820 := rfl
    omega

theorem Derives.portsFit :
    PortsFit (listenPorts peers (deriveClientConfigs fallback keys topo allocations)) :=
  ⟨derives.listenPorts_nodup, fun _ => derives.listenPorts_range⟩

end

/-- For a topology the validator accepts, with nothing reserved: the ports of a node are distinct and in range, those
of a whole compile too; no round runs out of ports; every search for a link-local pair ends, at valid addresses. -/
theorem link_resources_suffice (accepted : Accepted env topo) :
    (∀ peers allocations, derivePeersWithDomains env fallback keys topo {} = .ok (peers, allocations) →
      PortsFit (listenPorts peers (deriveClientConfigs fallback keys topo allocations))) ∧
    (∀ settings result, settings.reserved = {} → compileAt env settings keys topo = .ok result →
      PortsFit (listenPorts result.peers result.clientConfigs)) ∧
    (∀ name, preallocateLinkResources (groupLinks topo) {} ≠ .error (.listenPortExhausted name)) ∧
    ∀ used link rest, Reaches (groupLinks topo) used (link :: rest) → RoundFits used link := by
  have fits : ∀ used link rest, Reaches (groupLinks topo) used (link :: rest) → RoundFits used link :=
    fun used link rest reached => reached.fits (groupLinks_ends accepted) (groupLinks_length accepted)
  refine ⟨?derived, ?compiled, ?served, fits⟩
  case derived =>
    intro peers allocations derived
    exact (derives_of_ok accepted derived).portsFit
  case compiled =>
    intro settings result unreserved compiled
    obtain ⟨nodes, allocations, run⟩ := compileAt_ok compiled
    have derives := run.derives
    rw [unreserved] at derives
    rw [run.clientConfigs]
    exact derives.portsFit
  case served =>
    intro name exhausted
    obtain ⟨used, link, rest, reached, failed⟩ := fillLinks_exhausted Reaches.start exhausted
    obtain ⟨found, filled⟩ := (fits used link rest reached).ports
    rw [failed] at filled
    cases filled

end

/-- Pins on the first ports and across the first two link-local pairs. -/
def sampleBlocked : Topology :=
  { sampleClient with
    edges := [{ sampleEdge "e1" "a" "b" with
        pinnedFromPort := 51820, pinnedToPort := 51820, pinnedFromLinkLocal := "fe80::2", pinnedToLinkLocal := "fe80::3" },
      { sampleEdge "e3" "c" "a" with transport := .udp }] }

theorem sampleBlocked_suffice : ∃ peers allocations,
    derivePeersWithDomains sampleEnv .inherit (fun _ => none) sampleBlocked.withDefaults {} = .ok (peers, allocations) ∧
      listenPorts peers (deriveClientConfigs .inherit (fun _ => none) sampleBlocked.withDefaults allocations) =
        [("a", 51820), ("b", 51820), ("a", 51821), ("c", 51820)] ∧
      PortsFit [("a", 51820), ("b", 51820), ("a", 51821), ("c", 51820)] := by
  have accepted : Accepted sampleEnv sampleBlocked.withDefaults :=
    accepted_iff.mp ⟨by decide +kernel, by decide +kernel⟩
  obtain ⟨⟨peers, allocations⟩, derived, ports⟩ : ∃ found,
      derivePeersWithDomains sampleEnv .inherit (fun _ => none) sampleBlocked.withDefaults {} = .ok found ∧
        listenPorts found.1 (deriveClientConfigs .inherit (fun _ => none) sampleBlocked.withDefaults found.2) =
          [("a", 51820), ("b", 51820), ("a", 51821), ("c", 51820)] :=
    ok_of_view (by decide +kernel)
  exact ⟨peers, allocations, derived, ports, ports ▸ (link_resources_suffice accepted).1 _ _ derived⟩

end Yaog.Compiler
