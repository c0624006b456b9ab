import Yaog.Allocator.OrderDependence

/-!
# When the overlay addresses are sound

The allocator and the validator compare the addresses of nodes as texts. An address that is carried in the spelling
of an IPv4 address inside IPv6 is in use, but not under the text the allocator would hand out.
-/

namespace Yaog.Allocator

open Data Net Validator List

variable {host i : Nat} {network : IPv4} {before node : Node} {net : IPNet} {domain : Domain}

def hostIP (network : IPv4) (host : Nat) : IP := IP.ofIPv4 (network + BitVec.ofNat 32 host)

/-- A number below the size of a prefix; with two host bits or more neither the network nor the broadcast address. -/
def IsHost (net : IPNet) (host : Nat) : Prop :=
  host < 2 ^ net.hostBits ∧ (2 ≤ net.hostBits → host ≠ 0 ∧ host + 1 ≠ 2 ^ net.hostBits)

def Reserved (domain : Domain) (ip : IP) : Prop :=
  ∃ range ∈ domain.reservedRanges, (∃ net, parseCIDR range = some net ∧ net.contains ip = true) ∨
    parseCIDR range = none ∧ parseIP range = some ip

def Occupied (usedIPs : List String) (ip : IP) : Prop := ∃ text ∈ usedIPs, parseIP text = some ip

/-- The texts in use once the nodes `done` have been served. -/
def usedBefore (topo : Topology) (done : List Node) : List String := carriedIPs topo.nodes ++ done.map (·.overlayIP)

/-- The lowest host of a domain that is neither reserved nor in use. -/
structure LeastFree (domain : Domain) (net : IPNet) (network : IPv4) (usedIPs : List String) (host : Nat) : Prop where
  isHost : IsHost net host
  unreserved : ¬ Reserved domain (hostIP network host)
  free : ¬ Occupied usedIPs (hostIP network host)
  least : ∀ lower, lower < host → IsHost net lower →
    Reserved domain (hostIP network lower) ∨ Occupied usedIPs (hostIP network lower)

structure Sound (topo : Topology) (after : List Node) : Prop where
  sameNodes : after.map (·.id) = topo.nodes.map (·.id)
  distinct : (after.map fun node => parseIP node.overlayIP).Nodup
  inside : ∀ node ∈ after, ∃ domain net ip, topo.domain? node.domainID = some domain ∧
    parseCIDR domain.cidr = some net ∧ parseIP node.overlayIP = some ip ∧ net.contains ip = true
  kept : ∀ (i : Nat) (before node : Node), topo.nodes[i]? = some before → after[i]? = some node → before.overlayIP ≠ "" →
    node.overlayIP = before.overlayIP
  assigned : ∀ (i : Nat) (before node : Node), topo.nodes[i]? = some before → after[i]? = some node →
    before.overlayIP = "" → ∃ domain net network host, topo.domain? before.domainID = some domain ∧
      parseCIDR domain.cidr = some net ∧ net.ip.to4 = some network ∧ node.overlayIP = hostText network host ∧
      LeastFree domain net network (usedBefore topo (after.take i)) host

/-- No address is used in two spellings: the nodes carry different addresses, and whenever a node is served, below each
host that is in use under another spelling only there is one whose text is not in use. -/
structure SpelledOnce (topo : Topology) : Prop where
  carried : ((carriedIPs topo.nodes).map parseIP).Nodup
  handed : ∀ (i : Nat) (before : Node) (done : List Node), topo.nodes[i]? = some before → before.overlayIP = "" →
    assignFree topo (carriedIPs topo.nodes) (topo.nodes.take i) = .ok done →
    ∀ domain net network, topo.domain? before.domainID = some domain → parseCIDR domain.cidr = some net →
      net.ip.to4 = some network → ∀ host, IsHost net host → ¬ Reserved domain (hostIP network host) →
        hostText network host ∉ usedBefore topo done → Occupied (usedBefore topo done) (hostIP network host) →
          ∃ lower < host, IsHost net lower ∧ ¬ Reserved domain (hostIP network lower) ∧
            hostText network lower ∉ usedBefore topo done

theorem mem_hosts_iff :
    host ∈ List.range' (firstHost net) (endHost net - firstHost net) ↔ IsHost net host := by
  rw [mem_range'_1, IsHost, firstHost, endHost]
  by_cases tiny : net.hostBits ≤ 1
  · simp only [tiny, if_true]
    omega
  · have large : 2 ^ 2 ≤ 2 ^ net.hostBits := Nat.pow_le_pow_right (by decide) (by omega)
    simp only [tiny, if_false]
    omega

theorem parseIP_hostText (network : IPv4) (host : Nat) : parseIP (hostText network host) = some (hostIP network host) :=
  parseIP_format _

theorem mem_reservedSingleIPs {ranges : List String} :
    hostText network host ∈ reservedSingleIPs ranges ↔
      ∃ range ∈ ranges, parseCIDR range = none ∧ parseIP range = some (hostIP network host) := by
  rw [reservedSingleIPs, mem_filterMap]
  refine exists_congr fun range => and_congr_right fun _ => ?_
  cases parseCIDR range with
  | some net => simp
  | none =>
    cases parseIP range with
    | none => simp
    | some ip =>
      simp only [Option.isSome_none, Bool.false_eq_true, if_false, Option.map_some, Option.some.injEq, true_and]
      exact IP.format_eq_iff

theorem notReserved_iff :
    notReserved domain.reservedRanges (hostText network host) = true ↔ ¬ Reserved domain (hostIP network host) := by
  have reserved : Reserved domain (hostIP network host) ↔ hostText network host ∈ reservedSingleIPs domain.reservedRanges ∨
      ∃ net ∈ reservedNets domain.reservedRanges, net.contains (hostIP network host) = true := by
    simp only [Reserved, mem_reservedSingleIPs, reservedNets, mem_filterMap]
    constructor
    · rintro ⟨range, member, ⟨net, parsed, contained⟩ | single⟩
      · exact .inr ⟨net, ⟨range, member, parsed⟩, contained⟩
      · exact .inl ⟨range, member, single⟩
    · rintro (⟨range, member, single⟩ | ⟨net, ⟨range, member, parsed⟩, contained⟩)
      · exact ⟨range, member, .inr single⟩
      · exact ⟨range, member, .inl ⟨net, parsed, contained⟩⟩
  rw [reserved]
  simp [notReserved, parseIP_hostText]

/-- What the allocator finds: the lowest host that is not reserved and whose text is not in use. -/
structure FirstUnused (domain : Domain) (net : IPNet) (network : IPv4) (usedIPs : List String) (host : Nat) : Prop where
  isHost : IsHost net host
  unreserved : ¬ Reserved domain (hostIP network host)
  unused : hostText network host ∉ usedIPs
  least : ∀ other, IsHost net other → ¬ Reserved domain (hostIP network other) → hostText network other ∉ usedIPs →
    host ≤ other

theorem firstUnused_of_found {usedIPs : List String}
    (found : (List.range' (firstHost net) (endHost net - firstHost net)).find? (fun host =>
      hostText network host ∉ usedIPs && notReserved domain.reservedRanges (hostText network host)) = some host) :
    FirstUnused domain net network usedIPs host := by
  have passes := find?_some found
  rw [Bool.and_eq_true, decide_eq_true_eq, notReserved_iff] at passes
  refine ⟨mem_hosts_iff.mp (mem_of_find?_eq_some found), passes.2, passes.1, fun other isHost unreserved unused => ?_⟩
  exact find?_le (pairwise_lt_range' _) found (mem_hosts_iff.mpr isHost)
    (by simp [unused, notReserved_iff.mpr unreserved])

theorem FirstUnused.leastFree {usedIPs : List String} (first : FirstUnused domain net network usedIPs host)
    (free : ¬ Occupied usedIPs (hostIP network host)) : LeastFree domain net network usedIPs host := by
  refine ⟨first.isHost, first.unreserved, free, fun lower below isHost => ?_⟩
  by_contra neither
  push Not at neither
  have unused : hostText network lower ∉ usedIPs := fun inUse =>
    neither.2 ⟨_, inUse, parseIP_hostText network lower⟩
  have atMost := first.least lower isHost neither.1 unused
  omega

variable {env : Externals} {topo : Topology} {usedIPs : List String} {nodes after : List Node}

theorem allocateFromCIDR_congr {cidr : String} {reservedRanges usedIPs usedIPs' : List String}
    (same : ∀ text, text ∈ usedIPs ↔ text ∈ usedIPs') :
    allocateFromCIDR cidr reservedRanges usedIPs = allocateFromCIDR cidr reservedRanges usedIPs' := by
  simp only [allocateFromCIDR, same]

theorem Assigns.take (assigns : Assigns topo usedIPs nodes after) (i : Nat) :
    assignFree topo usedIPs (nodes.take i) = .ok (after.take i) := by
  induction assigns generalizing i with
  | nil => simp [assignFree]
  | keep carries _ ih =>
    cases i with
    | zero => rfl
    | succ i => rw [take_succ_cons, take_succ_cons, assignFree, if_pos carries, ih]
  | pick blank isDomain allocated _ ih =>
    cases i with
    | zero => rfl
    | succ i =>
      rw [take_succ_cons, take_succ_cons, assignFree, if_neg (not_not.mpr blank), isDomain]
      simp only [allocated, ih]

theorem Assigns.step (assigns : Assigns topo usedIPs nodes after) (known : carriedIPs nodes ⊆ usedIPs)
    (isBefore : nodes[i]? = some before) (isNode : after[i]? = some node) (blank : before.overlayIP = "") :
    ∃ domain, topo.domain? before.domainID = some domain ∧
      allocateFromCIDR domain.cidr domain.reservedRanges (usedIPs ++ (after.take i).map (·.overlayIP)) =
        .ok node.overlayIP := by
  induction assigns generalizing i with
  | nil => cases isBefore
  | keep carries _ ih =>
    rw [carriedIPs_cons, if_neg carries, cons_subset] at known
    cases i with
    | zero =>
      cases isBefore
      exact absurd blank carries
    | succ i =>
      obtain ⟨domain, isDomain, allocated⟩ := ih known.2 isBefore isNode
      refine ⟨domain, isDomain, (allocateFromCIDR_congr fun text => ?_).trans allocated⟩
      simp only [take_succ_cons, map_cons, mem_append, mem_cons]
      constructor
      · rintro (inUse | rfl | given)
        · exact .inl inUse
        · exact .inl known.1
        · exact .inr given
      · rintro (inUse | given)
        · exact .inl inUse
        · exact .inr (.inr given)
  | @pick _ _ _ _ domain ip isBlank isDomain allocated _ ih =>
    rw [carriedIPs_cons, if_pos isBlank] at known
    cases i with
    | zero =>
      cases isBefore
      cases isNode
      exact ⟨domain, isDomain, by simpa using allocated⟩
    | succ i =>
      obtain ⟨domain', isDomain', allocated'⟩ := ih (subset_cons_of_subset ip known) isBefore isNode
      refine ⟨domain', isDomain', (allocateFromCIDR_congr fun text => ?_).trans allocated'⟩
      simp only [take_succ_cons, map_cons, mem_append, mem_cons]
      tauto

theorem pairwise_iff_getElem? {α : Type} {relation : α → α → Prop} {items : List α} : items.Pairwise relation ↔
    ∀ (i j : Nat) (first second : α), i < j → items[i]? = some first → items[j]? = some second →
      relation first second := by
  rw [pairwise_iff_getElem]
  constructor
  · intro related i j first second before isFirst isSecond
    obtain ⟨iBound, rfl⟩ := List.getElem?_eq_some_iff.mp isFirst
    obtain ⟨jBound, rfl⟩ := List.getElem?_eq_some_iff.mp isSecond
    exact related i j iBound jBound before
  · intro related i j iBound jBound before
    exact related i j _ _ before (getElem?_eq_getElem iBound) (getElem?_eq_getElem jBound)

theorem parsed_nodup_iff : (nodes.map fun node => parseIP node.overlayIP).Nodup ↔
    ∀ (i j : Nat) (node other : Node), i < j → nodes[i]? = some node → nodes[j]? = some other →
      parseIP node.overlayIP ≠ parseIP other.overlayIP := by
  rw [List.Nodup, pairwise_map, pairwise_iff_getElem?]

theorem carried_nodup_iff : ((carriedIPs nodes).map parseIP).Nodup ↔
    ∀ (i j : Nat) (node other : Node), i < j → nodes[i]? = some node → nodes[j]? = some other →
      node.overlayIP ≠ "" → other.overlayIP ≠ "" → parseIP node.overlayIP ≠ parseIP other.overlayIP := by
  rw [carriedIPs, filter_map, map_map, List.Nodup, pairwise_map, pairwise_filter, pairwise_iff_getElem?]
  simp only [Function.comp_apply, decide_eq_true_eq]

section

variable (addressed : List.Forall₂ (Addressed topo) nodes after)

include addressed

theorem addressed_getElem
    (isBefore : nodes[i]? = some before) (isNode : after[i]? = some node) : Addressed topo before node := by
  induction addressed generalizing i with
  | nil => cases isBefore
  | cons step _ ih =>
    cases i with
    | zero =>
      cases isBefore
      cases isNode
      exact step
    | succ i => exact ih isBefore isNode

theorem addressed_before (isNode : after[i]? = some node) : ∃ before, nodes[i]? = some before := by
  obtain ⟨bound, -⟩ := List.getElem?_eq_some_iff.mp isNode
  exact ⟨_, getElem?_eq_getElem (addressed.length_eq ▸ bound)⟩

theorem addressed_after (isBefore : nodes[i]? = some before) : ∃ node, after[i]? = some node := by
  obtain ⟨bound, -⟩ := List.getElem?_eq_some_iff.mp isBefore
  exact ⟨_, getElem?_eq_getElem (addressed.length_eq ▸ bound)⟩

theorem addressed_ids : after.map (·.id) = nodes.map (·.id) := by
  induction addressed with
  | nil => rfl
  | cons step _ ih => rw [map_cons, map_cons, ih, step.same]

end

theorem mem_usedBefore {j : Nat} (isNode : after[i]? = some node) (earlier : i < j) :
    node.overlayIP ∈ usedBefore topo (after.take j) := by
  refine mem_append_right _ (mem_map_of_mem ?_)
  rw [mem_take_iff_getElem]
  obtain ⟨bound, rfl⟩ := List.getElem?_eq_some_iff.mp isNode
  exact ⟨i, by omega, rfl⟩

section

variable (assigns : Assigns topo (carriedIPs topo.nodes) topo.nodes after) (all : AllAddressed topo after)

include assigns

theorem exists_served (isBefore : topo.nodes[i]? = some before) (isNode : after[i]? = some node)
    (blank : before.overlayIP = "") :
    ∃ domain net network host, topo.domain? before.domainID = some domain ∧ Scanned domain.cidr net network ∧
      FirstUnused domain net network (usedBefore topo (after.take i)) host ∧
      node.overlayIP = hostText network host := by
  obtain ⟨domain, isDomain, allocated⟩ := assigns.step (List.Subset.refl _) isBefore isNode blank
  obtain ⟨net, network, host, scanned, found, text⟩ := allocateFromCIDR_iff.mp allocated
  exact ⟨domain, net, network, host, isDomain, scanned, firstUnused_of_found found, text⟩

theorem SpelledOnce.assigned (spelled : SpelledOnce topo) (isBefore : topo.nodes[i]? = some before)
    (isNode : after[i]? = some node) (blank : before.overlayIP = "") :
    ∃ domain net network host, topo.domain? before.domainID = some domain ∧ parseCIDR domain.cidr = some net ∧
      net.ip.to4 = some network ∧ node.overlayIP = hostText network host ∧
      LeastFree domain net network (usedBefore topo (after.take i)) host := by
  obtain ⟨domain, net, network, host, isDomain, scanned, first, text⟩ := exists_served assigns isBefore isNode blank
  refine ⟨domain, net, network, host, isDomain, scanned.parsed, scanned.isNetwork, text, first.leastFree ?_⟩
  intro occupied
  obtain ⟨lower, below, isHost, unreserved, unused⟩ := spelled.handed i before _ isBefore blank (assigns.take i)
    domain net network isDomain scanned.parsed scanned.isNetwork host first.isHost first.unreserved first.unused occupied
  have atMost := first.least lower isHost unreserved unused
  omega

include all

theorem Sound.spelledOnce (sound : Sound topo after) : SpelledOnce topo := by
  refine ⟨?carried, ?handed⟩
  case carried =>
    refine carried_nodup_iff.mpr fun i j before other earlier isBefore isOther carries carries' => ?_
    obtain ⟨node, isNode⟩ := addressed_after all.addressed isBefore
    obtain ⟨node', isNode'⟩ := addressed_after all.addressed isOther
    rw [← sound.kept i before node isBefore isNode carries, ← sound.kept j other node' isOther isNode' carries']
    exact parsed_nodup_iff.mp sound.distinct i j node node' earlier isNode isNode'
  case handed =>
    intro i before done isBefore blank run domain net network isDomain parsed isNetwork host isHost unreserved unused
      occupied
    obtain rfl : after.take i = done := Except.ok.inj ((assigns.take i).symm.trans run)
    obtain ⟨node, isNode⟩ := addressed_after all.addressed isBefore
    obtain ⟨domain', net', network', first, isDomain', scanned, served, text⟩ :=
      exists_served assigns isBefore isNode blank
    obtain rfl : domain = domain' := Option.mem_unique isDomain isDomain'
    obtain rfl : net = net' := Option.mem_unique parsed scanned.parsed
    obtain rfl : network = network' := Option.mem_unique isNetwork scanned.isNetwork
    have free : ¬ Occupied (usedBefore topo (after.take i)) (hostIP network first) := by
      obtain ⟨_, _, network', host', -, -, -, text', least⟩ := sound.assigned i before node isBefore isNode blank
      have same : hostIP network first = hostIP network' host' := by
        rw [← Option.some_inj, ← parseIP_hostText, ← parseIP_hostText, ← text, text']
      rw [same]
      exact least.free
    have atMost := served.least host isHost unreserved unused
    refine ⟨first, lt_of_le_of_ne atMost ?_, served.isHost, served.unreserved, served.unused⟩
    rintro rfl
    exact free occupied

theorem SpelledOnce.distinct (spelled : SpelledOnce topo) : (after.map fun node => parseIP node.overlayIP).Nodup := by
  refine parsed_nodup_iff.mpr fun i j node other earlier isNode isOther same => ?_
  obtain ⟨before, isBefore⟩ := addressed_before all.addressed isNode
  obtain ⟨before', isBefore'⟩ := addressed_before all.addressed isOther
  by_cases blank' : before'.overlayIP = ""
  · -- the later address was not in use when it was given
    obtain ⟨_, _, network, host, -, -, -, text, least⟩ := spelled.assigned assigns isBefore' isOther blank'
    rw [text, parseIP_hostText] at same
    exact least.free ⟨_, mem_usedBefore isNode earlier, same⟩
  · have kept' := (addressed_getElem all.addressed isBefore' isOther).kept blank'
    by_cases blank : before.overlayIP = ""
    · -- the earlier address was given while the later one was carried
      obtain ⟨_, _, network, host, -, -, -, text, least⟩ := spelled.assigned assigns isBefore isNode blank
      rw [text, parseIP_hostText] at same
      refine least.free ⟨other.overlayIP, mem_append_left _ ?_, same.symm⟩
      rw [kept']
      exact mem_filter.mpr ⟨mem_map_of_mem (mem_of_getElem? isBefore'), by simpa using blank'⟩
    · have kept := (addressed_getElem all.addressed isBefore isNode).kept blank
      rw [kept, kept'] at same
      exact carried_nodup_iff.mp spelled.carried i j before before' earlier isBefore isBefore' blank blank' same

end

/-- The addresses a successful run ends with are sound exactly when no address is used in two spellings. -/
theorem overlay_sound_iff (accepted : Accepted env topo) (allocated : allocateIPs topo = .ok after) :
    Sound topo after ↔ SpelledOnce topo := by
  have assigns := assignFree_assigns ((allocateIPs_of_accepted accepted).symm.trans allocated)
  have all := allocateIPs_allAddressed accepted allocated
  refine ⟨fun sound => sound.spelledOnce assigns all, fun spelled => ?_⟩
  refine ⟨addressed_ids all.addressed, spelled.distinct assigns all, fun node => all.inDomain accepted, ?_, ?_⟩
  · exact fun i before node isBefore isNode => (addressed_getElem all.addressed isBefore isNode).kept
  · exact fun i before node => spelled.assigned assigns

theorem mem_of_occupied (dotted : ∀ text ∈ usedIPs, ∃ address : IPv4, text = address.format)
    (occupied : Occupied usedIPs (hostIP network host)) : hostText network host ∈ usedIPs := by
  obtain ⟨text, inUse, parsed⟩ := occupied
  obtain ⟨address, rfl⟩ := dotted text inUse
  rw [parseIP_format] at parsed
  have same := IP.ofIPv4_injective (Option.some.inj parsed)
  rw [hostText, ← same]
  exact inUse

theorem Assigns.dotted (assigns : Assigns topo usedIPs nodes after) :
    ∀ node ∈ after, node.overlayIP ∈ carriedIPs nodes ∨ ∃ address : IPv4, node.overlayIP = address.format := by
  induction assigns with
  | nil => simp
  | keep carries _ ih =>
    intro node member
    rw [carriedIPs_cons, if_neg carries]
    rcases mem_cons.mp member with rfl | inLater
    · exact .inl mem_cons_self
    · exact (ih node inLater).imp_left (mem_cons_of_mem _)
  | pick blank _ allocated _ ih =>
    intro node member
    rw [carriedIPs_cons, if_pos blank]
    rcases mem_cons.mp member with rfl | inLater
    · obtain ⟨net, network, host, -, -, rfl⟩ := allocateFromCIDR_iff.mp allocated
      exact .inr ⟨_, rfl⟩
    · exact ih node inLater

theorem spelledOnce_of_dotted (accepted : Accepted env topo)
    (dotted : ∀ text ∈ carriedIPs topo.nodes, ∃ address : IPv4, text = address.format) : SpelledOnce topo := by
  refine ⟨(carriedIPs_nodup accepted).map_on ?_, ?_⟩
  · intro text member text' member' same
    obtain ⟨address, rfl⟩ := dotted text member
    obtain ⟨address', rfl⟩ := dotted text' member'
    rw [parseIP_format, parseIP_format] at same
    rw [IP.ofIPv4_injective (Option.some.inj same)]
  · intro i before done _ _ run domain net network _ _ _ host _ _ unused occupied
    refine absurd (mem_of_occupied (fun text inUse => ?_) occupied) unused
    rcases mem_append.mp inUse with carried | given
    · exact dotted text carried
    · obtain ⟨node, member, rfl⟩ := mem_map.mp given
      rcases (assignFree_assigns run).dotted node member with carried | isDotted
      · refine dotted _ ?_
        exact ((take_sublist i topo.nodes).map Node.overlayIP |>.filter _).subset carried
      · exact isDotted

theorem overlayPair_sound : ∃ after, Accepted overlayEnv (overlayPair "10.11.0.1") ∧
    allocateIPs (overlayPair "10.11.0.1") = .ok after ∧ Sound (overlayPair "10.11.0.1") after := by
  obtain ⟨after, accepted, allocated⟩ := overlayPair_allocated
  refine ⟨after, accepted, allocated, (overlay_sound_iff accepted allocated).mpr (spelledOnce_of_dotted accepted ?_)⟩
  intro text member
  have carried : ∀ text ∈ carriedIPs (overlayPair "10.11.0.1").nodes,
      text = IPv4.format (BitVec.ofNat 32 168493057) := by decide +kernel
  exact ⟨_, carried text member⟩

/-- The first host is handed out although the second router carries it. -/
theorem overlayPair_unsound : ∃ after, Accepted overlayEnv (overlayPair "::ffff:10.11.0.1") ∧
    allocateIPs (overlayPair "::ffff:10.11.0.1") = .ok after ∧ ¬ Sound (overlayPair "::ffff:10.11.0.1") after := by
  obtain ⟨after, allocated, repeated⟩ : ∃ after, allocateIPs (overlayPair "::ffff:10.11.0.1") = .ok after ∧
      ¬ (after.map fun node => parseIP node.overlayIP).Nodup := exists_ok_and (by decide +kernel)
  exact ⟨after, accepted_iff.mp ⟨by decide +kernel, by decide +kernel⟩, allocated,
    fun sound => repeated sound.distinct⟩

end Yaog.Allocator
