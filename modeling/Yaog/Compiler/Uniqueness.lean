import Yaog.Compiler.Fixpoint

/-!
# Uniqueness of the addresses of a compile

Three mechanisms keep addresses apart: the search for duplicate pins, the used-sets kept by the text of
a pool, and the lowest-free search inside one pool.
-/

namespace Yaog.Compiler

open Allocator Net Validator List Option

def transitAddresses (topo : Topology) : List String :=
  (groupLinks topo).flatMap fun link => [link.primaryEdge.pinnedFromTransitIP, link.primaryEdge.pinnedToTransitIP]

def linkLocalAddresses (topo : Topology) : List String :=
  (groupLinks topo).flatMap fun link => [link.primaryEdge.pinnedFromLinkLocal, link.primaryEdge.pinnedToLinkLocal]

/-- The prefix `fe80::/10`. -/
def inLinkLocalPrefix (ip : IP) : Bool := ip.toNat / 2 ^ 118 = 0x3fa

/-- All transit addresses are IPv4 and pairwise distinct, all link-local addresses are in `fe80::/10` and
pairwise distinct, as parsed values. -/
structure AddressesUnique (topo : Topology) : Prop where
  transitIPv4 : ∀ text ∈ transitAddresses topo, ∃ address : IPv4, parseIP text = some (IP.ofIPv4 address)
  transit : ((transitAddresses topo).map parseIP).Nodup
  linkLocalPrefix : ∀ text ∈ linkLocalAddresses topo, ∃ ip, parseIP text = some ip ∧ inLinkLocalPrefix ip = true
  linkLocals : ((linkLocalAddresses topo).map parseIP).Nodup

def ParsedApart (text text' : String) : Prop := parseIP text ≠ parseIP text'

/-- When a topology's pins and windows give distinct addresses. -/
structure PoolsUnique (topo : Topology) : Prop where
  transitPins : ∀ link ∈ groupLinks topo, ∀ pair, pinnedTransit link = some pair → ParsedApart pair.1 pair.2
  transit : WindowsApart ParsedApart (transitView (groupLinks topo)) (groupLinks topo)
  linkLocalPins : ∀ link ∈ groupLinks topo, ∀ pair, pinnedLinkLocal link = some pair → ParsedApart pair.1 pair.2 ∧
    ∀ text ∈ pairMarks pair, ∃ ip, parseIP text = some ip ∧ inLinkLocalPrefix ip = true
  linkLocals : WindowsApart ParsedApart (linkLocalView (groupLinks topo)) (groupLinks topo)

section

variable {env : Externals} {topo : Topology} {allocations : Allocations} {link : LinkEntity} {alloc : PairAllocation}
  {pair : String × String} {cidr : String}

theorem representative_ends (accepted : Accepted env topo) (member : link ∈ groupLinks topo)
    (given : Allocated topo {} allocations link.primaryEdge link alloc) :
    Edge.fromEnd (writeBack topo allocations link.primaryEdge) = alloc.near ∧
      Edge.toEnd (writeBack topo allocations link.primaryEdge) = alloc.far := by
  obtain ⟨inEdges, enabled, isFrom, isTo⟩ := groupLinks_edge member
  have fromID : alloc.fromNodeID = link.primaryEdge.fromNodeID :=
    given.filled.fromNodeID.trans (Topology.node?_mem isFrom).2
  have distinct := (accepted.edge_ends inEdges).2.2
  rw [writeBack_eq accepted inEdges enabled given]
  constructor
  · change alloc.endAt link.primaryEdge.fromNodeID = alloc.near
    rw [PairAllocation.endAt, if_pos fromID]
    rfl
  · change alloc.endAt link.primaryEdge.toNodeID = alloc.far
    rw [PairAllocation.endAt, if_neg (fromID ▸ distinct)]
    rfl

theorem compiled_groupLinks (topo : Topology) (allocations : Allocations) :
    groupLinks (compiledTopology topo allocations) = (groupLinks topo).map fun link =>
      { link with primaryEdge := writeBack topo allocations link.primaryEdge } :=
  groupLinks_mapEdges (writeBack_keepsLink topo allocations) topo

section

variable (accepted : Accepted env topo) (allocated : preallocateLinkResources (groupLinks topo) {} = .ok allocations)

include accepted allocated

theorem compiled_addresses (read : EndValues → String) {slot : LinkEntity → Option (String × String)}
    (slots : ∀ {link alloc}, linkAllocation (groupLinks topo) link = some alloc →
      slot link = some (read alloc.near, read alloc.far)) :
    ((groupLinks (compiledTopology topo allocations)).flatMap fun link =>
        [read (Edge.fromEnd link.primaryEdge), read (Edge.toEnd link.primaryEdge)]) =
      (groupLinks topo).flatMap fun link => ((slot link).map pairMarks).getD [] := by
  rw [compiled_groupLinks, flatMap_map]
  refine flatMap_congr fun link member => ?_
  obtain ⟨alloc, expected, given⟩ := allocated_of_link accepted allocated member
  obtain ⟨near, far⟩ := representative_ends accepted member given
  rw [slots expected, near, far]
  rfl

theorem compiled_transitAddresses : transitAddresses (compiledTopology topo allocations) =
    (groupLinks topo).flatMap fun link => ((linkTransit (groupLinks topo) link).map pairMarks).getD [] :=
  compiled_addresses accepted allocated EndValues.transitIP fun expected => (linkAllocation_slots expected).2.1

theorem compiled_linkLocalAddresses : linkLocalAddresses (compiledTopology topo allocations) =
    (groupLinks topo).flatMap fun link => ((linkLinkLocal (groupLinks topo) link).map pairMarks).getD [] :=
  compiled_addresses accepted allocated EndValues.linkLocal fun expected => (linkAllocation_slots expected).2.2

end

theorem addresses_nodup_iff {κ : Type} {view : PoolView κ} {links : List LinkEntity} (distinct : links.Nodup)
    (slots : ∀ link ∈ links, ∃ pair, view.slot link = some pair) :
    ((links.flatMap fun link => ((view.slot link).map pairMarks).getD []).map parseIP).Nodup ↔
      (∀ link ∈ links, ∀ pair, view.slot link = some pair → ParsedApart pair.1 pair.2) ∧
        SlotsApart ParsedApart view links := by
  rw [map_flatMap, nodup_flatMap]
  refine and_congr (forall₂_congr fun link member => ?_) ?_
  · obtain ⟨pair, slot⟩ := slots link member
    simp [slot, pairMarks, ParsedApart]
  · constructor
    · intro pairwise link member other member' different pair pair' slot slot' text inPair text' inPair' same
      have symmetric : Std.Symm (Function.onFun List.Disjoint fun link : LinkEntity =>
          (((view.slot link).map pairMarks).getD []).map parseIP) := ⟨fun _ _ disjoint => disjoint.symm⟩
      have disjoint := pairwise.forall member member' different
      simp only [Function.onFun, slot, slot', map_some, getD_some] at disjoint
      exact disjoint (mem_map_of_mem inPair) (same ▸ mem_map_of_mem inPair')
    · intro separate
      refine distinct.pairwise_of_forall_ne fun link member other member' different => ?_
      obtain ⟨pair, slot⟩ := slots link member
      obtain ⟨pair', slot'⟩ := slots other member'
      simp only [Function.onFun, slot, slot', map_some, getD_some]
      intro value inFirst inSecond
      obtain ⟨text, inPair, rfl⟩ := mem_map.mp inFirst
      obtain ⟨text', inPair', same⟩ := mem_map.mp inSecond
      exact separate link member other member' different pair pair' slot slot' text inPair text' inPair' same.symm

theorem parsedApart_of_canonical {text text' : String} (parses : ∃ ip, parseIP text = some ip)
    (apart : CanonicalApart text text') : ParsedApart text text' := by
  intro same
  obtain ⟨ip, isIP⟩ := parses
  refine apart ?_
  rw [canonicalIP, canonicalIP, ← same, isIP]

theorem groupLinks_nodup (topo : Topology) : (groupLinks topo).Nodup :=
  List.Nodup.of_map _ (groupLinks_keys_nodup topo)

theorem transitCIDR_net (accepted : Accepted env topo) {node : Node} (member : node ∈ topo.nodes) :
    ∃ net network, parseCIDR (topo.transitCIDR node) = some net ∧ net.ip.to4 = some network := by
  obtain ⟨domain, isDomain, inDomains⟩ := accepted.node_domain member
  rw [Topology.transitCIDR, isDomain]
  simp only
  split
  case isTrue set =>
    obtain ⟨net, network, parsed, isNetwork, -, -⟩ := accepted.domain_transitCIDR inDomains set
    exact ⟨net, network, parsed, isNetwork⟩
  case isFalse =>
    have default_ : ((parseCIDR defaultTransitCIDR).bind fun net => net.ip.to4).isSome = true := by decide +kernel
    obtain ⟨network, found⟩ := isSome_iff_exists.mp default_
    obtain ⟨net, parsed, isNetwork⟩ := bind_eq_some_iff.mp found
    exact ⟨net, network, parsed, isNetwork⟩

section

variable (accepted : Accepted env topo) (member : link ∈ groupLinks topo) {pins : String × String}
  (pinned : pinnedTransit link = some pins)

include accepted member pinned

theorem pinnedTransit_inside {text : String} (inPair : text ∈ pairMarks pins) :
    ∃ ip, parseIP text = some ip ∧ ∀ net, parseCIDR link.transitCIDR = some net → net.contains ip = true := by
  obtain ⟨resolved, inResolved, rfl⟩ := mem_groupLinks member
  have own := accepted.pinsAccepted.own resolved inResolved
  obtain ⟨set, isPair⟩ := Option.ite_none_right_eq_some.mp pinned
  cases isPair
  rcases mem_pairMarks.mp inPair with rfl | rfl
  · exact own.fromInside set.1
  · exact own.toInside set.2

theorem pinnedTransit_parses : ∀ text ∈ pairMarks pins, ∃ address : IPv4, parseIP text = some (IP.ofIPv4 address) := by
  intro text inPair
  obtain ⟨ip, isIP, contained⟩ := pinnedTransit_inside accepted member pinned inPair
  obtain ⟨resolved, inResolved, rfl⟩ := mem_groupLinks member
  have inNodes := (Topology.node?_mem (mem_resolvedEdges.mp inResolved).2.2.1).1
  obtain ⟨net, network, parsed, isNetwork⟩ := transitCIDR_net accepted inNodes
  have family := contained net parsed
  simp only [IPNet.contains, isNetwork, isSome_some, Bool.and_eq_true, beq_iff_eq] at family
  obtain ⟨address, isAddress⟩ := isSome_iff_exists.mp family.1.symm
  exact ⟨address, by rw [isIP, to4_eq_some_iff.mp isAddress]⟩

end

theorem expectedTransit_parses (accepted : Accepted env topo) (member : link ∈ groupLinks topo) {reserved : Resources}
    {done : List LinkEntity} (slot : expectedTransit reserved done link = some pair) :
    ∀ text ∈ pairMarks pair, ∃ address : IPv4, parseIP text = some (IP.ofIPv4 address) := by
  intro text inPair
  rw [expectedTransit] at slot
  cases pinned : pinnedTransit link with
  | none =>
    rw [pinned] at slot
    obtain ⟨address, rfl, -⟩ := canonicalIP_transit (mem_of_mem_filter (mem_of_getElem? slot)) inPair
    exact ⟨address, parseIP_format address⟩
  | some pins =>
    rw [pinned] at slot
    cases slot
    exact pinnedTransit_parses accepted member pinned text inPair

theorem transitPairs_parsedApart {pair' : String × String} (member : pair ∈ transitPairs cidr)
    (member' : pair' ∈ transitPairs cidr) {text text' : String} (inPair : text ∈ pairMarks pair)
    (inPair' : text' ∈ pairMarks pair') (different : text ≠ text') : ParsedApart text text' := by
  obtain ⟨address, rfl, -⟩ := canonicalIP_transit member inPair
  obtain ⟨address', rfl, -⟩ := canonicalIP_transit member' inPair'
  intro same
  rw [parseIP_format, parseIP_format] at same
  exact different (congrArg IPv4.format (IP.ofIPv4_injective (some.inj same)))

theorem transitPairs_ends (member : pair ∈ transitPairs cidr) :
    ParsedApart pair.1 pair.2 := by
  refine transitPairs_parsedApart member member (by simp [pairMarks]) (by simp [pairMarks]) ?_
  obtain ⟨net, network, index, -, -, small, rfl⟩ := mem_transitPairs member
  intro same
  have numbers := hostText_injective (by omega) small same
  omega

private theorem linkLocalText_parsedApart {number number' : Nat} (small : number < 65536) (small' : number' < 65536)
    (different : number ≠ number') : ParsedApart (linkLocalText number) (linkLocalText number') := by
  rw [ParsedApart, linkLocalText_eq, linkLocalText_eq, parseIP_twoGroupText (by decide) small,
    parseIP_twoGroupText (by decide) small']
  intro same
  have values := congrArg BitVec.toNat (some.inj same)
  simp only [twoGroupValue, BitVec.toNat_ofNat] at values
  omega

private theorem linkLocalText_prefixed {number : Nat} (small : number < 65536) :
    ∃ ip, parseIP (linkLocalText number) = some ip ∧ inLinkLocalPrefix ip = true := by
  refine ⟨twoGroupValue 0xfe80 number, by rw [linkLocalText_eq, parseIP_twoGroupText (by decide) small], ?_⟩
  simp only [inLinkLocalPrefix, twoGroupValue, BitVec.toNat_ofNat, decide_eq_true_eq]
  omega

section

variable (accepted : Accepted env topo)

include accepted

theorem handedLinkLocals_parsedApart {pair pair' : String × String} (member : pair ∈ handedLinkLocals (groupLinks topo))
    (member' : pair' ∈ handedLinkLocals (groupLinks topo)) {text text' : String} (inPair : text ∈ pairMarks pair)
    (inPair' : text' ∈ pairMarks pair') (different : text ≠ text') : ParsedApart text text' := by
  obtain ⟨number, -, small, rfl⟩ := handedLinkLocals_number accepted member inPair
  obtain ⟨number', -, small', rfl⟩ := handedLinkLocals_number accepted member' inPair'
  exact linkLocalText_parsedApart small small' fun same => different (congrArg linkLocalText same)

theorem handedLinkLocals_ends {pair : String × String}
    (member : pair ∈ handedLinkLocals (groupLinks topo)) : ParsedApart pair.1 pair.2 := by
  refine handedLinkLocals_parsedApart accepted member member (by simp [pairMarks]) (by simp [pairMarks]) ?_
  obtain ⟨index, -, rfl⟩ := handedLinkLocals_index member
  intro same
  have numbers := linkLocalText_injective same
  omega

section

variable (allocated : preallocateLinkResources (groupLinks topo) {} = .ok allocations)

include allocated

theorem compiled_transit_nodup_iff :
    ((transitAddresses (compiledTopology topo allocations)).map parseIP).Nodup ↔
      (∀ link ∈ groupLinks topo, ∀ pair, pinnedTransit link = some pair → ParsedApart pair.1 pair.2) ∧
        WindowsApart ParsedApart (transitView (groupLinks topo)) (groupLinks topo) := by
  have lawful := transitView_lawful (groupLinks_keys_nodup topo)
  have slots : ∀ link ∈ groupLinks topo, ∃ pair, (transitView (groupLinks topo)).slot link = some pair := by
    intro link member
    obtain ⟨alloc, expected, -⟩ := allocated_of_link accepted allocated member
    exact ⟨_, (linkAllocation_slots expected).2.1⟩
  have pinsApart : PinsApart ParsedApart (transitView (groupLinks topo)) (groupLinks topo) := by
    intro link member other member' different pair pair' pinned pinned' text inPair text' inPair'
    obtain ⟨address, parsed⟩ := pinnedTransit_parses accepted member pinned text inPair
    exact parsedApart_of_canonical ⟨_, parsed⟩
      (transitPins_apart accepted link member other member' different pair pair' pinned pinned' text inPair text' inPair')
  rw [compiled_transitAddresses accepted allocated]
  refine (addresses_nodup_iff (groupLinks_nodup topo) slots).trans (and_congr ?_ ?_)
  · constructor
    · exact fun ends link member pair pinned => ends link member pair (linkTransit_pinned pinned)
    · intro ends link member pair slot
      cases pinned : pinnedTransit link with
      | some pins =>
        obtain rfl : pins = pair := some.inj ((linkTransit_pinned pinned).symm.trans slot)
        exact ends link member pins pinned
      | none =>
        exact transitPairs_ends (handedTransit_pair
          ((transitView_lawful (groupLinks_keys_nodup topo)).slot_window member pinned slot))
  · refine ⟨windowsApart_of_slots lawful, slotsApart_of_windows lawful (fun apart => apart.symm) pinsApart ?_⟩
    intro cidr pair handed pair' handed' text inPair text' inPair' different
    exact transitPairs_parsedApart (handedTransit_pair handed) (handedTransit_pair handed') inPair inPair' different

theorem compiled_linkLocals_unique_iff :
    ((∀ text ∈ linkLocalAddresses (compiledTopology topo allocations), ∃ ip, parseIP text = some ip ∧
        inLinkLocalPrefix ip = true) ∧
      ((linkLocalAddresses (compiledTopology topo allocations)).map parseIP).Nodup) ↔
      (∀ link ∈ groupLinks topo, ∀ pair, pinnedLinkLocal link = some pair → ParsedApart pair.1 pair.2 ∧
        ∀ text ∈ pairMarks pair, ∃ ip, parseIP text = some ip ∧ inLinkLocalPrefix ip = true) ∧
        WindowsApart ParsedApart (linkLocalView (groupLinks topo)) (groupLinks topo) := by
  have distinct := groupLinks_keys_nodup topo
  have lawful := linkLocalView_lawful distinct
  have slots : ∀ link ∈ groupLinks topo, ∃ pair, (linkLocalView (groupLinks topo)).slot link = some pair := by
    intro link member
    obtain ⟨alloc, expected, -⟩ := allocated_of_link accepted allocated member
    exact ⟨_, (linkAllocation_slots expected).2.2⟩
  have nodup := addresses_nodup_iff (groupLinks_nodup topo) slots
  rw [compiled_linkLocalAddresses accepted allocated]
  constructor
  · rintro ⟨prefixed, unique⟩
    obtain ⟨ends, separate⟩ := nodup.mp unique
    refine ⟨fun link member pair pinned => ⟨ends link member pair (linkLinkLocal_pinned pinned), ?_⟩,
      windowsApart_of_slots lawful separate⟩
    intro text inPair
    refine prefixed text (mem_flatMap.mpr ⟨link, member, ?_⟩)
    rw [linkLinkLocal_pinned pinned]
    exact inPair
  · rintro ⟨pins, windows⟩
    refine ⟨fun text inAddresses => ?_, nodup.mpr ⟨fun link member pair slot => ?_, ?_⟩⟩
    · obtain ⟨link, member, inMarks⟩ := mem_flatMap.mp inAddresses
      obtain ⟨pair, slot⟩ := slots link member
      have isSlot : linkLinkLocal (groupLinks topo) link = some pair := slot
      rw [isSlot] at inMarks
      cases pinned : pinnedLinkLocal link with
      | some pair' =>
        obtain rfl : pair' = pair := some.inj ((linkLinkLocal_pinned pinned).symm.trans slot)
        exact (pins link member pair' pinned).2 text inMarks
      | none =>
        have handed := (linkLocalView_lawful distinct).slot_window member pinned slot
        obtain ⟨number, -, small, rfl⟩ := handedLinkLocals_number accepted handed inMarks
        exact linkLocalText_prefixed small
    · cases pinned : pinnedLinkLocal link with
      | some pair' =>
        obtain rfl : pair' = pair := some.inj ((linkLinkLocal_pinned pinned).symm.trans slot)
        exact (pins link member pair' pinned).1
      | none => exact handedLinkLocals_ends accepted ((linkLocalView_lawful distinct).slot_window member pinned slot)
    · refine slotsApart_of_windows lawful (fun apart => apart.symm) ?_ ?_ windows
      · intro link member other member' different pair pair' pinned pinned' text inPair text' inPair'
        obtain ⟨ip, parsed, -⟩ := (pins link member pair pinned).2 text inPair
        exact parsedApart_of_canonical ⟨ip, parsed⟩ (linkLocalPins_apart accepted link member other member' different
          pair pair' pinned pinned' text inPair text' inPair')
      · intro _ pair handed pair' handed' text inPair text' inPair' apart
        exact handedLinkLocals_parsedApart accepted handed handed' inPair inPair' apart

theorem compiled_unique_iff : AddressesUnique (compiledTopology topo allocations) ↔ PoolsUnique topo := by
  have transit := compiled_transit_nodup_iff accepted allocated
  have linkLocals := compiled_linkLocals_unique_iff accepted allocated
  constructor
  · intro unique
    obtain ⟨transitPins, transitWindows⟩ := transit.mp unique.transit
    obtain ⟨linkLocalPins, linkLocalWindows⟩ := linkLocals.mp ⟨unique.linkLocalPrefix, unique.linkLocals⟩
    exact ⟨transitPins, transitWindows, linkLocalPins, linkLocalWindows⟩
  · intro pools
    obtain ⟨prefixed, distinct⟩ := linkLocals.mpr ⟨pools.linkLocalPins, pools.linkLocals⟩
    refine ⟨fun text inAddresses => ?_, transit.mpr ⟨pools.transitPins, pools.transit⟩, prefixed, distinct⟩
    rw [compiled_transitAddresses accepted allocated] at inAddresses
    obtain ⟨link, member, inMarks⟩ := mem_flatMap.mp inAddresses
    obtain ⟨alloc, expected, -⟩ := allocated_of_link accepted allocated member
    have slot := (linkAllocation_slots expected).2.1
    rw [slot] at inMarks
    exact expectedTransit_parses accepted member slot text inMarks

end

end

end

theorem poolsUnique_bare (topo : Topology) : PoolsUnique topo.bare ↔ PoolsUnique topo := by
  have transit : WindowsApart ParsedApart (transitView (groupLinks topo.bare)) (groupLinks topo.bare) ↔
      WindowsApart ParsedApart (transitView (groupLinks topo)) (groupLinks topo) := by
    rw [groupLinks_bare]
    exact windowsApart_bare (funext (handedTransit_bare _)) fun _ => rfl
  have linkLocals : WindowsApart ParsedApart (linkLocalView (groupLinks topo.bare)) (groupLinks topo.bare) ↔
      WindowsApart ParsedApart (linkLocalView (groupLinks topo)) (groupLinks topo) := by
    rw [groupLinks_bare]
    exact windowsApart_bare (funext fun _ => handedLinkLocals_bare _) fun _ => rfl
  constructor
  · intro pools
    refine ⟨fun link member => ?_, transit.mp pools.transit, fun link member => ?_, linkLocals.mp pools.linkLocals⟩
    · exact pools.transitPins link.bare (groupLinks_bare topo ▸ mem_map_of_mem member)
    · exact pools.linkLocalPins link.bare (groupLinks_bare topo ▸ mem_map_of_mem member)
  · intro pools
    refine ⟨fun link member => ?_, transit.mpr pools.transit, fun link member => ?_, linkLocals.mpr pools.linkLocals⟩
    · obtain ⟨link, isLink, rfl⟩ := mem_map.mp (groupLinks_bare topo ▸ member)
      exact pools.transitPins link isLink
    · obtain ⟨link, isLink, rfl⟩ := mem_map.mp (groupLinks_bare topo ▸ member)
      exact pools.linkLocalPins link isLink

/-- Address uniqueness of a compile: the addresses of all links are distinct exactly when every pinned pair
has distinct ends (inside `fe80::/10` for link-local pins) and no pool hands out an address that is pinned or
that another pool hands out. -/
theorem addresses_unique_iff {env : Externals} {settings : Settings} {keys : Keys} {input : Topology}
    {result : CompileResult} (compiled : compileAt env settings keys input = .ok result)
    (noReservation : settings.reserved = {}) :
    AddressesUnique result.topology ↔ PoolsUnique input.withDefaults := by
  obtain ⟨nodes, allocations, run⟩ := compileAt_ok compiled
  have allocated := run.allocated
  rw [noReservation] at allocated
  rw [run.topology, compiled_unique_iff run.midAccepted allocated, ← poolsUnique_bare,
    allocatedTopology_bare run.allAddressed, poolsUnique_bare]

theorem samplePair_poolsUnique : ∃ result, sampleCompile samplePair = .ok result ∧
    PoolsUnique samplePair.withDefaults := by
  obtain ⟨result, compiled, isResult⟩ := samplePair_compiles
  have transit : transitAddresses samplePairCompiled = ["10.10.0.1", "10.10.0.2"] := by decide +kernel
  have linkLocals : linkLocalAddresses samplePairCompiled = ["fe80::1", "fe80::2"] := by decide +kernel
  refine ⟨result, compiled, (addresses_unique_iff compiled rfl).mp ?_⟩
  rw [isResult]
  constructor
  case transitIPv4 =>
    rw [transit, forall_mem_cons, forall_mem_singleton]
    exact ⟨⟨0x0a0a0001#32, by decide +kernel⟩, 0x0a0a0002#32, by decide +kernel⟩
  case transit =>
    decide +kernel
  case linkLocalPrefix =>
    rw [linkLocals, forall_mem_cons, forall_mem_singleton]
    exact ⟨⟨twoGroupValue 0xfe80 1, by decide +kernel⟩, twoGroupValue 0xfe80 2, by decide +kernel⟩
  case linkLocals =>
    decide +kernel

/-- Two domains whose transit pools overlap under different texts. -/
def sampleOverlap : Topology where
  project := { id := "p", name := "p" }
  domains := [{ id := "d1", name := "d1", cidr := "10.11.0.0/24", transitCIDR := "10.20.0.0/24" },
    { id := "d2", name := "d2", cidr := "10.12.0.0/24", transitCIDR := "10.20.0.0/25" }]
  nodes := [sampleRouter "a" "d1", sampleRouter "b" "d1", sampleRouter "c" "d2", sampleRouter "d" "d2"]
  edges := [sampleEdge "e1" "a" "b", sampleEdge "e2" "c" "d"]

/-- Both links get the first pair of their pool, which is one and the same. -/
theorem overlapping_pools_repeat : ∃ result, sampleCompile sampleOverlap = .ok result ∧
    ¬ AddressesUnique result.topology := by
  obtain ⟨result, compiled, repeats⟩ : ∃ result, sampleCompile sampleOverlap = .ok result ∧
      ¬ ((transitAddresses result.topology).map parseIP).Nodup := exists_ok_and (by decide +kernel)
  exact ⟨result, compiled, fun unique => repeats unique.transit⟩

end Yaog.Compiler
