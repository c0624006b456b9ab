import Yaog.Compiler.Links

/-!
# The closed form of the gap-filling loop

The loop serves three families of pools: the listen ports of each node, the pairs of each transit pool, the link-local
pairs.
-/

namespace Yaog.Compiler

open Net Data List

variable {node : Node} {reason : LinkError} {cidr : String} {pair : String × String} {links : List LinkEntity}

def portCandidates : List Nat := List.range' wgListenPortBase (65536 - wgListenPortBase)

def freePorts (used : List (String × Int)) (nodeID : String) : List Nat :=
  portCandidates.filter fun port : Nat => (nodeID, (port : Int)) ∉ used

def transitPairs (cidr : String) : List (String × String) :=
  match transitPoolPairCount cidr with
  | .error _ => []
  | .ok poolPairs => (List.range poolPairs).filterMap fun index => allocateTransitPair index cidr

def freeTransitPairs (used : List (String × String)) (cidr : String) : List (String × String) :=
  (transitPairs cidr).filter (transitPairFree used cidr)

/-- Enough free link-local pairs for `count` requests. -/
def freeLinkLocals (used : List String) (count : Nat) : List Nat :=
  (List.range (used.length + count)).filter (linkLocalFree used)

def needsPort (nodeID : String) (link : LinkEntity) : Bool :=
  (pinnedPorts link).isNone
    && ((!link.fromNode.isClient && link.fromNode.id = nodeID) || (!link.toNode.isClient && link.toNode.id = nodeID))

def needsTransit (cidr : String) (link : LinkEntity) : Bool :=
  (pinnedTransit link).isNone && link.transitCIDR = cidr

def needsLinkLocal (link : LinkEntity) : Bool := (pinnedLinkLocal link).isNone

section

variable (reserved : Resources) (done : List LinkEntity)

/-- The port an end of an unpinned link takes after `count` requests at its node. -/
def portAt (count : Nat) (node : Node) : Option Int :=
  if node.isClient then some 0
  else (freePorts reserved.ports node.id)[count]?.map fun port : Nat => (port : Int)

def portSlot (node : Node) : Option Int := portAt reserved (done.countP (needsPort node.id)) node

def expectedPorts (link : LinkEntity) : Option (Int × Int) :=
  match pinnedPorts link with
  | some ports => some ports
  | none =>
    match portSlot reserved done link.fromNode, portSlot reserved done link.toNode with
    | some fromPort, some toPort => some (fromPort, toPort)
    | _, _ => none

def expectedTransit (link : LinkEntity) : Option (String × String) :=
  match pinnedTransit link with
  | some pair => some pair
  | none => (freeTransitPairs reserved.transit link.transitCIDR)[done.countP (needsTransit link.transitCIDR)]?

/-- `total` is a bound on the number of requests. -/
def expectedLinkLocal (total : Nat) (link : LinkEntity) : Option (String × String) :=
  match pinnedLinkLocal link with
  | some pair => some pair
  | none => (freeLinkLocals reserved.linkLocals total)[done.countP needsLinkLocal]?.map allocateLinkLocalPair

def expectedAllocation (total : Nat) (link : LinkEntity) : Option PairAllocation :=
  match expectedPorts reserved done link, expectedTransit reserved done link,
      expectedLinkLocal reserved done total link with
  | some ports, some transit, some linkLocal => some
      { fromNodeID := link.fromNode.id, toNodeID := link.toNode.id
        fromPort := ports.1, toPort := ports.2
        localTransit := transit.1, remoteTransit := transit.2
        localLL := linkLocal.1, remoteLL := linkLocal.2 }
  | _, _, _ => none

end

/-- A round fails just if there is nothing in the slot that it is to take. -/
inductive Fills {α : Type} (slot : Option α) (leaves : Resources → Prop) : Except LinkError (α × Resources) → Prop
  | error {reason : LinkError} (empty : slot = none) : Fills slot leaves (.error reason)
  | ok {value : α} {after : Resources} (taken : slot = some value) (left : leaves after) :
      Fills slot leaves (.ok (value, after))

section

variable {α : Type} {slot : Option α} {leaves : Resources → Prop} {outcome : Except LinkError (α × Resources)}

theorem Fills.of_ok {value : α} {after : Resources} (fills : Fills slot leaves outcome)
    (ended : outcome = .ok (value, after)) : slot = some value ∧ leaves after := by
  subst ended
  cases fills with
  | ok taken left => exact ⟨taken, left⟩

theorem Fills.of_error (fills : Fills slot leaves outcome) (ended : outcome = .error reason) : slot = none := by
  subst ended
  cases fills with
  | error empty => exact empty

end

def portMarks (port : Nat) : List Int := [(port : Int)]

/-- The ports in use when `count` requests have been served at each node. -/
def PortsServed (reserved : Resources) (count : String → Nat) (used : Resources) : Prop :=
  ∀ nodeID, Served portMarks (freePorts reserved.ports nodeID) (fun port => (nodeID, port) ∈ reserved.ports)
    (count nodeID) fun port => (nodeID, port) ∈ used.ports

def portRequest (node : Node) (nodeID : String) : Nat := if !node.isClient && node.id = nodeID then 1 else 0

variable {reserved used used' : Resources} {done : List LinkEntity} {link : LinkEntity} {total : Nat}
  {count : String → Nat} {rest : List LinkEntity} {allocations : Allocations}

private theorem lowestFreePort_served {count : Nat}
    (served : Served portMarks (freePorts reserved.ports node.id) (fun port => (node.id, port) ∈ reserved.ports)
      count fun port => (node.id, port) ∈ used.ports) :
    lowestFreePort used node =
      (freePorts reserved.ports node.id)[count]?.map fun port : Nat => (port : Int) := by
  have next : portCandidates.find? (fun port : Nat => decide ((node.id, (port : Int)) ∉ used.ports)) =
      (freePorts reserved.ports node.id)[count]? := by
    refine Served.next nodup_range' ?_ ?_ ?_ ?_ served
    · intro first _ second _ port inFirst inSecond
      simp only [portMarks, mem_singleton] at inFirst inSecond
      omega
    all_goals simp [portMarks]
  rw [lowestFreePort, ← next, portCandidates]

private theorem fillPort_fills (served : PortsServed reserved count used) :
    Fills (portAt reserved (count node.id) node) (fun after => after.transit = used.transit ∧
      after.linkLocals = used.linkLocals ∧
      PortsServed reserved (fun nodeID => count nodeID + portRequest node nodeID) after) (fillPort used node) := by
  have lowest := lowestFreePort_served (served node.id)
  cases client : node.isClient with
  | true =>
    simp only [fillPort, client, if_true]
    refine .ok (by simp [portAt, client]) ⟨rfl, rfl, fun nodeID => ?_⟩
    simpa [portRequest, client] using served nodeID
  | false =>
    simp only [fillPort, client, Bool.false_eq_true, if_false, lowest]
    cases free : (freePorts reserved.ports node.id)[count node.id]? with
    | none => exact .error (by simp [portAt, client, free])
    | some candidate =>
      refine .ok (by simp [portAt, client, free]) ⟨rfl, rfl, fun nodeID => ?_⟩
      by_cases here : node.id = nodeID
      · subst here
        have step := (served node.id).step free
        simpa [portRequest, client, portMarks, Served] using step
      · have other := served nodeID
        simpa [portRequest, here, Ne.symm here, Served] using other

section

variable (distinct : link.fromNode.id ≠ link.toNode.id)

include distinct

theorem portRequest_ends (unpinned : pinnedPorts link = none) (nodeID : String) :
    portRequest link.fromNode nodeID + portRequest link.toNode nodeID = if needsPort nodeID link then 1 else 0 := by
  by_cases fromHere : link.fromNode.id = nodeID
  · have toThere : link.toNode.id ≠ nodeID := fun here => distinct (fromHere.trans here.symm)
    simp [portRequest, needsPort, unpinned, fromHere, toThere]
  · simp [portRequest, needsPort, unpinned, fromHere]

private theorem needsPort_count (unpinned : pinnedPorts link = none) (nodeID : String) :
    done.countP (needsPort nodeID) + portRequest link.fromNode nodeID + portRequest link.toNode nodeID =
      (done ++ [link]).countP (needsPort nodeID) := by
  rw [countP_append, countP_singleton, Nat.add_assoc, portRequest_ends distinct unpinned]

theorem fillPorts_fills (served : PortsServed reserved (fun nodeID => done.countP (needsPort nodeID)) used) :
    Fills (expectedPorts reserved done link) (fun after => after.transit = used.transit ∧
      after.linkLocals = used.linkLocals ∧
      PortsServed reserved (fun nodeID => (done ++ [link]).countP (needsPort nodeID)) after) (fillPorts used link) := by
  cases pinned : pinnedPorts link with
  | some pins =>
    simp only [fillPorts, pinned]
    refine .ok (by simp [expectedPorts, pinned]) ⟨rfl, rfl, fun nodeID => ?_⟩
    simpa [countP_append, needsPort, pinned] using served nodeID
  | none =>
    simp only [fillPorts, pinned]
    cases first : fillPort used link.fromNode with
    | error reason =>
      have fromSlot := (fillPort_fills served).of_error first
      exact .error (by simp [expectedPorts, pinned, portSlot, fromSlot])
    | ok outcome =>
      obtain ⟨fromPort, middle⟩ := outcome
      obtain ⟨fromSlot, fromTransit, fromLinkLocals, servedMiddle⟩ := (fillPort_fills served).of_ok first
      have toCount : portRequest link.fromNode link.toNode.id = 0 := by
        simp [portRequest, distinct]
      have toFills := @fillPort_fills link.toNode _ _ _ servedMiddle
      rw [toCount, Nat.add_zero] at toFills
      dsimp only
      cases second : fillPort middle link.toNode with
      | error reason =>
        have toSlot := toFills.of_error second
        exact .error (by simp [expectedPorts, pinned, portSlot, fromSlot, toSlot])
      | ok outcome =>
        obtain ⟨toPort, last⟩ := outcome
        obtain ⟨toSlot, toTransit, toLinkLocals, servedLast⟩ := toFills.of_ok second
        refine .ok (by simp [expectedPorts, pinned, portSlot, fromSlot, toSlot])
          ⟨toTransit.trans fromTransit, toLinkLocals.trans fromLinkLocals, fun nodeID => ?_⟩
        simpa only [needsPort_count distinct pinned] using servedLast nodeID

end

def pairMarks (pair : String × String) : List String := [pair.1, pair.2]

theorem mem_pairMarks {text : String} : text ∈ pairMarks pair ↔ text = pair.1 ∨ text = pair.2 := mem_pair

theorem allocateTransitPair_eq {index : Nat} (allocated : allocateTransitPair index cidr = some pair) :
    ∃ net network, transitNet cidr = some net ∧ net.ip.to4 = some network ∧
      pair = (Allocator.hostText network (2 * index + 1), Allocator.hostText network (2 * index + 2)) := by
  rw [allocateTransitPair] at allocated
  cases parsed : transitNet cidr with
  | none => simp [parsed] at allocated
  | some net =>
    cases isNetwork : net.ip.to4 with
    | none => simp [parsed, isNetwork] at allocated
    | some network =>
      refine ⟨net, network, rfl, isNetwork, ?_⟩
      simp only [parsed, isNetwork] at allocated
      split at allocated
      case isTrue => cases allocated
      case isFalse =>
        split at allocated
        case isTrue => cases allocated
        case isFalse =>
          have next : network + BitVec.ofNat 32 (2 * index + 1) + 1 =
              network + BitVec.ofNat 32 (2 * index + 2) := by
            rw [BitVec.add_assoc]
            congr 1
            apply BitVec.eq_of_toNat_eq
            simp
          rw [next, Option.some.injEq] at allocated
          exact allocated.symm

theorem hostText_injective {network : IPv4} {left right : Nat} (leftSmall : left < 2 ^ 32)
    (rightSmall : right < 2 ^ 32) (same : Allocator.hostText network left = Allocator.hostText network right) :
    left = right := by
  have sums := IPv4.format_injective same
  have summands := (BitVec.add_right_inj network).mp sums
  have numbers := congrArg BitVec.toNat summands
  simpa only [BitVec.toNat_ofNat, Nat.mod_eq_of_lt leftSmall, Nat.mod_eq_of_lt rightSmall] using numbers

theorem transitPoolPairCount_bound {poolPairs : Nat}
    (counted : transitPoolPairCount cidr = .ok poolPairs) : 2 * poolPairs < 2 ^ 32 := by
  rw [transitPoolPairCount] at counted
  cases parsed : transitNet cidr with
  | none => simp [parsed] at counted
  | some net =>
    simp only [parsed] at counted
    have large : 2 ^ (32 - net.ones) ≤ 2 ^ 32 := Nat.pow_le_pow_right (by decide) (by omega)
    split at counted
    case isTrue => cases counted
    case isFalse =>
      split at counted <;> cases counted <;> omega

theorem transitPairs_host (member : pair ∈ transitPairs cidr) :
    ∃ net network index, transitNet cidr = some net ∧ net.ip.to4 = some network ∧
      2 * index + 2 < 2 ^ (32 - net.ones) ∧
      pair = (Allocator.hostText network (2 * index + 1), Allocator.hostText network (2 * index + 2)) := by
  rw [transitPairs] at member
  cases counted : transitPoolPairCount cidr with
  | error reason => simp [counted] at member
  | ok poolPairs =>
    simp only [counted, mem_filterMap, mem_range] at member
    obtain ⟨index, inPool, allocated⟩ := member
    obtain ⟨net, network, parsed, isNetwork, equal⟩ := allocateTransitPair_eq allocated
    refine ⟨net, network, index, parsed, isNetwork, ?_, equal⟩
    simp only [transitPoolPairCount, parsed, isNetwork] at counted
    split at counted
    case isTrue => cases counted
    case isFalse =>
      split at counted <;> cases counted <;> omega

theorem mem_transitPairs (member : pair ∈ transitPairs cidr) :
    ∃ net network index, transitNet cidr = some net ∧ net.ip.to4 = some network ∧ 2 * index + 2 < 2 ^ 32 ∧
      pair = (Allocator.hostText network (2 * index + 1), Allocator.hostText network (2 * index + 2)) := by
  obtain ⟨net, network, index, parsed, isNetwork, small, equal⟩ := transitPairs_host member
  have large : 2 ^ (32 - net.ones) ≤ 2 ^ 32 := Nat.pow_le_pow_right (by decide) (by omega)
  exact ⟨net, network, index, parsed, isNetwork, by omega, equal⟩

theorem transitPairs_separate {first second : String × String}
    (firstMember : first ∈ transitPairs cidr) (secondMember : second ∈ transitPairs cidr) (text : String)
    (inFirst : text ∈ pairMarks first) (inSecond : text ∈ pairMarks second) : first = second := by
  obtain ⟨net, network, i, parsed, isNetwork, iSmall, rfl⟩ := mem_transitPairs firstMember
  obtain ⟨net', network', j, parsed', isNetwork', jSmall, rfl⟩ := mem_transitPairs secondMember
  obtain rfl : net = net' := Option.mem_unique parsed parsed'
  obtain rfl : network = network' := Option.mem_unique isNetwork isNetwork'
  have same : i = j := by
    rcases mem_pairMarks.mp inFirst with rfl | rfl <;> rcases mem_pairMarks.mp inSecond with equal | equal <;>
      have numbers := hostText_injective (by omega) (by omega) equal <;> omega
  rw [same]

theorem transitPairs_nodup (cidr : String) : (transitPairs cidr).Nodup := by
  rw [transitPairs]
  cases counted : transitPoolPairCount cidr with
  | error reason => exact nodup_nil
  | ok poolPairs =>
    have bound := transitPoolPairCount_bound counted
    change ((List.range poolPairs).filterMap fun index => allocateTransitPair index cidr).Pairwise (· ≠ ·)
    rw [pairwise_filterMap]
    refine pairwise_lt_range.imp_of_mem ?_
    rintro i j iMember jMember before _ first _ second rfl
    rw [mem_range] at iMember jMember
    obtain ⟨net, network, parsed, isNetwork, equal⟩ := allocateTransitPair_eq first
    obtain ⟨net', network', parsed', isNetwork', equal'⟩ := allocateTransitPair_eq second
    obtain rfl : net = net' := Option.mem_unique parsed parsed'
    obtain rfl : network = network' := Option.mem_unique isNetwork isNetwork'
    have numbers := hostText_injective (by omega) (by omega) (congrArg Prod.fst (equal.symm.trans equal'))
    omega

private theorem transitPairFree_iff {inUse : List (String × String)} :
    transitPairFree inUse cidr pair = true ↔ ∀ text ∈ pairMarks pair, ¬ (cidr, text) ∈ inUse := by
  simp [transitPairFree, pairMarks]

def TransitServed (reserved : Resources) (done : List LinkEntity) (used : Resources) : Prop :=
  ∀ cidr, Served pairMarks (freeTransitPairs reserved.transit cidr) (fun text => (cidr, text) ∈ reserved.transit)
    (done.countP (needsTransit cidr)) fun text => (cidr, text) ∈ used.transit

private theorem findSome?_filter_eq {α β : Type} (items : List α) (make : α → Option β) (test : β → Bool) :
    (items.findSome? fun item => (make item).filter test) = (items.filterMap make).find? test := by
  induction items with
  | nil => rfl
  | cons item rest ih =>
    cases made : make item with
    | none => simp [made, ih]
    | some value => cases passed : test value <;> simp [made, passed, ih]

private theorem gapFillTransitPair_ok (served : TransitServed reserved done used) :
    gapFillTransitPair used cidr = .ok pair ↔
      (freeTransitPairs reserved.transit cidr)[done.countP (needsTransit cidr)]? = some pair := by
  have next : (transitPairs cidr).find? (transitPairFree used.transit cidr) =
      (freeTransitPairs reserved.transit cidr)[done.countP (needsTransit cidr)]? := by
    refine Served.next (transitPairs_nodup cidr) (fun _ first _ second => transitPairs_separate first second)
      ?_ (fun _ _ => transitPairFree_iff) (fun _ _ => transitPairFree_iff) (served cidr)
    simp [pairMarks]
  rw [← next, gapFillTransitPair, transitPairs]
  cases counted : transitPoolPairCount cidr with
  | error reason => simp
  | ok poolPairs =>
    simp only [findSome?_filter_eq]
    cases ((List.range poolPairs).filterMap fun index => allocateTransitPair index cidr).find?
      (transitPairFree used.transit cidr) <;> simp

theorem fillTransit_fills (served : TransitServed reserved done used) :
    Fills (expectedTransit reserved done link) (fun after => after.ports = used.ports ∧
      after.linkLocals = used.linkLocals ∧ TransitServed reserved (done ++ [link]) after) (fillTransit used link) := by
  cases pinned : pinnedTransit link with
  | some pins =>
    simp only [fillTransit, pinned]
    refine .ok (by simp [expectedTransit, pinned]) ⟨rfl, rfl, fun cidr => ?_⟩
    simpa [countP_append, needsTransit, pinned] using served cidr
  | none =>
    simp only [fillTransit, pinned]
    cases gap : gapFillTransitPair used link.transitCIDR with
    | error reason =>
      have unserved : expectedTransit reserved done link = none := by
        rw [expectedTransit, pinned, Option.eq_none_iff_forall_ne_some]
        intro pair slot
        cases gap.symm.trans ((gapFillTransitPair_ok served).mpr slot)
      exact .error unserved
    | ok chosen =>
      have slot := (gapFillTransitPair_ok served).mp gap
      refine .ok (by simp [expectedTransit, pinned, slot]) ⟨rfl, rfl, fun cidr => ?_⟩
      by_cases here : link.transitCIDR = cidr
      · subst here
        have step := (served link.transitCIDR).step slot
        simpa [countP_append, needsTransit, pinned, pairMarks, Served, or_assoc] using step
      · have other := served cidr
        simpa [countP_append, needsTransit, here, Ne.symm here, Served] using other

def LinkLocalsServed (reserved : Resources) (total : Nat) (done : List LinkEntity) (used : Resources) : Prop :=
  Served linkLocalMarks (freeLinkLocals reserved.linkLocals total) (· ∈ reserved.linkLocals)
    (done.countP needsLinkLocal) (· ∈ used.linkLocals)

private theorem find?_range_unique {test : Nat → Bool} {bound bound' i j : Nat}
    (first : (List.range bound).find? test = some i) (second : (List.range bound').find? test = some j) :
    i = j := by
  rw [find?_range_eq_some] at first second
  obtain ⟨passI, -, leastI⟩ := first
  obtain ⟨passJ, -, leastJ⟩ := second
  rcases Nat.lt_trichotomy i j with before | same | after
  · have blocked := leastJ i before
    simp [passI] at blocked
  · exact same
  · have blocked := leastI j after
    simp [passJ] at blocked

theorem gapFillLinkLocalPair_served (served : LinkLocalsServed reserved total done used)
    (room : done.countP needsLinkLocal < total) :
    ∃ index, (freeLinkLocals reserved.linkLocals total)[done.countP needsLinkLocal]? = some index ∧
      gapFillLinkLocalPair used = allocateLinkLocalPair index := by
  have enough := linkLocalFree_length_ge reserved.linkLocals total
  have slot : (freeLinkLocals reserved.linkLocals total)[done.countP needsLinkLocal]? =
      some ((freeLinkLocals reserved.linkLocals total).get ⟨_, Nat.lt_of_lt_of_le room enough⟩) :=
    getElem?_eq_getElem _
  have next : (List.range (reserved.linkLocals.length + total)).find? (linkLocalFree used.linkLocals) =
      (freeLinkLocals reserved.linkLocals total)[done.countP needsLinkLocal]? := by
    refine Served.next nodup_range (fun i _ j _ => linkLocalMarks_separate i j) ?_
      (fun _ _ => linkLocalFree_iff) (fun _ _ => linkLocalFree_iff) served
    simp [linkLocalMarks]
  refine ⟨_, slot, ?_⟩
  rw [slot] at next
  exact congrArg allocateLinkLocalPair
    (find?_range_unique (Option.some_get (exists_linkLocalFree used.linkLocals)).symm next)

private theorem fillLinkLocal_spec (link : LinkEntity) (served : LinkLocalsServed reserved total done used)
    (room : done.countP needsLinkLocal < total) :
    expectedLinkLocal reserved done total link = some (fillLinkLocal used link).1 ∧
      (fillLinkLocal used link).2.ports = used.ports ∧
      (fillLinkLocal used link).2.transit = used.transit ∧
      LinkLocalsServed reserved total (done ++ [link]) (fillLinkLocal used link).2 := by
  cases pinned : pinnedLinkLocal link with
  | some pins =>
    refine ⟨by simp [expectedLinkLocal, fillLinkLocal, pinned], by simp [fillLinkLocal, pinned],
      by simp [fillLinkLocal, pinned], ?_⟩
    simpa [LinkLocalsServed, fillLinkLocal, countP_append, needsLinkLocal, pinned] using served
  | none =>
    obtain ⟨index, slot, filled⟩ := gapFillLinkLocalPair_served served room
    refine ⟨by simp [expectedLinkLocal, fillLinkLocal, pinned, slot, filled],
      by simp [fillLinkLocal, pinned], by simp [fillLinkLocal, pinned], ?_⟩
    have step := Served.step served slot
    simpa [LinkLocalsServed, fillLinkLocal, countP_append, needsLinkLocal, pinned, filled, Served,
      linkLocalMarks, or_assoc] using step

/-- What the loop has done after the links `done`. -/
structure Progress (reserved : Resources) (total : Nat) (done : List LinkEntity) (used : Resources) : Prop where
  ports : PortsServed reserved (fun nodeID => done.countP (needsPort nodeID)) used
  transit : TransitServed reserved done used
  linkLocals : LinkLocalsServed reserved total done used

theorem Progress.start (reserved : Resources) (total : Nat) : Progress reserved total [] reserved where
  ports := fun _ => Served.start _ _ _
  transit := fun _ => Served.start _ _ _
  linkLocals := Served.start _ _ _

theorem fillLink_fills (progress : Progress reserved total done used)
    (distinct : link.fromNode.id ≠ link.toNode.id) (room : done.length < total) :
    Fills (expectedAllocation reserved done total link) (Progress reserved total (done ++ [link]))
      (fillLink used link) := by
  have request : done.countP needsLinkLocal < total := Nat.lt_of_le_of_lt countP_le_length room
  rw [fillLink]
  cases first : fillPorts used link with
  | error reason =>
    have portsSlot := (fillPorts_fills distinct progress.ports).of_error first
    exact .error (by simp [expectedAllocation, portsSlot])
  | ok outcome =>
    obtain ⟨ports, afterPorts⟩ := outcome
    obtain ⟨portsSlot, sameTransit, sameLinkLocals, portsServed⟩ :=
      (fillPorts_fills distinct progress.ports).of_ok first
    have transitServed : TransitServed reserved done afterPorts := fun cidr => by
      simpa only [sameTransit] using progress.transit cidr
    dsimp only
    cases second : fillTransit afterPorts link with
    | error reason =>
      have transitSlot := (fillTransit_fills transitServed).of_error second
      exact .error (by simp [expectedAllocation, transitSlot])
    | ok outcome =>
      obtain ⟨transit, afterTransit⟩ := outcome
      obtain ⟨transitSlot, samePorts, sameLinkLocals', transitServed'⟩ :=
        (fillTransit_fills transitServed).of_ok second
      have linkLocalsServed : LinkLocalsServed reserved total done afterTransit := by
        simpa only [LinkLocalsServed, sameLinkLocals', sameLinkLocals] using progress.linkLocals
      obtain ⟨linkLocalSlot, samePorts', sameTransit', linkLocalsServed'⟩ :=
        fillLinkLocal_spec link linkLocalsServed request
      refine .ok (by simp [expectedAllocation, portsSlot, transitSlot, linkLocalSlot]) ⟨?_, ?_, linkLocalsServed'⟩
      · intro nodeID
        simpa only [samePorts', samePorts] using portsServed nodeID
      · intro cidr
        simpa only [sameTransit'] using transitServed' cidr

def expectedAllocations (reserved : Resources) (total : Nat) :
    List LinkEntity → List LinkEntity → Option (Allocations)
  | _, [] => some []
  | done, link :: rest =>
    match expectedAllocation reserved done total link,
        expectedAllocations reserved total (done ++ [link]) rest with
    | some alloc, some later => some ((link.linkKey, alloc) :: later)
    | _, _ => none

theorem fillLinks_toOption (progress : Progress reserved total done used)
    (distinct : ∀ link ∈ links, link.fromNode.id ≠ link.toNode.id) (room : done.length + links.length ≤ total) :
    (fillLinks used links).toOption = expectedAllocations reserved total done links := by
  induction links generalizing done used with
  | nil => rfl
  | cons link rest ih =>
    have here : link.fromNode.id ≠ link.toNode.id := distinct link mem_cons_self
    rw [length_cons] at room
    cases filled : fillLink used link with
    | error reason =>
      have slot := (fillLink_fills progress here (by omega)).of_error filled
      simp [fillLinks, filled, expectedAllocations, slot, Except.toOption]
    | ok outcome =>
      obtain ⟨alloc, used'⟩ := outcome
      obtain ⟨slot, progress'⟩ := (fillLink_fills progress here (by omega)).of_ok filled
      have later := ih progress' (fun other member => distinct other (mem_cons_of_mem _ member))
        (by rw [length_append, length_singleton]; omega)
      rw [expectedAllocations, slot, ← later]
      cases tail : fillLinks used' rest <;> simp [fillLinks, filled, tail, Except.toOption]

theorem expectedAllocation_perm {other : List LinkEntity} (same : done.Perm other) :
    expectedAllocation reserved done total link = expectedAllocation reserved other total link := by
  simp only [expectedAllocation, expectedPorts, expectedTransit, expectedLinkLocal, portSlot, same.countP_eq]

theorem expectedAllocations_cons
    (expected : expectedAllocations reserved total done (link :: rest) = some allocations) :
    ∃ alloc later, expectedAllocation reserved done total link = some alloc ∧
      expectedAllocations reserved total (done ++ [link]) rest = some later ∧
      allocations = (link.linkKey, alloc) :: later := by
  rw [expectedAllocations] at expected
  split at expected
  case h_1 alloc later first tail => exact ⟨alloc, later, first, tail, (Option.some.inj expected).symm⟩
  case h_2 => cases expected

theorem expectedAllocations_lookup {before : List LinkEntity}
    (expected : expectedAllocations reserved total done (before ++ link :: rest) = some allocations)
    (fresh : ∀ other ∈ before, other.linkKey ≠ link.linkKey) :
    ∃ alloc, lookupAllocation allocations link.linkKey = some alloc ∧
      expectedAllocation reserved (done ++ before) total link = some alloc := by
  induction before generalizing done allocations with
  | nil =>
    obtain ⟨alloc, later, first, -, rfl⟩ := expectedAllocations_cons expected
    exact ⟨alloc, by simp [lookupAllocation], by simpa using first⟩
  | cons head before ih =>
    obtain ⟨alloc, later, -, tail, rfl⟩ := expectedAllocations_cons expected
    have other : head.linkKey ≠ link.linkKey := fresh head mem_cons_self
    obtain ⟨found, lookup, slot⟩ := ih tail fun link member => fresh link (mem_cons_of_mem _ member)
    refine ⟨found, ?_, by simpa using slot⟩
    simpa [lookupAllocation, other] using lookup

def earlierLinks (links : List LinkEntity) (link : LinkEntity) : List LinkEntity :=
  links.filter fun other => textLT other.linkKey link.linkKey

theorem sortLinks_perm (links : List LinkEntity) : (sortLinks links).Perm links :=
  perm_insertionSort _ links

theorem sortLinks_pairwise (distinct : (links.map LinkEntity.linkKey).Nodup) :
    (sortLinks links).Pairwise fun first second => textLT first.linkKey second.linkKey = true := by
  let ordered := fun first second : LinkEntity => textLE first.linkKey second.linkKey = true
  have : Std.Total ordered := ⟨fun first second => textLE_total _ _⟩
  have : IsTrans LinkEntity ordered := ⟨fun _ _ _ => textLE_trans⟩
  have sorted : (sortLinks links).Pairwise ordered := pairwise_insertionSort ordered links
  have different : (sortLinks links).Pairwise fun first second => first.linkKey ≠ second.linkKey := by
    have keys : ((sortLinks links).map LinkEntity.linkKey).Nodup :=
      ((sortLinks_perm links).map LinkEntity.linkKey).nodup_iff.mpr distinct
    exact pairwise_map.mp keys
  exact (sorted.and different).imp textLT_iff.mpr

theorem earlierLinks_sorted {before : List LinkEntity}
    (distinct : (links.map LinkEntity.linkKey).Nodup) (split : sortLinks links = before ++ link :: rest) :
    (earlierLinks links link).Perm before := by
  have ordered := sortLinks_pairwise distinct
  rw [split, pairwise_append, pairwise_cons] at ordered
  obtain ⟨-, ⟨after, -⟩, across⟩ := ordered
  have filtered : (sortLinks links).filter (fun other => textLT other.linkKey link.linkKey) = before := by
    have keep : before.filter (fun other => textLT other.linkKey link.linkKey) = before :=
      filter_eq_self.mpr fun other member => across other member link mem_cons_self
    have drop : rest.filter (fun other => textLT other.linkKey link.linkKey) = [] :=
      filter_eq_nil_iff.mpr fun other member => by simp [textLT_asymm (after other member)]
    rw [split, filter_append, filter_cons_of_neg (by simp [textLT_irrefl]), keep, drop, append_nil]
  have permuted := (sortLinks_perm links).filter fun other => textLT other.linkKey link.linkKey
  rw [filtered] at permuted
  exact permuted.symm

/-- A successful allocation gives every link its pins, or the free candidates numbered by the links
with smaller keys that ask the same pools. -/
theorem preallocate_lookup (distinctKeys : (links.map LinkEntity.linkKey).Nodup)
    (distinctEnds : ∀ link ∈ links, link.fromNode.id ≠ link.toNode.id)
    (allocated : preallocateLinkResources links reserved = .ok allocations) (member : link ∈ links) :
    ∃ alloc, lookupAllocation allocations link.linkKey = some alloc ∧
      expectedAllocation (reservePins reserved links) (earlierLinks links link) links.length link = some alloc := by
  have inSorted : link ∈ sortLinks links := (sortLinks_perm links).mem_iff.mpr member
  obtain ⟨before, rest, split⟩ := append_of_mem inSorted
  have expected : expectedAllocations (reservePins reserved links) links.length [] (sortLinks links) =
      some allocations := by
    rw [← fillLinks_toOption (Progress.start _ _)
      (fun other inside => distinctEnds other ((sortLinks_perm links).mem_iff.mp inside))
      (by simp [(sortLinks_perm links).length_eq])]
    rw [preallocateLinkResources] at allocated
    rw [allocated]
    rfl
  have ordered := sortLinks_pairwise distinctKeys
  rw [split, pairwise_append] at ordered
  rw [split] at expected
  obtain ⟨alloc, lookup, slot⟩ := expectedAllocations_lookup expected fun other inside =>
    (textLT_iff.mp (ordered.2.2 other inside link mem_cons_self)).2
  refine ⟨alloc, lookup, ?_⟩
  rw [expectedAllocation_perm (earlierLinks_sorted distinctKeys split)]
  exact slot

theorem expectedAllocations_none (failed : expectedAllocations reserved total done links = none) :
    ∃ before link rest, links = before ++ link :: rest ∧
      expectedAllocation reserved (done ++ before) total link = none := by
  induction links generalizing done with
  | nil => cases failed
  | cons link rest ih =>
    cases slot : expectedAllocation reserved done total link with
    | none => exact ⟨[], link, rest, rfl, by simpa using slot⟩
    | some alloc =>
      cases tail : expectedAllocations reserved total (done ++ [link]) rest with
      | some later => simp [expectedAllocations, slot, tail] at failed
      | none =>
        obtain ⟨before, other, later, rfl, missing⟩ := ih tail
        exact ⟨link :: before, other, later, rfl, by simpa using missing⟩

/-- What a link is due, by its rank. -/
def rankedSlot (links : List LinkEntity) (reserved : Resources) (link : LinkEntity) : Option PairAllocation :=
  expectedAllocation (reservePins reserved links) (earlierLinks links link) links.length link

/-- The loop gives every link its slot, and fails only if some link has none. -/
theorem preallocate_refines_ranks (links : List LinkEntity) (reserved : Resources)
    (distinctKeys : (links.map LinkEntity.linkKey).Nodup)
    (distinctEnds : ∀ link ∈ links, link.fromNode.id ≠ link.toNode.id) :
    (∀ allocations, preallocateLinkResources links reserved = .ok allocations →
        ∀ link ∈ links, lookupAllocation allocations link.linkKey = rankedSlot links reserved link) ∧
      ∀ reason, preallocateLinkResources links reserved = .error reason →
        ∃ link ∈ links, rankedSlot links reserved link = none := by
  refine ⟨fun allocations allocated link member => ?_, fun reason failed => ?_⟩
  · obtain ⟨alloc, lookup, expected⟩ := preallocate_lookup distinctKeys distinctEnds allocated member
    exact lookup.trans expected.symm
  · have loop := fillLinks_toOption (Progress.start (reservePins reserved links) links.length)
      (fun other inside => distinctEnds other ((sortLinks_perm links).mem_iff.mp inside))
      (by simp [(sortLinks_perm links).length_eq])
    rw [preallocateLinkResources] at failed
    rw [failed] at loop
    obtain ⟨before, link, rest, split, missing⟩ := expectedAllocations_none loop.symm
    refine ⟨link, (sortLinks_perm links).mem_iff.mp (by simp [split]), ?_⟩
    exact (expectedAllocation_perm (earlierLinks_sorted distinctKeys split)).trans missing

def sampleLink (fromID toID pinnedFrom pinnedTo : String) : LinkEntity :=
  let node (id : String) : Node := { id, name := id, role := .router, domainID := "d" }
  ⟨{ id := fromID ++ toID, fromNodeID := fromID, toNodeID := toID, type := .direct, pinnedFromTransitIP := pinnedFrom,
     pinnedToTransitIP := pinnedTo }, node fromID, node toID, "10.10.0.0/24"⟩

def sampleLinks : List LinkEntity :=
  [sampleLink "a" "b" "" "", sampleLink "a" "c" "10.10.0.1" "10.10.0.2", sampleLink "b" "c" "" ""]

/-- The second link keeps the first pair of the pool, and the others get the next ones. -/
theorem sampleLinks_ranked : ∃ allocations, preallocateLinkResources sampleLinks {} = .ok allocations ∧
    (∀ link ∈ sampleLinks, lookupAllocation allocations link.linkKey = rankedSlot sampleLinks {} link) ∧
    sampleLinks.map (fun link => (rankedSlot sampleLinks {} link).map (·.localTransit)) =
      [some "10.10.0.3", some "10.10.0.1", some "10.10.0.5"] := by
  have evaluated : (preallocateLinkResources sampleLinks {}).toOption.isSome = true := by decide +kernel
  have ranked := (preallocate_refines_ranks sampleLinks {} (by decide +kernel) (by decide +kernel)).1
  cases allocated : preallocateLinkResources sampleLinks {} with
  | error reason => simp [allocated, Except.toOption] at evaluated
  | ok allocations => exact ⟨allocations, rfl, ranked allocations allocated, by decide +kernel⟩

end Yaog.Compiler
