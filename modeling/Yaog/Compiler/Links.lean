import Mathlib.Data.List.Sort
import Yaog.Allocator.Overlay
import Yaog.Data.LowestFree

/-!
# Links and their resources

`groupLinks` folds the enabled edges into links, each represented by its first edge.
-/

namespace Yaog.Compiler

open Net List

structure LinkEntity where
  primaryEdge : Edge
  fromNode : Node
  toNode : Node
  transitCIDR : String
  deriving DecidableEq

def LinkEntity.linkKey (link : LinkEntity) : String := link.primaryEdge.linkKey

def LinkEntity.backup (link : LinkEntity) : Bool := link.primaryEdge.isBackup

def linkEntity (topo : Topology) (resolved : ResolvedEdge) : LinkEntity where
  primaryEdge := resolved.edge
  fromNode := resolved.fromNode
  toNode := resolved.toNode
  transitCIDR := topo.transitCIDR resolved.fromNode

/-- `groupLinks`. -/
def groupLinks (topo : Topology) : List LinkEntity := topo.firstEdges.map (linkEntity topo)

/-- The three used-sets of the allocator. `ReservedAllocations` has the same shape. -/
structure Resources where
  ports : List (String × Int) := []
  transit : List (String × String) := []
  linkLocals : List String := []

def Resources.union (first second : Resources) : Resources where
  ports := first.ports ++ second.ports
  transit := first.transit ++ second.transit
  linkLocals := first.linkLocals ++ second.linkLocals

/-- What a link has been given, seen from its representative edge. -/
structure PairAllocation where
  fromNodeID : String
  toNodeID : String
  fromPort : Int := 0
  toPort : Int := 0
  localTransit : String := ""
  remoteTransit : String := ""
  localLL : String := ""
  remoteLL : String := ""

/-- By link key. -/
abbrev Allocations := List (String × PairAllocation)

def transitNet (cidr : String) : Option IPNet := parseCIDR (if cidr = "" then defaultTransitCIDR else cidr)

inductive TransitError where
  | cidrInvalid (cidr : String)
  | cidrNotIPv4 (cidr : String)
  | poolExhausted (cidr : String)
  deriving DecidableEq, Repr

/-- `transitPoolPairCount`. -/
def transitPoolPairCount (cidr : String) : Except TransitError Nat :=
  match transitNet cidr with
  | none => .error (.cidrInvalid cidr)
  | some net =>
    if net.ip.to4 = none then .error (.cidrNotIPv4 cidr)
    else if 32 - net.ones < 2 then .ok 0
    else .ok ((2 ^ (32 - net.ones) - 2) / 2)

/-- `allocateTransitPair`: the two hosts `2 * index + 1` and `2 * index + 2` of the pool. -/
def allocateTransitPair (index : Nat) (cidr : String) : Option (String × String) :=
  match transitNet cidr with
  | none => none
  | some net =>
    match net.ip.to4 with
    | none => none
    | some network =>
      if 32 - net.ones < 2 then none
      else
        let broadcast := network ||| BitVec.ofNat 32 (2 ^ (32 - net.ones) - 1)
        let first := network + BitVec.ofNat 32 (2 * index + 1)
        let second := first + 1
        if second < first ∨ first ≤ network ∨ broadcast ≤ first ∨ second ≤ network ∨ broadcast ≤ second
        then none
        else some (first.format, second.format)

def linkLocalText (number : Nat) : String := "fe80::" ++ hexText number

/-- `allocateLinkLocalPair`. -/
def allocateLinkLocalPair (index : Nat) : String × String :=
  (linkLocalText (2 * index + 1), linkLocalText (2 * index + 2))

theorem linkLocalText_injective : Function.Injective linkLocalText := by
  intro left right same
  exact hexText_injective ((String.append_right_inj _).mp same)

/-- `lowestFreePort`. -/
def lowestFreePort (used : Resources) (node : Node) : Option Int :=
  ((List.range' wgListenPortBase (65536 - wgListenPortBase)).find? fun port : Nat =>
    ((node.id, (port : Int)) ∉ used.ports)).map fun port : Nat => (port : Int)

def transitPairFree (used : List (String × String)) (cidr : String) (pair : String × String) : Bool :=
  (cidr, pair.1) ∉ used && (cidr, pair.2) ∉ used

/-- `gapFillTransitPair`. -/
def gapFillTransitPair (used : Resources) (cidr : String) : Except TransitError (String × String) :=
  match transitPoolPairCount cidr with
  | .error reason => .error reason
  | .ok poolPairs =>
    match (List.range poolPairs).findSome? fun index =>
        (allocateTransitPair index cidr).filter (transitPairFree used.transit cidr) with
    | some pair => .ok pair
    | none => .error (.poolExhausted cidr)

def linkLocalFree (used : List String) (index : Nat) : Bool :=
  (allocateLinkLocalPair index).1 ∉ used && (allocateLinkLocalPair index).2 ∉ used

def linkLocalMarks (index : Nat) : List String :=
  [(allocateLinkLocalPair index).1, (allocateLinkLocalPair index).2]

theorem linkLocalMarks_separate (i j : Nat) (text : String) (inFirst : text ∈ linkLocalMarks i)
    (inSecond : text ∈ linkLocalMarks j) : i = j := by
  simp only [linkLocalMarks, allocateLinkLocalPair, mem_cons, not_mem_nil, or_false] at inFirst inSecond
  rcases inFirst with rfl | rfl <;> rcases inSecond with same | same <;>
    have numbers := linkLocalText_injective same <;> omega

theorem linkLocalFree_iff {used : List String} {index : Nat} :
    linkLocalFree used index = true ↔ ∀ text ∈ linkLocalMarks index, text ∉ used := by
  simp [linkLocalFree, linkLocalMarks]

theorem linkLocalFree_length_ge (used : List String) (count : Nat) :
    count ≤ ((List.range (used.length + count)).filter (linkLocalFree used)).length := by
  apply Data.free_length_ge linkLocalMarks_separate used
  intro index taken
  by_contra clear
  push Not at clear
  rw [linkLocalFree_iff.mpr clear] at taken
  cases taken

theorem exists_linkLocalFree (used : List String) :
    ((List.range (used.length + 1)).find? (linkLocalFree used)).isSome = true := by
  have found := linkLocalFree_length_ge used 1
  obtain ⟨index, member⟩ := exists_mem_of_length_pos found
  rw [find?_isSome]
  exact ⟨index, mem_of_mem_filter member, (mem_filter.mp member).2⟩

/-- `gapFillLinkLocalPair`. -/
def gapFillLinkLocalPair (used : Resources) : String × String :=
  allocateLinkLocalPair (((List.range (used.linkLocals.length + 1)).find? (linkLocalFree used.linkLocals)).get
    (exists_linkLocalFree used.linkLocals))

def pinnedPorts (link : LinkEntity) : Option (Int × Int) :=
  let edge := link.primaryEdge
  if link.fromNode.isClient && !link.toNode.isClient && 0 < edge.pinnedToPort then
    some (0, edge.pinnedToPort)
  else if link.toNode.isClient && !link.fromNode.isClient && 0 < edge.pinnedFromPort then
    some (edge.pinnedFromPort, 0)
  else if !link.fromNode.isClient && !link.toNode.isClient && 0 < edge.pinnedFromPort && 0 < edge.pinnedToPort then
    some (edge.pinnedFromPort, edge.pinnedToPort)
  else none

def pinnedTransit (link : LinkEntity) : Option (String × String) :=
  let edge := link.primaryEdge
  if edge.pinnedFromTransitIP ≠ "" ∧ edge.pinnedToTransitIP ≠ "" then
    some (edge.pinnedFromTransitIP, edge.pinnedToTransitIP)
  else none

def pinnedLinkLocal (link : LinkEntity) : Option (String × String) :=
  let edge := link.primaryEdge
  if edge.pinnedFromLinkLocal ≠ "" ∧ edge.pinnedToLinkLocal ≠ "" then
    some (edge.pinnedFromLinkLocal, edge.pinnedToLinkLocal)
  else none

def pinnedResources (link : LinkEntity) : Resources where
  ports :=
    match pinnedPorts link with
    | none => []
    | some (fromPort, toPort) =>
      (if fromPort = 0 then [] else [(link.fromNode.id, fromPort)])
        ++ if toPort = 0 then [] else [(link.toNode.id, toPort)]
  transit :=
    match pinnedTransit link with
    | none => []
    | some (first, second) => [(link.transitCIDR, first), (link.transitCIDR, second)]
  linkLocals :=
    match pinnedLinkLocal link with
    | none => []
    | some (first, second) => [first, second]

def reservePins (reserved : Resources) (links : List LinkEntity) : Resources :=
  links.foldl (fun used link => used.union (pinnedResources link)) reserved

inductive LinkError where
  | listenPortExhausted (node : String)
  | transitAllocation (fromNode toNode : String) (cause : TransitError)

def fillPort (used : Resources) (node : Node) : Except LinkError (Int × Resources) :=
  if node.isClient then .ok (0, used)
  else
    match lowestFreePort used node with
    | some port => .ok (port, { used with ports := (node.id, port) :: used.ports })
    | none => .error (.listenPortExhausted node.name)

def fillPorts (used : Resources) (link : LinkEntity) : Except LinkError ((Int × Int) × Resources) :=
  match pinnedPorts link with
  | some ports => .ok (ports, used)
  | none =>
    match fillPort used link.fromNode with
    | .error reason => .error reason
    | .ok (fromPort, used) =>
      match fillPort used link.toNode with
      | .error reason => .error reason
      | .ok (toPort, used) => .ok ((fromPort, toPort), used)

def fillTransit (used : Resources) (link : LinkEntity) : Except LinkError ((String × String) × Resources) :=
  match pinnedTransit link with
  | some pair => .ok (pair, used)
  | none =>
    match gapFillTransitPair used link.transitCIDR with
    | .error cause => .error (.transitAllocation link.fromNode.name link.toNode.name cause)
    | .ok pair => .ok (pair, { used with
        transit := (link.transitCIDR, pair.1) :: (link.transitCIDR, pair.2) :: used.transit })

def fillLinkLocal (used : Resources) (link : LinkEntity) : (String × String) × Resources :=
  match pinnedLinkLocal link with
  | some pair => (pair, used)
  | none =>
    let pair := gapFillLinkLocalPair used
    (pair, { used with linkLocals := pair.1 :: pair.2 :: used.linkLocals })

def fillLink (used : Resources) (link : LinkEntity) : Except LinkError (PairAllocation × Resources) :=
  match fillPorts used link with
  | .error reason => .error reason
  | .ok (ports, used) =>
    match fillTransit used link with
    | .error reason => .error reason
    | .ok (transit, used) =>
      let (linkLocal, used) := fillLinkLocal used link
      .ok ({ fromNodeID := link.fromNode.id, toNodeID := link.toNode.id
             fromPort := ports.1, toPort := ports.2
             localTransit := transit.1, remoteTransit := transit.2
             localLL := linkLocal.1, remoteLL := linkLocal.2 }, used)

def fillLinks : Resources → List LinkEntity → Except LinkError (Allocations)
  | _, [] => .ok []
  | used, link :: rest =>
    match fillLink used link with
    | .error reason => .error reason
    | .ok (alloc, used) =>
      match fillLinks used rest with
      | .error reason => .error reason
      | .ok allocations => .ok ((link.linkKey, alloc) :: allocations)

def sortLinks (links : List LinkEntity) : List LinkEntity :=
  links.insertionSort fun first second => Data.textLE first.linkKey second.linkKey = true

/-- `preallocateLinkResources`. -/
def preallocateLinkResources (links : List LinkEntity) (reserved : Resources) :
    Except LinkError (Allocations) :=
  fillLinks (reservePins reserved links) (sortLinks links)

def lookupAllocation (allocations : Allocations) (key : String) : Option PairAllocation :=
  (allocations.find? fun entry => entry.1 = key).map (·.2)

end Yaog.Compiler
