import Yaog.Allocator.OverlayFacts
import Yaog.Data.SerialChoice

/-!
# Overlay addresses and the order of the nodes

The allocator serves the nodes without an address in the order of the array, each with the lowest host of its domain
that is left.
-/

namespace Yaog.Allocator

open Data Net Validator List

variable {number : Nat} {node : Node} {usedIPs : List String} {taken : List Nat} {nodes after : List Node}
  {picked : List (Node × Nat)} {domain : Domain} {net : IPNet} {network : IPv4}

def addressText (number : Nat) : String := IPv4.format (BitVec.ofNat 32 number)

def domainHosts (domain : Domain) : List Nat :=
  match parseCIDR domain.cidr with
  | none => []
  | some net =>
    match net.ip.to4 with
    | none => []
    | some network =>
      (List.range' (firstHost net) (endHost net - firstHost net)).map fun host =>
        (network + BitVec.ofNat 32 host).toNat

def freeHosts (topo : Topology) (node : Node) : List Nat :=
  match topo.domain? node.domainID with
  | none => []
  | some domain =>
    (domainHosts domain).filter fun number =>
      addressText number ∉ carriedIPs topo.nodes && notReserved domain.reservedRanges (addressText number)

def blankNodes (nodes : List Node) : List Node := nodes.filter fun node => node.overlayIP = ""

theorem addressText_toNat (address : IPv4) : addressText address.toNat = address.format := by
  rw [addressText, BitVec.ofNat_toNat, BitVec.setWidth_eq]

theorem addressText_inj {number' : Nat} (small : number < 2 ^ 32) (small' : number' < 2 ^ 32)
    (same : addressText number = addressText number') : number = number' := by
  have addresses := congrArg BitVec.toNat (IPv4.format_injective same)
  rwa [BitVec.toNat_ofNat, BitVec.toNat_ofNat, Nat.mod_eq_of_lt small, Nat.mod_eq_of_lt small'] at addresses

theorem domainHosts_eq (parsed : parseCIDR domain.cidr = some net) (isNetwork : net.ip.to4 = some network) :
    domainHosts domain = (List.range' (firstHost net) (endHost net - firstHost net)).map fun host =>
      (network + BitVec.ofNat 32 host).toNat := by
  rw [domainHosts, parsed]
  simp only [isNetwork]

theorem domainHosts_sorted (domain : Domain) : (domainHosts domain).Pairwise (· < ·) := by
  cases parsed : parseCIDR domain.cidr with
  | none => simp [domainHosts, parsed]
  | some net =>
    cases isNetwork : net.ip.to4 with
    | none => simp [domainHosts, parsed, isNetwork]
    | some network =>
      rw [domainHosts_eq parsed isNetwork, pairwise_map]
      have ascending : (List.range' (firstHost net) (endHost net - firstHost net)).Pairwise (· < ·) :=
        pairwise_lt_range' _
      refine ascending.imp_of_mem ?_
      intro host host' member member' before
      have narrow := IPNet.hostBits_le_of_to4 isNetwork
      rw [(IPNet.host_toNat isNetwork narrow (host_bound member)).1,
        (IPNet.host_toNat isNetwork narrow (host_bound member')).1]
      omega

variable {env : Externals} {topo : Topology}

theorem freeHosts_sorted (node : Node) : (freeHosts topo node).Pairwise (· < ·) := by
  rw [freeHosts]
  cases topo.domain? node.domainID with
  | none => exact List.Pairwise.nil
  | some domain => exact (domainHosts_sorted domain).filter _

theorem freeHosts_small (member : number ∈ freeHosts topo node) : number < 2 ^ 32 := by
  rw [freeHosts] at member
  cases isDomain : topo.domain? node.domainID with
  | none => simp [isDomain] at member
  | some domain =>
    simp only [isDomain, mem_filter] at member
    cases parsed : parseCIDR domain.cidr with
    | none => simp [domainHosts, parsed] at member
    | some net =>
      cases isNetwork : net.ip.to4 with
      | none => simp [domainHosts, parsed, isNetwork] at member
      | some network =>
        rw [domainHosts_eq parsed isNetwork, mem_map] at member
        obtain ⟨⟨host, -, rfl⟩, -⟩ := member
        exact BitVec.isLt _

def InUse (topo : Topology) (usedIPs : List String) (taken : List Nat) : Prop :=
  ∀ number, number < 2 ^ 32 →
    (addressText number ∈ usedIPs ↔ addressText number ∈ carriedIPs topo.nodes ∨ number ∈ taken)

theorem find?_freeHosts (isDomain : topo.domain? node.domainID = some domain)
    (scanned : Scanned domain.cidr net network) (inUse : InUse topo usedIPs taken) :
    (freeHosts topo node).find? (· ∉ taken) =
      ((List.range' (firstHost net) (endHost net - firstHost net)).find? fun host =>
        hostText network host ∉ usedIPs && notReserved domain.reservedRanges (hostText network host)).map fun host =>
          (network + BitVec.ofNat 32 host).toNat := by
  rw [freeHosts, isDomain]
  simp only
  rw [domainHosts_eq scanned.parsed scanned.isNetwork, filter_map, find?_map, find?_filter]
  refine congrArg (Option.map _) (congrArg (List.find? · _) (funext fun host => ?_))
  have text : addressText (network + BitVec.ofNat 32 host).toNat = hostText network host := addressText_toNat _
  have used := inUse (network + BitVec.ofNat 32 host).toNat (BitVec.isLt _)
  rw [text] at used
  simp only [Function.comp_apply, text, used]
  cases notReserved domain.reservedRanges (hostText network host) <;> simp

/-- The addresses nodes end up with: the one a node carries, or the one it picked. -/
structure Follows (nodes after : List Node) (picked : List (Node × Nat)) : Prop where
  origin : ∀ node ∈ after, ∃ before ∈ nodes, node.id = before.id ∧
    (before.overlayIP ≠ "" → node.overlayIP = before.overlayIP) ∧
    (before.overlayIP = "" → ∃ number, (before, number) ∈ picked ∧ node.overlayIP = addressText number)
  target : ∀ entry ∈ picked, ∃ node ∈ after, node.id = entry.1.id ∧ node.overlayIP = addressText entry.2

theorem Follows.keep (follows : Follows nodes after picked) (carries : node.overlayIP ≠ "") :
    Follows (node :: nodes) (node :: after) picked := by
  refine ⟨fun found member => ?_, fun entry member => ?_⟩
  · rcases mem_cons.mp member with rfl | later
    · exact ⟨found, mem_cons_self, rfl, fun _ => rfl, fun blank => absurd blank carries⟩
    · obtain ⟨before, wasMember, origin⟩ := follows.origin found later
      exact ⟨before, mem_cons_of_mem _ wasMember, origin⟩
  · obtain ⟨found, isMember, target⟩ := follows.target entry member
    exact ⟨found, mem_cons_of_mem _ isMember, target⟩

theorem Follows.pick (follows : Follows nodes after picked) (blank : node.overlayIP = "") (number : Nat) :
    Follows (node :: nodes) ({ node with overlayIP := addressText number } :: after) ((node, number) :: picked) := by
  refine ⟨fun found member => ?_, fun entry member => ?_⟩
  · rcases mem_cons.mp member with rfl | later
    · exact ⟨node, mem_cons_self, rfl, fun carries => absurd blank carries, fun _ => ⟨number, mem_cons_self, rfl⟩⟩
    · obtain ⟨before, wasMember, sameID, kept, chosen⟩ := follows.origin found later
      refine ⟨before, mem_cons_of_mem _ wasMember, sameID, kept, fun isBlank => ?_⟩
      obtain ⟨number', inPicked, text⟩ := chosen isBlank
      exact ⟨number', mem_cons_of_mem _ inPicked, text⟩
  · rcases mem_cons.mp member with rfl | later
    · exact ⟨_, mem_cons_self, rfl, rfl⟩
    · obtain ⟨found, isMember, target⟩ := follows.target entry later
      exact ⟨found, mem_cons_of_mem _ isMember, target⟩

theorem InUse.take (inUse : InUse topo usedIPs taken)
    (small : number < 2 ^ 32) : InUse topo (addressText number :: usedIPs) (number :: taken) := by
  intro other otherSmall
  have same : addressText other = addressText number ↔ other = number :=
    ⟨addressText_inj otherSmall small, congrArg addressText⟩
  rw [mem_cons, mem_cons, inUse other otherSmall, same]
  exact or_left_comm

theorem blankNodes_cons (node : Node) (rest : List Node) :
    blankNodes (node :: rest) = if node.overlayIP = "" then node :: blankNodes rest else blankNodes rest := by
  by_cases blank : node.overlayIP = "" <;> simp [blankNodes, blank]

theorem Assigns.follows (assigns : Assigns topo usedIPs nodes after) (inUse : InUse topo usedIPs taken) :
    ∃ picked, serialChoice (freeHosts topo) taken (blankNodes nodes) = some picked ∧ Follows nodes after picked := by
  induction assigns generalizing taken with
  | nil => exact ⟨[], rfl, by simp, by simp⟩
  | keep carries _ ih =>
    obtain ⟨picked, run, follows⟩ := ih inUse
    rw [blankNodes_cons, if_neg carries]
    exact ⟨picked, run, follows.keep carries⟩
  | pick blank isDomain allocated _ ih =>
    obtain ⟨net, network, host, scanned, found, isText⟩ := allocateFromCIDR_iff.mp allocated
    obtain rfl := isText.trans (addressText_toNat (network + BitVec.ofNat 32 host)).symm
    have search := find?_freeHosts isDomain scanned inUse
    rw [found, Option.map_some] at search
    obtain ⟨picked, run, follows⟩ := ih (inUse.take (BitVec.isLt _))
    rw [blankNodes_cons, if_pos blank]
    exact ⟨_, serialChoice_cons.mpr ⟨_, picked, search, run, rfl⟩, follows.pick blank _⟩

theorem exists_assignFree
    (run : serialChoice (freeHosts topo) taken (blankNodes nodes) = some picked) (inUse : InUse topo usedIPs taken)
    (scannable : ∀ node ∈ blankNodes nodes, ∃ domain net network, topo.domain? node.domainID = some domain ∧
      Scanned domain.cidr net network) : ∃ after, assignFree topo usedIPs nodes = .ok after := by
  induction nodes generalizing usedIPs taken picked with
  | nil => exact ⟨[], rfl⟩
  | cons node rest ih =>
    rw [blankNodes_cons] at run scannable
    by_cases blank : node.overlayIP = ""
    · rw [if_pos blank] at run scannable
      obtain ⟨number, later, search, done, -⟩ := serialChoice_cons.mp run
      obtain ⟨domain, net, network, isDomain, scanned⟩ := scannable node mem_cons_self
      rw [find?_freeHosts isDomain scanned inUse] at search
      obtain ⟨host, found, rfl⟩ := Option.map_eq_some_iff.mp search
      have allocated := allocateFromCIDR_iff.mpr ⟨net, network, host, scanned, found, rfl⟩
      obtain ⟨after, assigned⟩ := ih done (inUse.take (BitVec.isLt _))
        fun other member => scannable other (mem_cons_of_mem _ member)
      rw [addressText_toNat] at assigned
      have next : assignFree topo (hostText network host :: usedIPs) rest = .ok after := assigned
      rw [assignFree, if_neg (not_not.mpr blank), isDomain]
      simp only [allocated, next]
      exact ⟨_, rfl⟩
    · rw [if_neg blank] at run scannable
      obtain ⟨after, assigned⟩ := ih run inUse scannable
      rw [assignFree, if_pos blank, assigned]
      exact ⟨_, rfl⟩

theorem Assigns.scannable (assigns : Assigns topo usedIPs nodes after) :
    ∀ node ∈ blankNodes nodes, ∃ domain net network, topo.domain? node.domainID = some domain ∧
      Scanned domain.cidr net network := by
  induction assigns with
  | nil => simp [blankNodes]
  | keep carries _ ih =>
    rw [blankNodes_cons, if_neg carries]
    exact ih
  | @pick _ _ _ _ domain _ blank isDomain allocated _ ih =>
    rw [blankNodes_cons, if_pos blank]
    intro other member
    rcases mem_cons.mp member with rfl | inRest
    · obtain ⟨net, network, -, scanned, -⟩ := allocateFromCIDR_iff.mp allocated
      exact ⟨domain, net, network, isDomain, scanned⟩
    · exact ih other inRest

/-- In every order of the nodes in which the allocator succeeds, each node has the address it has in `after`. -/
def OrderFree (topo : Topology) (after : List Node) : Prop :=
  ∀ nodes, nodes.Perm topo.nodes → ∀ after', allocateIPs { topo with nodes } = .ok after' →
    ∀ node ∈ after, ∀ other ∈ after', other.id = node.id → other.overlayIP = node.overlayIP

theorem allocateIPs_reordered (accepted : Accepted env topo) (permuted : nodes.Perm topo.nodes) :
    allocateIPs { topo with nodes } = assignFree topo (carriedIPs nodes) nodes := by
  have kept : nodes.map (clearStale { topo with nodes }) = nodes := by
    conv_rhs => rw [← map_id nodes]
    refine map_congr_left fun node member => ?_
    have inNodes : node ∈ topo.nodes := permuted.mem_iff.mp member
    exact (clearStale_of_accepted accepted inNodes :)
  rw [allocateIPs, kept]
  refine assignFree_congr ?_ _ _
  rfl

theorem inUse_start (permuted : nodes.Perm topo.nodes) : InUse topo (carriedIPs nodes) [] := by
  have carried : (carriedIPs nodes).Perm (carriedIPs topo.nodes) := (permuted.map _).filter _
  intro number _
  rw [carried.mem_iff]
  simp

theorem exists_order {agents : List Node} (permuted : agents.Perm (blankNodes topo.nodes)) :
    ∃ nodes, nodes.Perm topo.nodes ∧ blankNodes nodes = agents := by
  refine ⟨topo.nodes.filter (fun node => !decide (node.overlayIP = "")) ++ agents, ?_, ?_⟩
  · refine (perm_append_comm.trans (permuted.append_right _)).trans ?_
    exact filter_append_perm (fun node => decide (node.overlayIP = "")) topo.nodes
  · have carrying : blankNodes (topo.nodes.filter fun node => !decide (node.overlayIP = "")) = [] := by
      simp [blankNodes]
    have blank : blankNodes agents = agents := by
      refine filter_eq_self.mpr fun node member => ?_
      exact (mem_filter.mp (permuted.mem_iff.mp member)).2
    rw [blankNodes, filter_append]
    change blankNodes _ ++ blankNodes agents = agents
    rw [carrying, blank, nil_append]

/-- Addresses do not depend on the order of the nodes exactly when one choice of different free hosts is the lowest
for all nodes without an address at once. -/
theorem overlay_order_free_iff (accepted : Accepted env topo) {after : List Node}
    (allocated : allocateIPs topo = .ok after) :
    OrderFree topo after ↔ HasLeastChoice (freeHosts topo) (blankNodes topo.nodes) := by
  have assigns := assignFree_assigns ((allocateIPs_of_accepted accepted).symm.trans allocated)
  obtain ⟨picked, run, follows⟩ := assigns.follows (inUse_start (List.Perm.refl _))
  have distinct : (blankNodes topo.nodes).Nodup := (accepted.nodeIDs_nodup.of_map).filter _
  rw [← serialChoice_orderFree_iff freeHosts_sorted distinct run]
  constructor
  · intro orderFree agents permuted picked' run' entry inPicked entry' inPicked' isAgent
    obtain ⟨nodes, isOrder, rfl⟩ := exists_order permuted
    have scannable : ∀ node ∈ blankNodes nodes, ∃ domain net network, topo.domain? node.domainID = some domain ∧
        Scanned domain.cidr net network :=
      fun node member => assigns.scannable node (permuted.mem_iff.mp member)
    obtain ⟨after', assigned'⟩ := exists_assignFree run' (inUse_start isOrder) scannable
    obtain ⟨found, isRun, follows'⟩ := (assignFree_assigns assigned').follows (inUse_start isOrder)
    obtain rfl := Option.mem_unique run' isRun
    obtain ⟨node, isNode, nodeID, text⟩ := follows.target entry inPicked
    obtain ⟨node', isNode', nodeID', text'⟩ := follows'.target entry' inPicked'
    have sameText := orderFree nodes isOrder after' ((allocateIPs_reordered accepted isOrder).trans assigned') node
      isNode node' isNode' (by rw [nodeID, nodeID', isAgent])
    rw [text, text'] at sameText
    exact addressText_inj (freeHosts_small ((serialChoice_items run').2 entry' inPicked').1)
      (freeHosts_small ((serialChoice_items run).2 entry inPicked).1) sameText
  · intro orderFree nodes isOrder after' allocated' node isNode other isOther sameID
    rw [allocateIPs_reordered accepted isOrder] at allocated'
    obtain ⟨picked', run', follows'⟩ := (assignFree_assigns allocated').follows (inUse_start isOrder)
    obtain ⟨before, inNodes, nodeID, kept, chosen⟩ := follows.origin node isNode
    obtain ⟨before', inNodes', otherID, kept', chosen'⟩ := follows'.origin other isOther
    obtain rfl : before' = before := by
      refine inj_on_of_nodup_map accepted.nodeIDs_nodup (isOrder.mem_iff.mp inNodes') inNodes ?_
      rw [← nodeID, ← otherID, sameID]
    by_cases blank : before'.overlayIP = ""
    · obtain ⟨number, inPicked, text⟩ := chosen blank
      obtain ⟨number', inPicked', text'⟩ := chosen' blank
      have permuted : (blankNodes nodes).Perm (blankNodes topo.nodes) := isOrder.filter _
      have sameNumber := orderFree _ permuted picked' run' (before', number) inPicked (before', number') inPicked' rfl
      rw [text, text']
      exact congrArg addressText sameNumber
    · rw [kept blank, kept' blank]

def overlayEnv : Externals where
  sha256 := fun _ _ => 0
  quote := id
  validateProbes := fun _ => none

def overlayPair (second : String) : Topology where
  project := { id := "p", name := "p" }
  domains := [{ id := "d1", name := "d1", cidr := "10.11.0.0/30", allocationMode := .auto, routingMode := .babel }]
  nodes := [{ id := "a", name := "a", role := .router, domainID := "d1" },
    { id := "b", name := "b", role := .router, domainID := "d1", overlayIP := second }]
  edges := []

theorem overlayPair_allocated : ∃ after, Accepted overlayEnv (overlayPair "10.11.0.1") ∧
    allocateIPs (overlayPair "10.11.0.1") = .ok after := by
  obtain ⟨after, allocated, -⟩ : ∃ after, allocateIPs (overlayPair "10.11.0.1") = .ok after ∧ True :=
    exists_ok_and (by decide +kernel)
  exact ⟨after, accepted_iff.mp ⟨by decide +kernel, by decide +kernel⟩, allocated⟩

theorem overlayPair_order_free : ∃ after, Accepted overlayEnv (overlayPair "10.11.0.1") ∧
    allocateIPs (overlayPair "10.11.0.1") = .ok after ∧ OrderFree (overlayPair "10.11.0.1") after := by
  obtain ⟨after, accepted, allocated⟩ := overlayPair_allocated
  refine ⟨after, accepted, allocated, (overlay_order_free_iff accepted allocated).mpr ?_⟩
  have only : ∀ node ∈ blankNodes (overlayPair "10.11.0.1").nodes,
      freeHosts (overlayPair "10.11.0.1") node = [168493058] ∧
        ∀ other ∈ blankNodes (overlayPair "10.11.0.1").nodes, node = other := by decide +kernel
  refine ⟨fun _ => 168493058, ⟨fun node member => ?_, fun node member other member' _ => ?_⟩,
    fun choice valid node member => ?_⟩
  · rw [(only node member).1]
    exact mem_singleton_self _
  · exact (only node member).2 other member'
  · have allowed := valid.allowed node member
    rw [(only node member).1, mem_singleton] at allowed
    exact allowed.ge

/-- Two nodes without an address swap theirs when they swap places. -/
theorem overlayPair_order_dependent : ∃ after, Accepted overlayEnv (overlayPair "") ∧
    allocateIPs (overlayPair "") = .ok after ∧ ¬ OrderFree (overlayPair "") after := by
  obtain ⟨after, allocated, swapped⟩ : ∃ after, allocateIPs (overlayPair "") = .ok after ∧
      (allocateIPs { overlayPair "" with nodes := (overlayPair "").nodes.reverse }).toOption.any (fun after' =>
        decide (∃ node ∈ after, ∃ other ∈ after', other.id = node.id ∧ other.overlayIP ≠ node.overlayIP)) = true :=
    exists_ok_and (by decide +kernel)
  refine ⟨after, accepted_iff.mp ⟨by decide +kernel, by decide +kernel⟩, allocated, fun orderFree => ?_⟩
  obtain ⟨after', allocated', node, isNode, other, isOther, sameID, differ⟩ := exists_ok_and swapped
  exact differ (orderFree _ (reverse_perm _) after' allocated' node isNode other isOther sameID)

end Yaog.Allocator
