import Yaog.Allocator.Overlay

/-!
# What the overlay allocator keeps and hands out
-/

namespace Yaog.Allocator

open Net Validator List

variable {node : Node} {cidr : String} {usedIPs : List String} {nodes after : List Node}

variable {env : Externals} {topo : Topology} {topo' : Topology} {net : IPNet} {text : String}
  {reservedRanges : List String}

theorem clearStale_of_accepted (accepted : Accepted env topo) (member : node ∈ topo.nodes) :
    clearStale topo node = node := by
  obtain ⟨domain, isDomain, inDomains⟩ := accepted.node_domain member
  obtain ⟨net, network, parsed, -, -⟩ := accepted.domain_cidr inDomains
  by_cases carries : node.overlayIP = ""
  · have noIP : parseIP node.overlayIP = none := by rw [carries]; rfl
    simp only [clearStale, isDomain, Option.bind_some, parsed, noIP, Option.any_none, Bool.false_eq_true, if_false]
    rw [← carries]
  · obtain ⟨ip, isIP, inside⟩ := accepted.overlay_inside member carries isDomain parsed
    simp [clearStale, isDomain, parsed, isIP, inside]

theorem allocateIPs_of_accepted (accepted : Accepted env topo) :
    allocateIPs topo = assignFree topo (carriedIPs topo.nodes) topo.nodes := by
  have kept : topo.nodes.map (clearStale topo) = topo.nodes := by
    conv_rhs => rw [← map_id topo.nodes]
    exact map_congr_left fun node member => clearStale_of_accepted accepted member
  rw [allocateIPs, kept]

theorem assignFree_congr (domains : topo'.domains = topo.domains) (usedIPs : List String)
    (nodes : List Node) : assignFree topo' usedIPs nodes = assignFree topo usedIPs nodes := by
  have lookup : ∀ id, topo'.domain? id = topo.domain? id := by
    intro id
    rw [Topology.domain?, domains, Topology.domain?]
  induction nodes generalizing usedIPs with
  | nil => rfl
  | cons node rest ih => simp only [assignFree, lookup, ih]

theorem allocateIPs_congr (domains : topo'.domains = topo.domains) (nodes : topo'.nodes = topo.nodes) :
    allocateIPs topo' = allocateIPs topo := by
  have stale : clearStale topo' = clearStale topo := by
    funext node
    rw [clearStale, Topology.domain?, domains, clearStale, Topology.domain?]
  rw [allocateIPs, allocateIPs, nodes, stale]
  exact assignFree_congr domains _ _

/-- A prefix whose hosts are scanned: the guards before the scan let it pass. -/
structure Scanned (cidr : String) (net : IPNet) (network : IPv4) : Prop where
  parsed : parseCIDR cidr = some net
  hosts : net.hostBits ≠ 0
  narrow : net.hostBits < 32
  budget : endHost net - firstHost net ≤ maxOverlayScanBudget
  isNetwork : net.ip.to4 = some network

theorem Scanned.allocateFromCIDR_eq {network : IPv4} (scanned : Scanned cidr net network)
    (reservedRanges usedIPs : List String) :
    allocateFromCIDR cidr reservedRanges usedIPs =
      ((List.range' (firstHost net) (endHost net - firstHost net)).find? fun host =>
        hostText network host ∉ usedIPs && notReserved reservedRanges (hostText network host)).elim
          (.error (.poolExhausted cidr)) fun host => .ok (hostText network host) := by
  rw [allocateFromCIDR, scanned.parsed]
  simp only [if_neg scanned.hosts, if_neg (Nat.not_le.mpr scanned.narrow), if_neg (Nat.not_lt.mpr scanned.budget),
    scanned.isNetwork]
  cases (List.range' (firstHost net) (endHost net - firstHost net)).find? fun host =>
    hostText network host ∉ usedIPs && notReserved reservedRanges (hostText network host) with
  | none => rfl
  | some host => rfl

theorem allocateFromCIDR_iff :
    allocateFromCIDR cidr reservedRanges usedIPs = .ok text ↔
      ∃ net network host, Scanned cidr net network ∧
        (List.range' (firstHost net) (endHost net - firstHost net)).find? (fun host =>
          hostText network host ∉ usedIPs && notReserved reservedRanges (hostText network host)) = some host ∧
        text = hostText network host := by
  constructor
  · intro allocated
    have whole := allocated
    rw [allocateFromCIDR] at allocated
    cases parsed : parseCIDR cidr with
    | none => simp [parsed] at allocated
    | some net =>
      simp only [parsed] at allocated
      split_ifs at allocated
      case neg hosts narrow budget =>
        cases isNetwork : net.ip.to4 with
        | none => simp [isNetwork] at allocated
        | some network =>
          have scanned : Scanned cidr net network :=
            ⟨parsed, hosts, Nat.not_le.mp narrow, Nat.not_lt.mp budget, isNetwork⟩
          rw [scanned.allocateFromCIDR_eq] at whole
          cases found : (List.range' (firstHost net) (endHost net - firstHost net)).find? fun host =>
              hostText network host ∉ usedIPs && notReserved reservedRanges (hostText network host) with
          | none =>
            rw [found] at whole
            cases whole
          | some host =>
            rw [found] at whole
            exact ⟨net, network, host, scanned, found, (Except.ok.inj whole).symm⟩
  · rintro ⟨net, network, host, scanned, found, rfl⟩
    rw [scanned.allocateFromCIDR_eq, found]
    rfl

theorem host_bound {host : Nat}
    (member : host ∈ List.range' (firstHost net) (endHost net - firstHost net)) : host < 2 ^ net.hostBits := by
  have last : endHost net ≤ 2 ^ net.hostBits := by
    rw [endHost]
    split
    · exact le_refl _
    · exact Nat.sub_le _ _
  have inRange := mem_range'.mp member
  omega

theorem allocateFromCIDR_ok (allocated : allocateFromCIDR cidr reservedRanges usedIPs = .ok text) :
    text ∉ usedIPs ∧ ∃ net ip, parseCIDR cidr = some net ∧ parseIP text = some ip ∧ net.contains ip = true := by
  obtain ⟨net, network, host, scanned, found, rfl⟩ := allocateFromCIDR_iff.mp allocated
  have free := find?_some found
  rw [Bool.and_eq_true, decide_eq_true_eq] at free
  have bounded := host_bound (mem_of_find?_eq_some found)
  exact ⟨free.1, net, _, scanned.parsed, parseIP_format _,
    net.contains_host scanned.isNetwork scanned.narrow.le bounded⟩

/-- What the allocator does to one node. -/
structure Addressed (topo : Topology) (before after : Node) : Prop where
  same : after = { before with overlayIP := after.overlayIP }
  kept : before.overlayIP ≠ "" → after.overlayIP = before.overlayIP
  inside : before.overlayIP = "" → ∀ domain, topo.domain? before.domainID = some domain →
    ∃ net ip, parseCIDR domain.cidr = some net ∧ parseIP after.overlayIP = some ip ∧ net.contains ip = true

/-- A pass of `assignFree` that succeeds, node by node. -/
inductive Assigns (topo : Topology) : List String → List Node → List Node → Prop where
  | nil {usedIPs : List String} : Assigns topo usedIPs [] []
  | keep {usedIPs : List String} {node : Node} {rest later : List Node} (carries : node.overlayIP ≠ "")
      (done : Assigns topo usedIPs rest later) : Assigns topo usedIPs (node :: rest) (node :: later)
  | pick {usedIPs : List String} {node : Node} {rest later : List Node} {domain : Domain} {ip : String}
      (blank : node.overlayIP = "") (isDomain : topo.domain? node.domainID = some domain)
      (allocated : allocateFromCIDR domain.cidr domain.reservedRanges usedIPs = .ok ip)
      (done : Assigns topo (ip :: usedIPs) rest later) :
      Assigns topo usedIPs (node :: rest) ({ node with overlayIP := ip } :: later)

theorem assignFree_assigns (assigned : assignFree topo usedIPs nodes = .ok after) :
    Assigns topo usedIPs nodes after := by
  induction nodes generalizing usedIPs after with
  | nil =>
    cases assigned
    exact .nil
  | cons node rest ih =>
    rw [assignFree] at assigned
    split at assigned
    case isTrue carries =>
      split at assigned <;> cases assigned
      case h_2 later done => exact .keep carries (ih done)
    case isFalse blank =>
      split at assigned
      case h_1 => cases assigned
      case h_2 domain isDomain =>
        split at assigned
        case h_1 => cases assigned
        case h_2 ip allocated =>
          split at assigned <;> cases assigned
          case h_2 later done => exact .pick (not_not.mp blank) isDomain allocated (ih done)

theorem Assigns.addressed (assigns : Assigns topo usedIPs nodes after) :
    List.Forall₂ (Addressed topo) nodes after := by
  induction assigns with
  | nil => exact .nil
  | keep carries _ ih => exact .cons ⟨rfl, fun _ => rfl, fun blank => absurd blank carries⟩ ih
  | pick blank isDomain allocated _ ih =>
    refine .cons ⟨rfl, fun carries => absurd blank carries, fun _ other isOther => ?_⟩ ih
    rw [isDomain] at isOther
    cases isOther
    exact (allocateFromCIDR_ok allocated).2

theorem forall₂_origin {relates : Node → Node → Prop} (related : List.Forall₂ relates nodes after)
    (member : node ∈ after) : ∃ before ∈ nodes, relates before node := by
  induction related with
  | nil => cases member
  | cons step _ ih =>
    rcases mem_cons.mp member with rfl | later
    · exact ⟨_, mem_cons_self, step⟩
    · obtain ⟨before, wasMember, origin⟩ := ih later
      exact ⟨before, mem_cons_of_mem _ wasMember, origin⟩

theorem carriedIPs_cons (node : Node) (rest : List Node) :
    carriedIPs (node :: rest) =
      if node.overlayIP = "" then carriedIPs rest else node.overlayIP :: carriedIPs rest := by
  by_cases blank : node.overlayIP = "" <;> simp [carriedIPs, blank]

theorem Assigns.distinct (assigns : Assigns topo usedIPs nodes after) (known : carriedIPs nodes ⊆ usedIPs)
    (distinct : (carriedIPs nodes).Nodup) :
    (after.map (·.overlayIP)).Nodup ∧
      ∀ node ∈ after, node.overlayIP ∈ carriedIPs nodes ∨ node.overlayIP ∉ usedIPs := by
  induction assigns with
  | nil => simp
  | @keep _ node _ _ carries _ ih =>
    rw [carriedIPs_cons, if_neg carries] at known distinct ⊢
    rw [cons_subset] at known
    rw [nodup_cons] at distinct
    obtain ⟨laterDistinct, origin⟩ := ih known.2 distinct.2
    refine ⟨nodup_cons.mpr ⟨fun repeated => ?_, laterDistinct⟩, fun other member => ?_⟩
    · obtain ⟨other, member, same⟩ := mem_map.mp repeated
      change other.overlayIP = node.overlayIP at same
      rcases origin other member with carried | fresh
      · exact distinct.1 (same ▸ carried)
      · exact fresh (same ▸ known.1)
    · rcases mem_cons.mp member with rfl | later
      · exact .inl mem_cons_self
      · exact (origin other later).imp (mem_cons_of_mem _) id
  | @pick _ _ _ _ _ ip blank _ allocated _ ih =>
    rw [carriedIPs_cons, if_pos blank] at known distinct ⊢
    have unused := (allocateFromCIDR_ok allocated).1
    obtain ⟨laterDistinct, origin⟩ := ih (subset_cons_of_subset ip known) distinct
    refine ⟨nodup_cons.mpr ⟨fun repeated => ?_, laterDistinct⟩, fun other member => ?_⟩
    · obtain ⟨other, member, same⟩ := mem_map.mp repeated
      change other.overlayIP = ip at same
      rcases origin other member with carried | fresh
      · exact unused (known (same ▸ carried))
      · exact fresh (same ▸ mem_cons_self)
    · rcases mem_cons.mp member with rfl | later
      · exact .inr unused
      · exact (origin other later).imp id fun fresh inUse => fresh (mem_cons_of_mem _ inUse)

theorem assignFree_carried
    (carry : ∀ node ∈ nodes, node.overlayIP ≠ "") : assignFree topo usedIPs nodes = .ok nodes := by
  induction nodes with
  | nil => rfl
  | cons node rest ih =>
    rw [assignFree, if_pos (carry node mem_cons_self),
      ih fun other member => carry other (mem_cons_of_mem _ member)]

theorem carriedIPs_nodup (accepted : Accepted env topo) : (carriedIPs topo.nodes).Nodup := by
  rw [carriedIPs, filter_map, List.Nodup, pairwise_map, pairwise_filter, pairwise_iff_getElem]
  intro i j iBound jBound before _ carries
  refine accepted.overlay_distinct before (getElem?_eq_getElem iBound) (getElem?_eq_getElem jBound) ?_
  simpa using carries

/-- The nodes of an accepted topology once the allocator has succeeded. -/
structure AllAddressed (topo : Topology) (nodes : List Node) : Prop where
  addressed : List.Forall₂ (Addressed topo) topo.nodes nodes
  distinct : (nodes.map (·.overlayIP)).Nodup
  inside : ∀ node ∈ nodes, ∀ domain, topo.domain? node.domainID = some domain →
    ∃ net ip, parseCIDR domain.cidr = some net ∧ parseIP node.overlayIP = some ip ∧ net.contains ip = true

theorem allocateIPs_allAddressed (accepted : Accepted env topo)
    (allocated : allocateIPs topo = .ok nodes) : AllAddressed topo nodes := by
  rw [allocateIPs_of_accepted accepted] at allocated
  have assigns := assignFree_assigns allocated
  have addressed := assigns.addressed
  refine ⟨addressed, (assigns.distinct (List.Subset.refl _) (carriedIPs_nodup accepted)).1, ?_⟩
  intro node member domain isDomain
  obtain ⟨before, wasMember, step⟩ := forall₂_origin addressed member
  have sameDomain : node.domainID = before.domainID := by rw [step.same]
  rw [sameDomain] at isDomain
  by_cases blank : before.overlayIP = ""
  · exact step.inside blank domain isDomain
  · obtain ⟨net, network, parsed, -, -⟩ := accepted.domain_cidr (Topology.domain?_mem isDomain).1
    obtain ⟨ip, isIP, inside⟩ := accepted.overlay_inside wasMember blank isDomain parsed
    exact ⟨net, ip, parsed, by rw [step.kept blank, isIP], inside⟩

theorem AllAddressed.inDomain (accepted : Accepted env topo) (all : AllAddressed topo nodes) (member : node ∈ nodes) :
    ∃ domain net ip, topo.domain? node.domainID = some domain ∧ parseCIDR domain.cidr = some net ∧
      parseIP node.overlayIP = some ip ∧ net.contains ip = true := by
  obtain ⟨before, wasMember, step⟩ := forall₂_origin all.addressed member
  obtain ⟨domain, isDomain, -⟩ := accepted.node_domain wasMember
  have sameDomain : node.domainID = before.domainID := by rw [step.same]
  rw [← sameDomain] at isDomain
  obtain ⟨net, ip, inside⟩ := all.inside node member domain isDomain
  exact ⟨domain, net, ip, isDomain, inside⟩

theorem AllAddressed.carries (accepted : Accepted env topo) (all : AllAddressed topo nodes) :
    ∀ node ∈ nodes, node.overlayIP ≠ "" := by
  intro node member blank
  obtain ⟨_, _, ip, -, -, isIP, -⟩ := all.inDomain accepted member
  rw [blank] at isIP
  cases isIP

theorem exists_ok_and {ε α : Type} {attempt : Except ε α} {holds : α → Prop} [DecidablePred holds]
    (evaluated : attempt.toOption.any (fun value => decide (holds value)) = true) :
    ∃ value, attempt = .ok value ∧ holds value := by
  cases attempt with
  | error reason => cases evaluated
  | ok value => exact ⟨value, rfl, of_decide_eq_true evaluated⟩

end Yaog.Allocator
