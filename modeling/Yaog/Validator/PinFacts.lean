import Yaog.Validator.Accepted

/-!
# What the pin check accepts
-/

namespace Yaog.Validator

open Net List

def OneLinkPerKey {κ : Type} (entries : List (PinEntry κ)) : Prop :=
  ∀ first ∈ entries, ∀ second ∈ entries, first.key = second.key → first.link = second.link

section

variable {κ : Type} {earlier entries : List (PinEntry κ)} {entry : PinEntry κ}

theorem OneLinkPerKey.of_subset {larger : List (PinEntry κ)} (consistent : OneLinkPerKey larger)
    (inside : entries ⊆ larger) : OneLinkPerKey entries :=
  fun first isFirst second isSecond => consistent first (inside isFirst) second (inside isSecond)

private theorem oneLinkPerKey_snoc (consistent : OneLinkPerKey earlier)
    (same : ∀ owner ∈ earlier, owner.key = entry.key → owner.link = entry.link) :
    OneLinkPerKey (earlier ++ [entry]) := by
  intro first isFirst second isSecond keys
  rcases mem_append.mp isFirst with inFirst | newFirst <;>
    rcases mem_append.mp isSecond with inSecond | newSecond
  · exact consistent first inFirst second inSecond keys
  · rw [mem_singleton.mp newSecond] at keys ⊢
    exact same first inFirst keys
  · rw [mem_singleton.mp newFirst] at keys ⊢
    exact (same second inSecond keys.symm).symm
  · rw [mem_singleton.mp newFirst, mem_singleton.mp newSecond]

theorem isValid_duplicateFindings [DecidableEq κ] {path param : String} {code : Code}
    (consistent : OneLinkPerKey earlier) :
    isValid (duplicateFindings path code param earlier entries) = true ↔ OneLinkPerKey (earlier ++ entries) := by
  induction entries generalizing earlier with
  | nil => simpa [duplicateFindings] using consistent
  | cons entry rest ih =>
    have regroup : earlier ++ entry :: rest = earlier ++ [entry] ++ rest := by simp
    rw [duplicateFindings, isValid_append, regroup]
    cases found : earlier.find? fun owner => owner.key = entry.key with
    | none =>
      have absent := find?_eq_none.mp found
      have grown : OneLinkPerKey (earlier ++ [entry]) :=
        oneLinkPerKey_snoc consistent fun owner member keys => absurd keys (by simpa using absent owner member)
      rw [ih grown]
      simp
    | some owner =>
      have member := mem_of_find?_eq_some found
      have keys : owner.key = entry.key := by simpa using find?_some found
      by_cases links : owner.link = entry.link
      · have grown : OneLinkPerKey (earlier ++ [entry]) :=
          oneLinkPerKey_snoc consistent fun other inside same =>
            (consistent other inside owner member (same.trans keys.symm)).trans links
        rw [ih grown]
        simp [links, report]
      · constructor
        · rintro ⟨reported, -⟩
          simp [links, pinDuplicate] at reported
        · intro whole
          exact absurd (whole owner (by simp [member]) entry (by simp) keys) links

end

def PinInside (value cidr : String) : Prop :=
  value ≠ "" → ∃ ip, parseIP value = some ip ∧ ∀ net, parseCIDR cidr = some net → net.contains ip = true

/-- The checks of one edge's pins that do not look at other edges. -/
structure EdgePins (topo : Topology) (link : ResolvedEdge) : Prop where
  fromClient : link.fromNode.isClient = true → link.edge.pinnedFromPort = 0
  toClient : link.toNode.isClient = true → link.edge.pinnedToPort = 0
  portPair : link.fromNode.isClient = false → link.toNode.isClient = false →
    (link.edge.pinnedFromPort = 0 ↔ link.edge.pinnedToPort = 0)
  transitPair : link.edge.pinnedFromTransitIP = "" ↔ link.edge.pinnedToTransitIP = ""
  linkLocalPair : link.edge.pinnedFromLinkLocal = "" ↔ link.edge.pinnedToLinkLocal = ""
  fromRange : link.edge.pinnedFromPort ≠ 0 →
    minPinnedPort ≤ link.edge.pinnedFromPort ∧ link.edge.pinnedFromPort ≤ 65535
  toRange : link.edge.pinnedToPort ≠ 0 →
    minPinnedPort ≤ link.edge.pinnedToPort ∧ link.edge.pinnedToPort ≤ 65535
  fromInside : PinInside link.edge.pinnedFromTransitIP (topo.transitCIDR link.fromNode)
  toInside : PinInside link.edge.pinnedToTransitIP (topo.transitCIDR link.fromNode)

theorem isValid_pinnedTransit {env : Externals} {field value cidr : String} :
    isValid (validatePinnedTransitInCIDR env field value cidr) = true ↔ PinInside value cidr := by
  rw [validatePinnedTransitInCIDR, PinInside]
  by_cases unset : value = ""
  · simp [unset]
  · cases isIP : parseIP value with
    | none => simp [unset, isValid, errors, error]
    | some ip =>
      cases parsed : parseCIDR cidr with
      | none => simp [unset]
      | some net => simp [unset]

private theorem isValid_portRange {field : String} {port : Int} {node : Node} :
    isValid (validatePinnedPortRange field port node) = true ↔
      (port ≠ 0 → minPinnedPort ≤ port ∧ port ≤ 65535) := by
  simp only [validatePinnedPortRange, isValid_report_error, Bool.and_eq_false_iff, Bool.or_eq_false_iff,
    decide_eq_false_iff_not, ne_eq, not_not]
  omega

variable {env : Externals} {topo : Topology} {link : ResolvedEdge} {earlier : List ResolvedEdge}

private theorem clientPort_iff {fromClient toClient : Bool} {fromPort toPort : Int} :
    ((fromClient && decide (fromPort ≠ 0)) || (toClient && decide (toPort ≠ 0))) = false ↔
      (fromClient = true → fromPort = 0) ∧ (toClient = true → toPort = 0) := by
  cases fromClient <;> cases toClient <;> simp

private theorem portPair_iff {fromClient toClient : Bool} {fromPort toPort : Int} :
    (!(fromClient || toClient) && decide ((fromPort ≠ 0) ≠ (toPort ≠ 0))) = false ↔
      (fromClient = false → toClient = false → (fromPort = 0 ↔ toPort = 0)) := by
  cases fromClient <;> cases toClient <;> simp [not_iff_not]

private theorem textPair_iff {first second : String} :
    decide ((first ≠ "") ≠ (second ≠ "")) = false ↔ (first = "" ↔ second = "") := by
  simp [not_iff_not]

theorem isValid_validateOwnPins {path : String} :
    isValid (validateOwnPins env topo path link) = true ↔ EdgePins topo link := by
  simp only [validateOwnPins, isValid_append, isValid_pinnedTransit, isValid_portRange,
    validatePinPairCompleteness, isValid_report_error, clientPort_iff, portPair_iff, textPair_iff]
  constructor
  · rintro ⟨⟨⟨⟨⟨⟨fromClient, toClient⟩, ⟨portPair, transitPair⟩, linkLocalPair⟩, fromRange⟩, toRange⟩,
      fromInside⟩, toInside⟩
    exact { fromClient, toClient, portPair, transitPair, linkLocalPair, fromRange, toRange, fromInside, toInside }
  · intro pins
    exact ⟨⟨⟨⟨⟨⟨pins.fromClient, pins.toClient⟩, ⟨pins.portPair, pins.transitPair⟩, pins.linkLocalPair⟩,
      pins.fromRange⟩, pins.toRange⟩, pins.fromInside⟩, pins.toInside⟩

theorem isValid_validateEdgePins {i : Nat} {edge : Edge}
    (resolved : topo.resolve edge = some link) (before : (topo.edges.take i).filterMap topo.resolve = earlier)
    (ports : OneLinkPerKey (earlier.flatMap portPins)) (transit : OneLinkPerKey (earlier.flatMap transitPins))
    (linkLocals : OneLinkPerKey (earlier.flatMap linkLocalPins)) :
    isValid (validateEdgePins env topo i edge) = true ↔
      EdgePins topo link ∧ OneLinkPerKey ((earlier ++ [link]).flatMap portPins) ∧
        OneLinkPerKey ((earlier ++ [link]).flatMap transitPins) ∧
        OneLinkPerKey ((earlier ++ [link]).flatMap linkLocalPins) := by
  simp only [validateEdgePins, resolved, before, isValid_append, isValid_validateOwnPins,
    isValid_duplicateFindings ports, isValid_duplicateFindings transit,
    isValid_duplicateFindings linkLocals, flatMap_append, flatMap_singleton, and_assoc]

/-- The pins of some edges: each edge's own, and one link for each value. -/
structure PinsAccepted (topo : Topology) (links : List ResolvedEdge) : Prop where
  own : ∀ link ∈ links, EdgePins topo link
  ports : OneLinkPerKey (links.flatMap portPins)
  transit : OneLinkPerKey (links.flatMap transitPins)
  linkLocals : OneLinkPerKey (links.flatMap linkLocalPins)

private theorem pinsAccepted_nil : PinsAccepted topo [] :=
  ⟨by simp, by simp [OneLinkPerKey], by simp [OneLinkPerKey], by simp [OneLinkPerKey]⟩

private theorem pinsAccepted_snoc :
    PinsAccepted topo (earlier ++ [link]) ↔ PinsAccepted topo earlier ∧ EdgePins topo link ∧
      OneLinkPerKey ((earlier ++ [link]).flatMap portPins) ∧
      OneLinkPerKey ((earlier ++ [link]).flatMap transitPins) ∧
      OneLinkPerKey ((earlier ++ [link]).flatMap linkLocalPins) := by
  have inside : ∀ {κ : Type} (pins : ResolvedEdge → List (PinEntry κ)),
      earlier.flatMap pins ⊆ (earlier ++ [link]).flatMap pins := by
    intro κ pins
    rw [flatMap_append]
    exact subset_append_left _ _
  constructor
  · intro whole
    refine ⟨⟨fun other member => whole.own other (by simp [member]), whole.ports.of_subset (inside portPins),
      whole.transit.of_subset (inside transitPins), whole.linkLocals.of_subset (inside linkLocalPins)⟩,
      whole.own link (by simp), whole.ports, whole.transit, whole.linkLocals⟩
  · rintro ⟨before, own, ports, transit, linkLocals⟩
    refine ⟨fun other member => ?_, ports, transit, linkLocals⟩
    rcases mem_append.mp member with early | last
    · exact before.own other early
    · rw [mem_singleton.mp last]
      exact own

private theorem isValid_take (count : Nat) (bound : count ≤ topo.edges.length) :
    (∀ i < count, ∀ edge, topo.edges[i]? = some edge → isValid (validateEdgePins env topo i edge) = true) ↔
      PinsAccepted topo ((topo.edges.take count).filterMap topo.resolve) := by
  induction count with
  | zero => simp [pinsAccepted_nil]
  | succ count ih =>
    have inRange : count < topo.edges.length := bound
    have found : topo.edges[count]? = some topo.edges[count] := getElem?_eq_getElem inRange
    have split : (∀ i < count + 1, ∀ edge, topo.edges[i]? = some edge →
          isValid (validateEdgePins env topo i edge) = true) ↔
        (∀ i < count, ∀ edge, topo.edges[i]? = some edge →
          isValid (validateEdgePins env topo i edge) = true) ∧
        isValid (validateEdgePins env topo count topo.edges[count]) = true := by
      constructor
      · exact fun rounds => ⟨fun i below => rounds i (by omega), rounds count (by omega) _ found⟩
      · rintro ⟨rounds, last⟩ i below edge at_i
        rcases Nat.lt_succ_iff_lt_or_eq.mp below with early | rfl
        · exact rounds i early edge at_i
        · rw [found] at at_i
          cases at_i
          exact last
    rw [split, ih (by omega), take_succ_eq_append_getElem inRange, filterMap_append]
    cases resolved : topo.resolve topo.edges[count] with
    | none => simp [validateEdgePins, resolved]
    | some link =>
      simp only [filterMap_cons, resolved, filterMap_nil, pinsAccepted_snoc]
      refine and_congr_right fun before => ?_
      exact isValid_validateEdgePins resolved rfl before.ports before.transit before.linkLocals

theorem isValid_validateAllocationPins :
    isValid (validateAllocationPins env topo) = true ↔ PinsAccepted topo topo.resolvedEdges := by
  rw [validateAllocationPins, isValid_eachIndexed]
  have whole := @isValid_take env topo topo.edges.length (le_refl _)
  rw [take_length] at whole
  rw [Topology.resolvedEdges, ← whole]
  constructor
  · exact fun rounds i _ edge found => rounds i edge found
  · intro rounds i edge found
    obtain ⟨bound, -⟩ := List.getElem?_eq_some_iff.mp found
    exact rounds i bound edge found

theorem Accepted.pinsAccepted (accepted : Accepted env topo) : PinsAccepted topo topo.resolvedEdges :=
  isValid_validateAllocationPins.mp accepted.pins

end Yaog.Validator
