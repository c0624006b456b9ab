import Mathlib.Data.List.Sort
import Yaog.Data.Claims
import Yaog.Validator.Design
import Yaog.Validator.PinFacts

/-!
# Healing the stored pins

`HealCollidingPins` clears the ports pinned at clients and then visits the enabled edges in the order of their link
keys.
-/

namespace Yaog

open List

def Topology.withoutPins (topo : Topology) : Topology := { topo with edges := topo.edges.map Edge.design }

theorem Topology.eq_of_withoutPins {first second : Topology} (same : first.withoutPins = second.withoutPins)
    (edges : first.edges = second.edges) : first = second := by
  obtain ⟨project, domains, nodes, edges, policies, version⟩ := first
  obtain ⟨project', domains', nodes', edges', policies', version'⟩ := second
  simp only [Topology.withoutPins, Topology.mk.injEq] at same ⊢
  exact ⟨same.1, same.2.1, same.2.2.1, edges, same.2.2.2.2⟩

namespace Normalize

open Data Validator

/-- `roleByNode[id] == "client"`. -/
def atClient (topo : Topology) (id : String) : Bool := (topo.node? id).any Node.isClient

def clearClientPorts (topo : Topology) (edge : Edge) : Edge :=
  { edge with
    pinnedFromPort := if atClient topo edge.fromNodeID then 0 else edge.pinnedFromPort
    pinnedToPort := if atClient topo edge.toNodeID then 0 else edge.pinnedToPort }

def hasClientPort (topo : Topology) (edge : Edge) : Bool :=
  atClient topo edge.fromNodeID && edge.pinnedFromPort ≠ 0 || atClient topo edge.toNodeID && edge.pinnedToPort ≠ 0

/-- One resource an edge would occupy. -/
inductive Claim where
  | port (nodeID : String) (number : Int)
  | transit (address : String)
  | linkLocal (address : String)
  deriving DecidableEq, Repr

def portClaims (topo : Topology) (edge : Edge) : List Claim :=
  let fromClient := atClient topo edge.fromNodeID
  let toClient := atClient topo edge.toNodeID
  if fromClient && !toClient && 0 < edge.pinnedToPort then [.port edge.toNodeID edge.pinnedToPort]
  else if toClient && !fromClient && 0 < edge.pinnedFromPort then [.port edge.fromNodeID edge.pinnedFromPort]
  else if !fromClient && !toClient && 0 < edge.pinnedFromPort && 0 < edge.pinnedToPort then
    [.port edge.fromNodeID edge.pinnedFromPort, .port edge.toNodeID edge.pinnedToPort]
  else []

def addressClaims (claim : String → Claim) (first second : String) : List Claim :=
  if first ≠ "" ∧ second ≠ "" then [claim (canonicalIP first), claim (canonicalIP second)] else []

def claims (topo : Topology) (edge : Edge) : List Claim :=
  portClaims topo edge ++ addressClaims .transit edge.pinnedFromTransitIP edge.pinnedToTransitIP
    ++ addressClaims .linkLocal edge.pinnedFromLinkLocal edge.pinnedToLinkLocal

def stripAllocationPins (edge : Edge) : Edge :=
  { edge with
    pinnedFromPort := 0, pinnedToPort := 0, pinnedFromTransitIP := "", pinnedToTransitIP := ""
    pinnedFromLinkLocal := "", pinnedToLinkLocal := "" }

def stripPins (edge : Edge) : Edge := { stripAllocationPins edge with compiledPort := 0 }

/-- The enabled edges with their positions, in the order of the link keys. The sort is stable, so edges of
one link stay in the order of the array. -/
def healOrder (edges : List Edge) : List (Edge × Nat) :=
  (edges.zipIdx.filter fun entry => entry.1.isEnabled).insertionSort fun first second =>
    textLE first.1.linkKey second.1.linkKey = true

section

variable (topo : Topology)

def clearedEdges : List Edge := topo.edges.map (clearClientPorts topo)

def strippedEntries : List (Edge × Nat) :=
  dropped (fun entry : Edge × Nat => entry.1.linkKey) (fun entry => claims topo entry.1) []
    (healOrder (clearedEdges topo))

def strippedAt : List Nat := (strippedEntries topo).map (·.2)

/-- `HealCollidingPins`: the healed topology and whether anything changed. -/
def healCollidingPins : Topology × Bool :=
  ({ topo with
     edges := (clearedEdges topo).mapIdx fun i edge => if i ∈ strippedAt topo then stripPins edge else edge },
    topo.edges.any (hasClientPort topo) || strippedAt topo ≠ [])

def healed : Topology := (healCollidingPins topo).1

def stripped (edge : Edge) : Bool := (strippedAt topo).any fun i => topo.edges[i]? = some edge

end

theorem mem_healOrder {edges : List Edge} {edge : Edge} {i : Nat} :
    (edge, i) ∈ healOrder edges ↔ edges[i]? = some edge ∧ edge.isEnabled = true := by
  rw [healOrder, (perm_insertionSort _ _).mem_iff, mem_filter, mem_zipIdx_iff_getElem?]

theorem healOrder_nodup (edges : List Edge) : (healOrder edges).Nodup := by
  have distinct : edges.zipIdx.Nodup := by
    refine List.Nodup.of_map Prod.snd ?_
    rw [zipIdx_map_snd]
    exact nodup_range'
  exact (perm_insertionSort _ _).nodup_iff.mpr (distinct.filter _)

theorem healOrder_sorted (edges : List Edge) :
    (healOrder edges).Pairwise fun entry later => ¬ textLT later.1.linkKey entry.1.linkKey = true := by
  let ordered : Edge × Nat → Edge × Nat → Prop := fun first second => textLE first.1.linkKey second.1.linkKey = true
  have : Std.Total ordered := ⟨fun first second => textLE_total _ _⟩
  have : IsTrans (Edge × Nat) ordered := ⟨fun _ _ _ lower upper => textLE_trans lower upper⟩
  have sorted : (healOrder edges).Pairwise ordered := pairwise_insertionSort ordered _
  refine sorted.imp fun {entry later} below above => ?_
  obtain ⟨above, different⟩ := textLT_iff.mp above
  exact different (textLE_antisymm above below)

theorem healed_getElem? {topo : Topology} (i : Nat) :
    (healed topo).edges[i]? = topo.edges[i]?.map fun edge =>
      if i ∈ strippedAt topo then stripPins edge else clearClientPorts topo edge := by
  simp only [healed, healCollidingPins, clearedEdges, getElem?_mapIdx, getElem?_map, Option.map_map]
  rfl

theorem healed_withoutPins (topo : Topology) : (healed topo).withoutPins = topo.withoutPins := by
  have edges : (healed topo).edges.map Edge.design = topo.edges.map Edge.design := by
    apply ext_getElem?
    intro i
    rw [getElem?_map, healed_getElem?, getElem?_map, Option.map_map]
    congr 1
    funext edge
    split <;> rfl
  rw [Topology.withoutPins, edges]
  rfl

theorem healed_edges_congr {first second : Topology} (clients : atClient first = atClient second)
    (edges : first.edges = second.edges) : (healed first).edges = (healed second).edges := by
  have clears : clearClientPorts first = clearClientPorts second := by
    funext edge
    simp only [clearClientPorts, clients]
  have claimed : claims first = claims second := by
    funext edge
    simp only [claims, portClaims, clients]
  have cleared : clearedEdges first = clearedEdges second := by rw [clearedEdges, clearedEdges, clears, edges]
  have stripped : strippedAt first = strippedAt second := by
    rw [strippedAt, strippedAt, strippedEntries, strippedEntries, claimed, cleared]
  simp only [healed, healCollidingPins, cleared, stripped]

end Normalize

end Yaog
