import Yaog.Validator.SemanticEdges

/-!
# Semantic validation: allocation pins

Every enabled edge's pins are checked against that edge's own from-node pool, and across links: one
value may appear on several edges of one link, never on two links.
-/

namespace Yaog

/-- The transit pool of a node's domain: `edgeTransitCIDR` and `transitCIDRForNode` of a from-node. -/
def Topology.transitCIDR (topo : Topology) (node : Node) : String :=
  match topo.domain? node.domainID with
  | some domain => if domain.transitCIDR ≠ "" then domain.transitCIDR else defaultTransitCIDR
  | none => defaultTransitCIDR

namespace Validator

open Net

/-- `canonicalIP`: a text that is no address stands for itself. -/
def canonicalIP (value : String) : String :=
  match parseIP value with
  | some ip => ip.format
  | none => value

/-- One pinned value with the link and the edge that pin it. -/
structure PinEntry (κ : Type) where
  key : κ
  value : String
  link : String
  edgeID : String

def portPins (link : ResolvedEdge) : List (PinEntry (String × Int)) :=
  [(link.edge.fromNodeID, link.edge.pinnedFromPort), (link.edge.toNodeID, link.edge.pinnedToPort)].filterMap
    fun (nodeID, port) =>
      if port = 0 then none
      else some
        { key := (nodeID, port), value := toString port, link := link.linkKey, edgeID := link.edge.id }

def addressPins (link : ResolvedEdge) (values : List String) : List (PinEntry String) :=
  values.filterMap fun value =>
    if value = "" then none
    else some { key := canonicalIP value, value, link := link.linkKey, edgeID := link.edge.id }

def transitPins (link : ResolvedEdge) : List (PinEntry String) :=
  addressPins link [link.edge.pinnedFromTransitIP, link.edge.pinnedToTransitIP]

def linkLocalPins (link : ResolvedEdge) : List (PinEntry String) :=
  addressPins link [link.edge.pinnedFromLinkLocal, link.edge.pinnedToLinkLocal]

def pinDuplicate {κ : Type} (path : String) (code : Code) (param : String) (owner entry : PinEntry κ) : Finding :=
  error path code [(param, entry.value), ("other", owner.edgeID), ("id", entry.edgeID)]

/-- The cross-link check of the pins of one edge, given the pins of the edges before it. The first
owner of a key keeps it; an entry of another link with the same key is reported. -/
def duplicateFindings {κ : Type} [DecidableEq κ] (path : String) (code : Code) (param : String)
    (earlier : List (PinEntry κ)) : List (PinEntry κ) → List Finding
  | [] => []
  | entry :: rest =>
    (match earlier.find? fun owner => owner.key = entry.key with
      | none => []
      | some owner => report (owner.link ≠ entry.link) (pinDuplicate path code param owner entry))
      ++ duplicateFindings path code param (earlier ++ [entry]) rest

def validatePinPairCompleteness (path : String) (edge : Edge) (requirePortPair : Bool) : List Finding :=
  report (requirePortPair && (edge.pinnedFromPort ≠ 0) ≠ (edge.pinnedToPort ≠ 0))
      (error path .pinPortIncomplete [("id", edge.id)])
    ++ report ((edge.pinnedFromTransitIP ≠ "") ≠ (edge.pinnedToTransitIP ≠ ""))
      (error path .pinTransitIPIncomplete [("id", edge.id)])
    ++ report ((edge.pinnedFromLinkLocal ≠ "") ≠ (edge.pinnedToLinkLocal ≠ ""))
      (error path .pinLinkLocalIncomplete [("id", edge.id)])

def validatePinnedPortRange (field : String) (port : Int) (node : Node) : List Finding :=
  report (port ≠ 0 && (port < minPinnedPort || 65535 < port))
    (error field .pinPortOutOfRange
      [("node", node.name), ("port", toString port), ("base", toString minPinnedPort)])

def validatePinnedTransitInCIDR (env : Externals) (field value cidr : String) : List Finding :=
  if value = "" then []
  else
    match parseIP value with
    | none => [error field .pinTransitIPInvalid [("cidr", env.quote value)]]
    | some ip =>
      match parseCIDR cidr with
      | none => []
      | some net => report (!net.contains ip)
          (error field .pinTransitIPOutOfCIDR [("cidr", value), ("prefix", cidr)])

section

variable (env : Externals) (topo : Topology)

def validateOwnPins (path : String) (link : ResolvedEdge) : List Finding :=
  let edge := link.edge
  let fromClient := link.fromNode.isClient
  let toClient := link.toNode.isClient
  let cidr := topo.transitCIDR link.fromNode
  report ((fromClient && edge.pinnedFromPort ≠ 0) || (toClient && edge.pinnedToPort ≠ 0))
      (error path .pinClientPortPin [("id", edge.id)])
    ++ validatePinPairCompleteness path edge (!(fromClient || toClient))
    ++ validatePinnedPortRange (path ++ ".pinned_from_port") edge.pinnedFromPort link.fromNode
    ++ validatePinnedPortRange (path ++ ".pinned_to_port") edge.pinnedToPort link.toNode
    ++ validatePinnedTransitInCIDR env (path ++ ".pinned_from_transit_ip") edge.pinnedFromTransitIP cidr
    ++ validatePinnedTransitInCIDR env (path ++ ".pinned_to_transit_ip") edge.pinnedToTransitIP cidr

def validateEdgePins (i : Nat) (edge : Edge) : List Finding :=
  match topo.resolve edge with
  | none => []
  | some link =>
    let path := s!"edges[{i}]"
    let earlier := (topo.edges.take i).filterMap topo.resolve
    validateOwnPins env topo path link
      ++ duplicateFindings path .pinPortDuplicateCrossLink "port" (earlier.flatMap portPins) (portPins link)
      ++ duplicateFindings path .pinTransitIPDuplicateCrossLink "cidr" (earlier.flatMap transitPins)
        (transitPins link)
      ++ duplicateFindings path .pinLinkLocalDuplicateCrossLink "cidr" (earlier.flatMap linkLocalPins)
        (linkLocalPins link)

def validateAllocationPins : List Finding := eachIndexed topo.edges (validateEdgePins env topo)

/-- `ValidateSemantic`. -/
def validateSemantic : List Finding :=
  if topologyExceedsBounds topo then []
  else
    validateNodeDomainRefs topo ++ validateEdgeNodeRefs topo ++ validateIPSemantics topo
      ++ validateIDUniqueness topo ++ validateNodeNameCollisions env topo
      ++ validateEffectivePortRanges topo ++ detectIsolatedNodes topo ++ validateNATReachability topo
      ++ validateClientEdges topo ++ validateMimicTransport topo env
      ++ validateEdgeEndpointConsistency topo ++ detectDuplicateEnabledEdges topo
      ++ validateInterfaceNameUniqueness topo env ++ validateSinglePrimaryPerPair topo
      ++ validateBackupClientEdges topo ++ validateLinkDirection topo ++ validateParallelLinkCosts topo
      ++ validateAllocationPins env topo ++ validateRoutePoliciesReserved topo

end

end Validator

end Yaog
