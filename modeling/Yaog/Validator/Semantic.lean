import Yaog.Data.KeepFirst
import Yaog.Validator.Schema

/-!
# Semantic validation: references, addresses, names, reachability

Maps that remember the first owner of a value are read as a search through the entries before the
current one.
-/

namespace Yaog

/-- An enabled edge whose two nodes exist, as `forEachEnabledEdge` visits it. -/
structure ResolvedEdge where
  edge : Edge
  fromNode : Node
  toNode : Node

def ResolvedEdge.linkKey (resolved : ResolvedEdge) : String := resolved.edge.linkKey

def Topology.resolve (topo : Topology) (edge : Edge) : Option ResolvedEdge :=
  if edge.isEnabled then
    match topo.node? edge.fromNodeID, topo.node? edge.toNodeID with
    | some fromNode, some toNode => some { edge, fromNode, toNode }
    | _, _ => none
  else none

/-- `forEachEnabledEdge`. -/
def Topology.resolvedEdges (topo : Topology) : List ResolvedEdge := topo.edges.filterMap topo.resolve

def Topology.firstEdges (topo : Topology) : List ResolvedEdge :=
  Data.keepFirst ResolvedEdge.linkKey topo.resolvedEdges

def Topology.nodeIndex (topo : Topology) (id : String) : Nat :=
  ((topo.nodes.zipIdx.reverse.find? fun (node, _) => node.id = id).map (·.2)).getD 0

namespace Validator

open Net

variable (topo : Topology)

def validateNodeDomainRefs : List Finding :=
  eachIndexed topo.nodes fun i node =>
    report (node.domainID ≠ "" && (topo.domain? node.domainID).isNone)
      (error s!"nodes[{i}].domain_id" .nodeDomainRefMissing [("node", node.name), ("id", node.domainID)])

def validateEdgeNodeRefs : List Finding :=
  eachIndexed topo.edges fun i edge =>
    report (edge.fromNodeID ≠ "" && (topo.node? edge.fromNodeID).isNone)
        (error s!"edges[{i}].from_node_id" .edgeNodeRefMissing
          [("id", edge.id), ("other", edge.fromNodeID)])
      ++ report (edge.toNodeID ≠ "" && (topo.node? edge.toNodeID).isNone)
        (error s!"edges[{i}].to_node_id" .edgeNodeRefMissing [("id", edge.id), ("other", edge.toNodeID)])

def overlayOutOfCIDR (node : Node) (ip : IP) : Option Domain :=
  match topo.domain? node.domainID with
  | none => none
  | some domain =>
    match parseCIDR domain.cidr with
    | none => none
    | some net => if domain.cidr ≠ "" && !net.contains ip then some domain else none

def validateIPSemantics : List Finding :=
  eachIndexed topo.nodes fun i node =>
    let path := s!"nodes[{i}].overlay_ip"
    if node.overlayIP = "" then []
    else
      match parseIP node.overlayIP with
      | none => []
      | some ip =>
        (match overlayOutOfCIDR topo node ip with
          | none => []
          | some domain =>
            [error path .nodeOverlayIPOutOfCIDR [("node", node.name), ("cidr", node.overlayIP),
              ("name", domain.name), ("prefix", domain.cidr)]])
          ++ match (topo.nodes.take i).find? fun other => other.overlayIP = node.overlayIP with
            | none => []
            | some other =>
              [error path .nodeOverlayIPConflict
                [("cidr", node.overlayIP), ("other", other.name), ("node", node.name)]]

def validateDomainIDs : List Finding :=
  eachIndexed topo.domains fun i domain =>
    report ((topo.domains.take i).any fun other => other.id = domain.id)
      (error s!"domains[{i}].id" .domainIDDuplicate [("id", domain.id)])

def validateNodeIDs : List Finding :=
  eachIndexed topo.nodes fun i node =>
    report ((topo.nodes.take i).any fun other => other.id = node.id)
        (error s!"nodes[{i}].id" .nodeIDDuplicate [("id", node.id)])
      ++ if node.id = "" then []
        else
          match (topo.nodes.take i).find? fun other =>
              other.id ≠ "" && portableNodeIDKey other.id = portableNodeIDKey node.id with
          | none => []
          | some first => report (first.id ≠ node.id)
              (error s!"nodes[{i}].id" .nodeIDPortableCollision [("other", first.id), ("id", node.id)])

def validateEdgeIDs : List Finding :=
  eachIndexed topo.edges fun i edge =>
    report ((topo.edges.take i).any fun other => other.id = edge.id)
      (error s!"edges[{i}].id" .edgeIDDuplicate [("id", edge.id)])

def validateIDUniqueness : List Finding :=
  validateDomainIDs topo ++ validateNodeIDs topo ++ validateEdgeIDs topo

def validateNodeNameCollisions (env : Externals) (topo : Topology) : List Finding :=
  eachIndexed topo.nodes fun i node =>
    let path := s!"nodes[{i}].name"
    if node.name = "" then []
    else
      (match (topo.nodes.take i).find? fun other => other.name = node.name with
        | none => []
        | some first => [error path .nodeNameDuplicate
            [("other", first.name), ("node", node.name), ("name", env.quote node.name)]])
        ++ match (topo.nodes.take i).find? fun other =>
            other.name ≠ "" && wgInterfaceName env other.name = wgInterfaceName env node.name with
          | none => []
          | some first => report (first.name ≠ node.name)
              (error path .nodeNameInterfaceCollision [("other", first.name), ("node", node.name),
                ("name", env.quote (wgInterfaceName env node.name))])

def interfaceCount (nodeID : String) : Nat :=
  topo.firstEdges.countP (fun link => !link.fromNode.isClient && link.fromNode.id = nodeID)
    + topo.firstEdges.countP (fun link => !link.toNode.isClient && link.toNode.id = nodeID)

def validateEffectivePortRanges : List Finding :=
  topo.nodes.flatMap fun node =>
    let count := interfaceCount topo node.id
    let high := wgListenPortBase + count - 1
    report (count ≠ 0 && 65535 < high)
      (error s!"nodes[{topo.nodeIndex node.id}]" .nodeEffectivePortRangeOverflow
        [("node", node.name), ("low", toString wgListenPortBase), ("high", toString high),
          ("base", toString wgListenPortBase), ("count", toString count)])

def detectIsolatedNodes : List Finding :=
  if topo.nodes.length ≤ 1 then []
  else topo.nodes.flatMap fun node =>
    report (!topo.edges.any fun edge => edge.isEnabled && (edge.fromNodeID = node.id || edge.toNodeID = node.id))
      (warning "topology" .nodeIsolated [("node", node.name), ("id", node.id)])

def canBeDialed (node : Node) : Bool :=
  node.capabilities.hasPublicIP || node.capabilities.canAcceptInbound || node.role = .relay

def hasEnabledEndpointEdge (fromID toID : String) : Bool :=
  topo.edges.any fun edge =>
    edge.isEnabled && edge.fromNodeID = fromID && edge.toNodeID = toID && edge.endpointHost ≠ ""

def natPairFinding (path : String) (link : ResolvedEdge) : List Finding :=
  let params := [("edge", link.edge.id), ("from", link.fromNode.name), ("to", link.toNode.name)]
  if !link.fromNode.capabilities.hasPublicIP && !link.toNode.capabilities.hasPublicIP
      && link.edge.type = .direct && link.edge.endpointHost = "" then
    if !hasEnabledEndpointEdge topo link.toNode.id link.fromNode.id
        && !canBeDialed link.fromNode && !canBeDialed link.toNode then
      [error path .natDeadLink params]
    else [warning path .natDoubleNATNoEndpoint params]
  else []

def validateNATReachability : List Finding :=
  eachIndexed topo.edges (fun i edge =>
    match topo.resolve edge with
    | none => []
    | some link =>
      report (!canBeDialed link.toNode)
          (warning s!"edges[{i}]" .natTargetUnreachable [("edge", edge.id), ("node", link.toNode.name)])
        ++ natPairFinding topo s!"edges[{i}]" link)
    ++ topo.nodes.flatMap fun node =>
      let reachesPublic := topo.edges.any fun edge =>
        edge.isEnabled && edge.fromNodeID = node.id && (topo.node? edge.toNodeID).any canBeDialed
      report (!node.capabilities.hasPublicIP && !node.capabilities.canAcceptInbound
          && !reachesPublic && topo.edges ≠ [])
        (warning "nat_reachability" .natNoOutboundToPublic [("name", node.name), ("id", node.id)])

end Validator

end Yaog
