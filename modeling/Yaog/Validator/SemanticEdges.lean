import Yaog.Validator.Semantic

/-!
# Semantic validation: clients, transports, parallel links
-/

namespace Yaog.Validator

section

variable (topo : Topology)

def validateRoutePoliciesReserved : List Finding :=
  report (topo.routePolicies ≠ [])
    (error "route_policies" .routePolicyReserved [("count", toString topo.routePolicies.length)])

def clientOutbound (nodeID : String) : Nat :=
  topo.edges.countP fun edge =>
    edge.isEnabled && edge.fromNodeID = nodeID && (topo.node? edge.fromNodeID).any Node.isClient

def validateClientEdge (i : Nat) (edge : Edge) : List Finding :=
  if edge.isEnabled then
    (match topo.node? edge.toNodeID with
      | none => []
      | some toNode => report toNode.isClient
          (error s!"edges[{i}]" .clientInboundRejected [("node", toNode.name)]))
      ++ match topo.node? edge.fromNodeID with
        | none => []
        | some fromNode =>
          if fromNode.isClient then
            (match topo.node? edge.toNodeID with
              | none => []
              | some toNode =>
                report (toNode.role = .peer) (error s!"edges[{i}]" .clientTargetPeer
                    [("node", fromNode.name), ("other", toNode.name)])
                  ++ report toNode.isClient (error s!"edges[{i}]" .clientTargetClient
                    [("node", fromNode.name), ("other", toNode.name)]))
              ++ report (edge.endpointHost = "")
                (error s!"edges[{i}].endpoint_host" .clientEndpointHostRequired [("node", fromNode.name)])
          else []
  else []

def validateClientNode (node : Node) : List Finding :=
  if node.isClient then
    report (clientOutbound topo node.id = 0) (error "topology" .clientNoOutboundEdge [("node", node.name)])
      ++ report (1 < clientOutbound topo node.id) (error "topology" .clientMultipleOutboundEdges
        [("node", node.name), ("count", toString (clientOutbound topo node.id))])
      ++ report (node.routerID ≠ "")
        (warning s!"node.{node.id}.router_id" .clientRouterIDMeaningless [("node", node.name)])
      ++ report (node.extraPrefixes ≠ [])
        (warning s!"node.{node.id}.extra_prefixes" .clientExtraPrefixesMeaningless [("node", node.name)])
  else []

def validateClientEdges : List Finding :=
  eachIndexed topo.edges (validateClientEdge topo) ++ topo.nodes.flatMap (validateClientNode topo)

def mimicLinuxDeployable (node : Option Node) : Bool := node.all fun node => linuxPlatform node.platform

def mimicPlatformFinding (env : Externals) (i : Nat) (edge : Edge) : Option Node → List Finding
  | none => []
  | some node => report (!mimicLinuxDeployable node)
      (error s!"edges[{i}].transport" .edgeMimicPlatformUnsupported
        [("id", edge.id), ("node", node.name), ("platform", env.quote node.platform)])

def validateMimicTransport (env : Externals) : List Finding :=
  eachIndexed topo.edges fun i edge =>
    if edge.isEnabled && edge.transport = .tcp then
      report (edge.type = .relayPath)
          (warning s!"edges[{i}].transport" .edgeMimicRelayPath [("id", edge.id)])
        ++ mimicPlatformFinding env i edge (topo.node? edge.fromNodeID)
        ++ mimicPlatformFinding env i edge (topo.node? edge.toNodeID)
    else []

def validateEdgeEndpointConsistency : List Finding :=
  eachIndexed topo.edges fun i edge =>
    match topo.node? edge.toNodeID with
    | none => []
    | some toNode =>
      report (edge.isEnabled && edge.endpointHost ≠ "" && toNode.publicEndpoints ≠ []
          && !toNode.publicEndpoints.any fun endpoint => endpoint.host = edge.endpointHost)
        (warning s!"edges[{i}].endpoint_host" .edgeEndpointNoMatch
          [("id", edge.id), ("other", edge.endpointHost), ("node", toNode.name)])

def isPrimaryClass (edge : Edge) : Bool := edge.isEnabled && !edge.isBackup

def detectDuplicateEnabledEdges : List Finding :=
  eachIndexed topo.edges fun i edge =>
    if isPrimaryClass edge then
      match (topo.edges.take i).find? fun other => isPrimaryClass other
          && other.fromNodeID ++ "->" ++ other.toNodeID = edge.fromNodeID ++ "->" ++ edge.toNodeID with
      | none => []
      | some first => [warning s!"edges[{i}]" .edgeDuplicateEnabledSameDirection
          [("id", edge.id), ("other", first.id)]]
    else []

def linkDescription (edge : Edge) (remoteName : String) : String :=
  if edge.isBackup then "backup→" ++ remoteName ++ " (" ++ edge.id ++ ")" else "primary→" ++ remoteName

structure InterfaceEntry where
  nodeID : String
  interfaceName : String
  description : String

def interfaceEntry (env : Externals) (edge : Edge) (owner remote : Node) : List InterfaceEntry :=
  if owner.isClient then []
  else [{ nodeID := owner.id
          interfaceName := wgInterfaceNameForEdge env remote.name edge.id edge.isBackup
          description := linkDescription edge remote.name }]

def interfaceEntries (env : Externals) : List InterfaceEntry :=
  topo.firstEdges.flatMap fun link =>
    interfaceEntry env link.edge link.fromNode link.toNode
      ++ interfaceEntry env link.edge link.toNode link.fromNode

def validateInterfaceNameUniqueness (env : Externals) : List Finding :=
  eachIndexed (interfaceEntries topo env) fun k entry =>
    match ((interfaceEntries topo env).take k).find? fun other =>
        other.nodeID = entry.nodeID && other.interfaceName = entry.interfaceName with
    | none => []
    | some first =>
      let nodeName := ((topo.node? entry.nodeID).map (·.name)).getD entry.nodeID
      [error s!"nodes[{topo.nodeIndex entry.nodeID}]" .nodeInterfaceNameCollision
        [("node", nodeName), ("name", env.quote entry.interfaceName), ("prefix", first.description),
          ("other", entry.description)]]

def edgePinKey (edge : Edge) : String := pinKey edge.fromNodeID edge.toNodeID

def validateSinglePrimaryPerPair : List Finding :=
  let explicit := fun edge : Edge => edge.role = .primary && (topo.resolve edge).isSome
  eachIndexed topo.edges fun i edge =>
    if explicit edge then
      match (topo.edges.take i).find? fun other => explicit other && edgePinKey other = edgePinKey edge with
      | none => []
      | some first => [error s!"edges[{i}].role" .edgeMultipleExplicitPrimary
          [("id", edge.id), ("other", first.id)]]
    else []

def validateBackupClientEdges : List Finding :=
  eachIndexed topo.edges fun i edge =>
    report (edge.isEnabled && edge.isBackup
        && ((topo.node? edge.fromNodeID).any Node.isClient || (topo.node? edge.toNodeID).any Node.isClient))
      (error s!"edges[{i}].role" .edgeBackupTouchesClient [("id", edge.id)])

def pairEdgeIDs (edge : Edge) : List String :=
  (topo.edges.filter fun other => isPrimaryClass other && edgePinKey other = edgePinKey edge).map (·.id)

def conflictingEdgeID (edge : Edge) : List String → Option String
  | first :: second :: _ => some (if first = edge.id then second else first)
  | _ => none

def validateLinkDirection : List Finding :=
  eachIndexed topo.edges fun i edge =>
    let path := s!"edges[{i}].link_direction"
    if edge.linkDirection = .forward then
      match topo.resolve edge with
      | none => []
      | some link =>
        if link.fromNode.isClient || link.toNode.isClient then
          [error path .edgeLinkDirectionClientEdge [("id", edge.id),
            ("node", if link.toNode.isClient then link.toNode.name else link.fromNode.name),
            ("direction", "forward")]]
        else
          (match conflictingEdgeID edge (if edge.isBackup then [] else pairEdgeIDs topo edge) with
            | none => []
            | some other => [error path .edgeLinkDirectionConflict
                [("id", edge.id), ("direction", "forward"), ("other", other)]])
            ++ report (edge.endpointHost = "")
              (error path .edgeLinkDirectionForwardNoEndpoint [("id", edge.id)])
    else []

def babeldWiredDefaultCost : Int := 96

def effectiveLinkCost (edge : Edge) : Int :=
  if 0 < edge.priority then edge.priority
  else if 0 < edge.weight then edge.weight
  else if edge.isBackup then backupDefaultLinkCost
  else 0

def comparableCost (cost : Int) : Int := if cost = 0 then babeldWiredDefaultCost else cost

/-- Comparable costs of the links of a pair: one for the primary class, one for each backup. The flag
says that the primary class has been counted. -/
def pairCosts : Bool → List ResolvedEdge → List Int
  | _, [] => []
  | counted, link :: rest =>
    let cost := comparableCost (effectiveLinkCost link.edge)
    if link.edge.isBackup then cost :: pairCosts counted rest
    else if counted then pairCosts true rest
    else cost :: pairCosts true rest

def resolvedIndexed : List (ResolvedEdge × Nat) :=
  topo.edges.zipIdx.filterMap fun (edge, i) => (topo.resolve edge).map fun link => (link, i)

def validateParallelLinkCosts : List Finding :=
  (Data.keepFirst (fun entry => edgePinKey entry.1.edge) (resolvedIndexed topo)).flatMap fun (first, i) =>
    let pair := topo.resolvedEdges.filter fun link => edgePinKey link.edge = edgePinKey first.edge
    let costs := pairCosts false pair
    let params := [("node", first.fromNode.name), ("other", first.toNode.name)]
    report (pair.all fun link => link.edge.isBackup) (warning s!"edges[{i}]" .linkNoPrimary params)
      ++ report (2 ≤ costs.length && costs.all fun cost => costs.head? = some cost)
        (warning s!"edges[{i}]" .linkEqualCost (params ++ [("count", toString costs.length),
          ("low", toString (costs.headD 0))]))

end

end Yaog.Validator
