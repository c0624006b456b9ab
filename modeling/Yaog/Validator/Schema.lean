import Yaog.Net.CIDR
import Yaog.Validator.Finding

/-!
# Schema validation

`ValidateSchema` checks each field on its own and fills two defaults in place: an empty routing mode
becomes `babel` and an empty transport `udp`.
-/

namespace Yaog

def Domain.withDefaults (domain : Domain) : Domain :=
  { domain with routingMode := if domain.routingMode = .unset then .babel else domain.routingMode }

def Edge.withDefaults (edge : Edge) : Edge :=
  { edge with transport := if edge.transport = .unset then .udp else edge.transport }

namespace Validator

open Net

/-- A pattern `^[class]+$`. -/
def matchesClass (inClass : Char → Bool) (text : String) : Bool := text ≠ "" && text.toList.all inClass

def nodeNameCharset : String → Bool := matchesClass fun c => isIDChar c || c = ' '

def nodeIDCharset : String → Bool := matchesClass isIDChar

def mimicEgressIfacePattern (text : String) : Bool := matchesClass isIDChar text && text.length ≤ 15

def sshFieldCharset : String → Bool := matchesClass fun c => isIDChar c || c = ':' || c = '@'

def sshKeyPathCharset : String → Bool :=
  matchesClass fun c => isIDChar c || c = ':' || c = '@' || c = '/' || c = '\\' || c = '~' || c = ' '

def endpointHostCharset : String → Bool :=
  matchesClass fun c => isIDChar c || c = ':' || c = '[' || c = ']'

def routerIDMAC48 (text : String) : Bool :=
  text.length = 17 && text.toList.zipIdx.all fun (c, i) =>
    if i % 3 = 2 then c = ':' else (hexValue? c).isSome

/-- `ValidWGPublicKey`: 43 characters of standard base64 and one padding sign. -/
def validWGPublicKey (key : String) : Bool :=
  key.length = 44 && (key.toList.take 43).all (fun c => isLetter c || c.isDigit || c = '+' || c = '/')
    && key.toList.drop 43 = ['=']

def mtuMinimum : Int := 576

def mtuMaximum : Int := 65535

def maxTopologyNodes : Nat := 2000

def maxTopologyEdges : Nat := 10000

def maxTopologyDomains : Nat := 1000

def maxReservedRangesPerDomain : Nat := 1000

def topologyExceedsBounds (topo : Topology) : Bool :=
  currentAllocSchemaVersion < topo.allocSchemaVersion
    || maxTopologyNodes < topo.nodes.length
    || maxTopologyEdges < topo.edges.length
    || maxTopologyDomains < topo.domains.length
    || topo.domains.any fun domain => maxReservedRangesPerDomain < domain.reservedRanges.length

variable (field : String)

def boundFinding (code : Code) (count maximum : Nat) : List Finding :=
  report (maximum < count) (error field code [("count", toString count), ("max", toString maximum)])

def boundsFindings (topo : Topology) : List Finding :=
  report (currentAllocSchemaVersion < topo.allocSchemaVersion)
      (error "alloc_schema_version" .topologySchemaVersionUnsupported
        [("version", toString topo.allocSchemaVersion), ("max", toString currentAllocSchemaVersion)])
    ++ boundFinding "nodes" .topologyTooManyNodes topo.nodes.length maxTopologyNodes
    ++ boundFinding "edges" .topologyTooManyEdges topo.edges.length maxTopologyEdges
    ++ boundFinding "domains" .topologyTooManyDomains topo.domains.length maxTopologyDomains
    ++ eachIndexed topo.domains fun i domain =>
        boundFinding s!"domains[{i}].reserved_ranges" .topologyTooManyReservedRanges
          domain.reservedRanges.length maxReservedRangesPerDomain

def validateProjectSchema (topo : Topology) : List Finding :=
  report (topo.project.id = "") (error "project.id" .projectIDRequired)
    ++ report (topo.project.name = "") (error "project.name" .projectNameRequired)

def validateDomainCIDR (domain : Domain) : List Finding :=
  if domain.cidr = "" then [error field .domainCIDREmpty]
  else
    match parseCIDR domain.cidr with
    | none => [error field .domainCIDRInvalid [("cidr", domain.cidr)]]
    | some net =>
      if net.ip.to4 = none then [error field .domainCIDRNotIPv4 [("cidr", domain.cidr)]]
      else report (net.ones < 8) (error field .domainCIDRTooLarge [("cidr", domain.cidr)])

def validateRoutingMode : RoutingMode → List Finding
  | .babel => []
  | .static => [error field .domainRoutingModeUnimplemented [("mode", "static")]]
  | .none => [error field .domainRoutingModeUnimplemented [("mode", "none")]]
  | .unset => [error field .domainRoutingModeInvalid [("mode", "")]]
  | .unknown text => [error field .domainRoutingModeInvalid [("mode", text)]]

def validateReservedRange (field range : String) : List Finding :=
  match parseCIDR range with
  | some net => report (net.ip.to4 = none) (error field .domainReservedRangeNotIPv4 [("cidr", range)])
  | none =>
    match parseIP range with
    | none => [error field .domainReservedRangeInvalid [("value", range)]]
    | some ip => report (ip.to4 = none) (error field .domainReservedAddressNotIPv4 [("ip", range)])

def validateTransitCIDR (field cidr : String) : List Finding :=
  if cidr = "" then []
  else
    match parseCIDR cidr with
    | none => [error field .domainTransitCIDRInvalid [("cidr", cidr)]]
    | some net =>
      if net.ip.to4 = none then [error field .domainTransitCIDRNotIPv4 [("cidr", cidr)]]
      else if net.ones < 8 then [error field .domainTransitCIDRTooLarge [("cidr", cidr)]]
      else report (30 < net.ones) (error field .domainTransitCIDRTooSmall [("cidr", cidr)])

def validateAllocationMode : AllocationMode → List Finding
  | .unknown text => [error field .domainAllocationModeInvalid [("mode", text)]]
  | _ => []

def validateDomainSchema (i : Nat) (domain : Domain) : List Finding :=
  let path := s!"domains[{i}]"
  report (domain.id = "") (error (path ++ ".id") .domainIDRequired)
    ++ report (domain.name = "") (error (path ++ ".name") .domainNameRequired)
    ++ validateDomainCIDR (path ++ ".cidr") domain
    ++ validateAllocationMode (path ++ ".allocation_mode") domain.allocationMode
    ++ validateRoutingMode (path ++ ".routing_mode") domain.routingMode
    ++ eachIndexed domain.reservedRanges (fun j range =>
        validateReservedRange (path ++ s!".reserved_ranges[{j}]") range)
    ++ validateTransitCIDR (path ++ ".transit_cidr") domain.transitCIDR

def validateDomainsSchema (topo : Topology) : List Finding :=
  if topo.domains = [] then [error "domains" .domainNoneDefined]
  else eachIndexed topo.domains validateDomainSchema

section

variable (env : Externals)

def validateNodeID (field id : String) : List Finding :=
  if id = "" then [error field .nodeIDRequired]
  else if id = "." || id = ".." || !nodeIDCharset id then
    [error field .nodeIDIllegalChars [("id", env.quote id)]]
  else report (!validPortableNodeID id)
    (error field .nodeIDNotPortable [("id", env.quote id), ("max", toString maxPortableNodeIDLength)])

def validateNodeName (field name : String) : List Finding :=
  if name = "" then [error field .nodeNameRequired]
  else report (name = "." || name = ".." || !nodeNameCharset name)
    (error field .nodeNameIllegalChars [("name", env.quote name)])

def validateNodeRole : NodeRole → List Finding
  | .unset => [error field .nodeRoleEmpty]
  | .unknown text => [error field .nodeRoleInvalid [("role", text)]]
  | _ => []

def validateDeploymentMode : DeploymentMode → List Finding
  | .unknown text => [error field .nodeDeploymentModeInvalid [("mode", text)]]
  | _ => []

def validateTelemetryProbes (field : String) (node : Node) : List Finding :=
  if node.telemetryProbes = [] then []
  else if node.isManual then
    [error field .nodeTelemetryProbesInvalid
      [("detail", "active probes require an agent-managed source node")]]
  else
    match env.validateProbes node.telemetryProbes with
    | some detail => [error field .nodeTelemetryProbesInvalid [("detail", detail)]]
    | none => []

def validateTelemetryDevices (field : String) (node : Node) : List Finding :=
  match node.telemetryDevices with
  | none => []
  | some devices =>
    if node.isManual then
      [error field .nodeTelemetryDevicesInvalid
        [("detail", "automatic device telemetry requires an agent-managed source node")]]
    else report (devices.mode ≠ "all-eligible-v1")
      (error field .nodeTelemetryDevicesInvalid
        [("detail", "unsupported telemetry device mode " ++ env.quote devices.mode)])

def linuxPlatform (platform : String) : Bool :=
  platform = "" || lowerText platform = "debian" || lowerText platform = "ubuntu"

def validateXDPMode : XDPMode → List Finding
  | .unknown text => [error field .nodeXDPModeInvalid [("mode", text)]]
  | _ => []

def charsetFinding (field : String) (code : Code) (param text : String) (inClass : String → Bool) :
    List Finding :=
  report (text ≠ "" && !inClass text) (error field code [(param, env.quote text)])

def validateRouterID (field routerID : String) : List Finding :=
  report (routerID ≠ "" && !routerIDMAC48 routerID && ((parseIP routerID).bind IP.to4).isNone)
    (error field .nodeRouterIDInvalid [("id", env.quote routerID)])

def validateExtraPrefix (field text : String) : List Finding :=
  match parseCIDR text with
  | none => [error field .nodeExtraPrefixInvalid [("prefix", text)]]
  | some net => report (net.ip.to4 = none) (error field .nodeExtraPrefixNotIPv4 [("prefix", text)])

def validateNodeIdentity (path : String) (node : Node) : List Finding :=
  validateNodeID env (path ++ ".id") node.id
    ++ validateNodeName env (path ++ ".name") node.name
    ++ report (node.domainID = "") (error (path ++ ".domain_id") .nodeDomainIDRequired)
    ++ validateNodeRole (path ++ ".role") node.role

def validateNodeModes (path : String) (node : Node) : List Finding :=
  validateDeploymentMode (path ++ ".deployment_mode") node.deploymentMode
    ++ validateTelemetryProbes env (path ++ ".telemetry_probes") node
    ++ validateTelemetryDevices env (path ++ ".telemetry_devices") node
    ++ report (!linuxPlatform node.platform)
        (warning (path ++ ".platform") .nodePlatformUnsupported [("platform", node.platform)])
    ++ validateXDPMode (path ++ ".xdp_mode") node.xdpMode
    ++ report (node.mimicEgressInterface ≠ "" && !mimicEgressIfacePattern node.mimicEgressInterface)
        (error (path ++ ".mimic_egress_interface") .nodeMimicEgressInterfaceInvalid
          [("iface", node.mimicEgressInterface)])

def validateNodeOverlayIP (path : String) (node : Node) : List Finding :=
  report (node.overlayIP ≠ "" && (parseIP node.overlayIP).isNone)
    (error (path ++ ".overlay_ip") .nodeOverlayIPInvalid [("ip", node.overlayIP)])

def validateNodeNetwork (path : String) (node : Node) : List Finding :=
  report (node.wireGuardPublicKey ≠ "" && !validWGPublicKey node.wireGuardPublicKey)
      (error (path ++ ".wireguard_public_key") .nodeWGPublicKeyInvalid
        [("key", env.quote node.wireGuardPublicKey)])
    ++ report (node.mtu ≠ 0 && (node.mtu < mtuMinimum || mtuMaximum < node.mtu))
        (error (path ++ ".mtu") .nodeMTUOutOfRange
          [("mtu", toString node.mtu), ("low", toString mtuMinimum), ("high", toString mtuMaximum)])
    ++ report (node.sshPort ≠ 0 && (node.sshPort < 1 || 65535 < node.sshPort))
        (error (path ++ ".ssh_port") .nodeSSHPortOutOfRange [("port", toString node.sshPort)])
    ++ validateRouterID env (path ++ ".router_id") node.routerID
    ++ eachIndexed node.extraPrefixes (fun j text =>
        validateExtraPrefix (path ++ s!".extra_prefixes[{j}]") text)

def validateNodeHosts (path : String) (node : Node) : List Finding :=
  charsetFinding env (path ++ ".ssh_host") .nodeSSHHostIllegalChars "host" node.sshHost sshFieldCharset
    ++ charsetFinding env (path ++ ".ssh_alias") .nodeSSHAliasIllegalChars "alias" node.sshAlias
        sshFieldCharset
    ++ charsetFinding env (path ++ ".ssh_user") .nodeSSHUserIllegalChars "user" node.sshUser sshFieldCharset
    ++ charsetFinding env (path ++ ".ssh_key_path") .nodeSSHKeyPathIllegalChars "path" node.sshKeyPath
        sshKeyPathCharset
    ++ eachIndexed node.publicEndpoints (fun k endpoint =>
        charsetFinding env (path ++ s!".public_endpoints[{k}].host") .nodePublicEndpointHostIllegalChars "host"
          endpoint.host endpointHostCharset)

def validateNodeSchema (i : Nat) (node : Node) : List Finding :=
  let path := s!"nodes[{i}]"
  validateNodeIdentity env path node ++ validateNodeModes env path node ++ validateNodeOverlayIP path node
    ++ validateNodeNetwork env path node ++ validateNodeHosts env path node

def validateNodesSchema (topo : Topology) : List Finding :=
  eachIndexed topo.nodes (validateNodeSchema env)

def validateEdgeType : EdgeType → List Finding
  | .unset => [error field .edgeTypeEmpty]
  | .unknown text => [error field .edgeTypeInvalid [("type", text)]]
  | _ => []

def validateTransport : Transport → List Finding
  | .unset => [error field .edgeTransportInvalid [("transport", "")]]
  | .unknown text => [error field .edgeTransportInvalid [("transport", text)]]
  | _ => []

def validateMimicFallback : MimicFallback → List Finding
  | .unknown text => [error field .edgeMimicFallbackInvalid [("policy", text)]]
  | _ => []

def validateEdgeRole : EdgeRole → List Finding
  | .unknown text => [error field .edgeRoleInvalid [("role", text)]]
  | _ => []

def validateLinkDirectionText : LinkDirection → List Finding
  | .unknown text => [error field .edgeLinkDirectionInvalid [("direction", text)]]
  | _ => []

def validateEdgeSchema (i : Nat) (edge : Edge) : List Finding :=
  let path := s!"edges[{i}]"
  report (edge.id = "") (error (path ++ ".id") .edgeIDRequired)
    ++ report (edge.fromNodeID = "") (error (path ++ ".from_node_id") .edgeFromNodeIDRequired)
    ++ report (edge.toNodeID = "") (error (path ++ ".to_node_id") .edgeToNodeIDRequired)
    ++ validateEdgeType (path ++ ".type") edge.type
    ++ validateTransport (path ++ ".transport") edge.transport
    ++ validateMimicFallback (path ++ ".mimic_fallback") edge.mimicFallback
    ++ report (edge.endpointPort < 0 || 65535 < edge.endpointPort)
        (error (path ++ ".endpoint_port") .edgeEndpointPortInvalid [("port", toString edge.endpointPort)])
    ++ report (0 < edge.endpointPort && edge.endpointHost = "")
        (error (path ++ ".endpoint_port") .edgeEndpointPortWithoutHost)
    ++ charsetFinding env (path ++ ".endpoint_host") .edgeEndpointHostIllegalChars "host" edge.endpointHost
        endpointHostCharset
    ++ validateEdgeRole (path ++ ".role") edge.role
    ++ validateLinkDirectionText (path ++ ".link_direction") edge.linkDirection
    ++ report (edge.fromNodeID ≠ "" && edge.fromNodeID = edge.toNodeID) (error path .edgeSelfLoop)

def validateEdgesSchema (topo : Topology) : List Finding :=
  eachIndexed topo.edges (validateEdgeSchema env)

/-- `ValidateSchema`, on the topology with its defaults filled. -/
def validateSchema (topo : Topology) : List Finding :=
  if topologyExceedsBounds topo then boundsFindings topo
  else
    validateProjectSchema topo ++ validateDomainsSchema topo ++ validateNodesSchema env topo
      ++ validateEdgesSchema env topo

end

end Validator

/-- The topology after the defaults that `ValidateSchema` fills in place. -/
def Topology.withDefaults (topo : Topology) : Topology :=
  if Validator.topologyExceedsBounds topo then topo
  else { topo with
    domains := topo.domains.map Domain.withDefaults
    edges := topo.edges.map Edge.withDefaults }

end Yaog
