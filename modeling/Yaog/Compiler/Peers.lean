import Yaog.Compiler.Links

/-!
# Peers and client configurations

`buildPeerInfo` visits the first edge of each link and appends one peer on each end that is not a
client.
-/

namespace Yaog.Compiler

/-- `InferCapabilitiesFromRole`: a configured public endpoint implies public reachability. -/
def inferCapabilitiesFromRole (node : Node) : NodeCapabilities :=
  let hasPublicIP := node.capabilities.hasPublicIP || node.publicEndpoints ≠ []
  let caps := { node.capabilities with hasPublicIP }
  match node.role with
  | .router | .gateway =>
    { caps with canForward := true, canAcceptInbound := caps.canAcceptInbound || hasPublicIP }
  | .relay => { caps with canForward := true, canRelay := true, canAcceptInbound := true }
  | .client => { caps with canForward := false, canRelay := false, canAcceptInbound := false }
  | _ => caps

def withInferredCapabilities (node : Node) : Node :=
  { node with capabilities := inferCapabilitiesFromRole node }

structure KeyPair where
  privateKey : String := ""
  publicKey : String := ""

/-- The key map; a missing key reads as the empty pair. -/
abbrev Keys := String → Option KeyPair

def Keys.get (keys : Keys) (nodeID : String) : KeyPair := (keys nodeID).getD {}

structure PeerInfo where
  nodeID : String
  nodeName : String
  publicKey : String
  overlayIP : String
  allowedIPs : List String
  endpoint : String
  persistentKeepalive : Int
  interfaceName : String
  listenPort : Int
  localTransitIP : String
  remoteTransitIP : String
  localLinkLocal : String
  remoteLinkLocal : String
  isClientPeer : Bool := false
  clientOverlayIP : String := ""
  linkCost : Int := 0
  mimic : Bool
  mimicFallback : MimicFallback
  mtu : Int

/-- Each peer under its node. -/
abbrev Peers := List (String × PeerInfo)

/-- `itoa` of the source: negative numbers print as the empty text. -/
def itoa (number : Int) : String := if number < 0 then "" else toString number.toNat

/-- `formatEndpoint`: a host with a colon is bracketed. -/
def formatEndpoint (host : String) (port : Int) : String :=
  if ':' ∈ host.toList then "[" ++ host ++ "]:" ++ itoa port else host ++ ":" ++ itoa port

def isMimicEdge (edge : Edge) : Bool := edge.transport = .tcp

/-- `resolveMimicFallback`. -/
def resolveMimicFallback (edgePolicy defaultPolicy : MimicFallback) : MimicFallback :=
  match edgePolicy with
  | .udp => .udp
  | .none => .none
  | _ => if defaultPolicy = .udp then .udp else .none

def defaultMimicBaseMTU : Int := 1420

def mimicMTUOverhead : Int := 12

def effectiveMTU (nodeMTU : Int) (mimic : Bool) : Int :=
  if mimic then (if nodeMTU ≤ 0 then defaultMimicBaseMTU else nodeMTU) - mimicMTUOverhead else nodeMTU

def deriveLinkCost (edge : Edge) : Int :=
  if 0 < edge.priority then edge.priority
  else if 0 < edge.weight then edge.weight
  else if edge.isBackup then backupDefaultLinkCost
  else 0

/-- The resources of a link as one of its ends sees them. -/
structure Oriented where
  fromPort : Int
  toPort : Int
  fromTransitIP : String
  toTransitIP : String
  fromLinkLocal : String
  toLinkLocal : String

/-- `oriented`: straight through in the direction of the allocation, mirrored otherwise. -/
def PairAllocation.oriented (alloc : PairAllocation) (isForward : Bool) : Oriented :=
  if isForward then
    { fromPort := alloc.fromPort, toPort := alloc.toPort
      fromTransitIP := alloc.localTransit, toTransitIP := alloc.remoteTransit
      fromLinkLocal := alloc.localLL, toLinkLocal := alloc.remoteLL }
  else
    { fromPort := alloc.toPort, toPort := alloc.fromPort
      fromTransitIP := alloc.remoteTransit, toTransitIP := alloc.localTransit
      fromLinkLocal := alloc.remoteLL, toLinkLocal := alloc.localLL }

def directionText (fromID toID : String) : String := fromID ++ "->" ++ toID

/-- `edgeMap`: the last enabled primary-class edge in a direction. -/
def edgeInDirection (topo : Topology) (fromID toID : String) : Option Edge :=
  topo.edges.reverse.find? fun edge =>
    Validator.isPrimaryClass edge && directionText edge.fromNodeID edge.toNodeID = directionText fromID toID

section

variable (env : Externals) (mimicFallbackDefault : MimicFallback) (keys : Keys) (topo : Topology)

def basePeer (edge : Edge) (owner remote : Node) (resources : Oriented) : PeerInfo where
  nodeID := remote.id
  nodeName := remote.name
  publicKey := (keys.get remote.id).publicKey
  overlayIP := remote.overlayIP
  allowedIPs := ["0.0.0.0/0", "::/0"]
  endpoint := ""
  persistentKeepalive := 0
  interfaceName := wgInterfaceNameForEdge env remote.name edge.id edge.isBackup
  listenPort := resources.fromPort
  localTransitIP := resources.fromTransitIP
  remoteTransitIP := resources.toTransitIP
  localLinkLocal := resources.fromLinkLocal
  remoteLinkLocal := resources.toLinkLocal
  mimic := isMimicEdge edge
  mimicFallback := resolveMimicFallback edge.mimicFallback mimicFallbackDefault
  mtu := effectiveMTU owner.mtu (isMimicEdge edge)

def PeerInfo.ofClient (peer : PeerInfo) : PeerInfo :=
  { peer with
    allowedIPs := [peer.overlayIP ++ "/32"], isClientPeer := true, clientOverlayIP := peer.overlayIP }

def routerPeer (link : ResolvedEdge) (alloc : PairAllocation) : PeerInfo :=
  let isForward : Bool := alloc.fromNodeID = link.fromNode.id
  (basePeer env mimicFallbackDefault keys link.edge link.toNode link.fromNode
    (alloc.oriented !isForward)).ofClient

def dialPort (edge : Edge) (remotePort : Int) : Int :=
  if 0 < edge.endpointPort then edge.endpointPort else remotePort

def forwardEndpoint (edge : Edge) (alloc : PairAllocation) : String :=
  if edge.endpointHost = "" then "" else formatEndpoint edge.endpointHost (dialPort edge alloc.toPort)

def forwardPeer (link : ResolvedEdge) (alloc : PairAllocation) : PeerInfo :=
  let hasReverseEdge := (edgeInDirection topo link.toNode.id link.fromNode.id).isSome
  let peer := { basePeer env mimicFallbackDefault keys link.edge link.fromNode link.toNode
      (alloc.oriented true) with
    endpoint := forwardEndpoint link.edge alloc
    persistentKeepalive := if link.fromNode.capabilities.canAcceptInbound && hasReverseEdge then 0 else 25
    linkCost := deriveLinkCost link.edge }
  if link.toNode.isClient then peer.ofClient else peer

def reverseEndpoint (link : ResolvedEdge) (alloc : PairAllocation) : String :=
  if link.edge.linkDirection = .forward then ""
  else
    match (edgeInDirection topo link.toNode.id link.fromNode.id).filter fun edge => edge.endpointHost ≠ "" with
    | some edge => formatEndpoint edge.endpointHost (dialPort edge alloc.fromPort)
    | none =>
      match link.fromNode.capabilities.hasPublicIP, link.fromNode.publicEndpoints with
      | true, endpoint :: _ => formatEndpoint endpoint.host alloc.fromPort
      | _, _ => ""

def reversePeer (link : ResolvedEdge) (alloc : PairAllocation) : PeerInfo :=
  { basePeer env mimicFallbackDefault keys link.edge link.toNode link.fromNode (alloc.oriented false) with
    endpoint := reverseEndpoint topo link alloc
    persistentKeepalive := if link.toNode.capabilities.canAcceptInbound then 0 else 25
    linkCost := deriveLinkCost link.edge }

/-- The peers one link adds, by the node they are added to. The source panics when the allocation is
not oriented like the edge that produces the peers: `none`. -/
def linkPeers (link : ResolvedEdge) (alloc : PairAllocation) : Option (Peers) :=
  if link.fromNode.isClient then
    some [(link.toNode.id, routerPeer env mimicFallbackDefault keys link alloc)]
  else if alloc.fromNodeID ≠ link.fromNode.id then none
  else if link.toNode.isClient then
    some [(link.fromNode.id, forwardPeer env mimicFallbackDefault keys topo link alloc)]
  else
    some [(link.fromNode.id, forwardPeer env mimicFallbackDefault keys topo link alloc),
      (link.toNode.id, reversePeer env mimicFallbackDefault keys topo link alloc)]

/-- `buildPeerInfo`. -/
def buildPeerInfo (allocations : Allocations) :
    List ResolvedEdge → Option (Peers)
  | [] => some []
  | link :: rest =>
    match lookupAllocation allocations link.linkKey with
    | none => buildPeerInfo allocations rest
    | some alloc =>
      match linkPeers env mimicFallbackDefault keys topo link alloc,
          buildPeerInfo allocations rest with
      | some first, some later => some (first ++ later)
      | _, _ => none

structure ClientPeerInfo where
  nodeID : String
  nodeName : String
  overlayIP : String
  mtu : Int
  mimic : Bool
  mimicFallback : MimicFallback
  privateKey : String
  routerPublicKey : String
  routerEndpoint : String
  domainCIDRs : List String
  listenPort : Int

def clientDomainCIDRs : List String :=
  Data.keepFirst id ((topo.domains.map (·.cidr)
    ++ topo.domains.map fun domain =>
      if domain.transitCIDR = "" then defaultTransitCIDR else domain.transitCIDR).filter (· ≠ ""))

def clientRouterPort (nodeID : String) : Option PairAllocation → Int
  | none => 0
  | some alloc => if alloc.fromNodeID = nodeID then alloc.toPort else alloc.fromPort

def clientRouterEndpoint (edge : Edge) (routerPort : Int) : String :=
  let port := dialPort edge (if 0 < routerPort then routerPort else 0)
  if edge.endpointHost ≠ "" && 0 < port then formatEndpoint edge.endpointHost port else ""

def clientConfig (allocations : Allocations) (node : Node) : Option ClientPeerInfo :=
  if node.isClient then
    match topo.edges.find? fun edge => edge.isEnabled && edge.fromNodeID = node.id with
    | none => none
    | some edge =>
      match topo.node? edge.toNodeID with
      | none => none
      | some router =>
        some
          { nodeID := node.id, nodeName := node.name, overlayIP := node.overlayIP
            mtu := effectiveMTU node.mtu (isMimicEdge edge)
            mimic := isMimicEdge edge
            mimicFallback := resolveMimicFallback edge.mimicFallback mimicFallbackDefault
            privateKey := (keys.get node.id).privateKey
            routerPublicKey := (keys.get router.id).publicKey
            routerEndpoint := clientRouterEndpoint edge
              (clientRouterPort node.id (lookupAllocation allocations edge.linkKey))
            domainCIDRs := clientDomainCIDRs topo
            listenPort := wgListenPortBase }
  else none

/-- `DeriveClientConfigs`. -/
def deriveClientConfigs (allocations : Allocations) : List ClientPeerInfo :=
  topo.nodes.filterMap (clientConfig mimicFallbackDefault keys topo allocations)

end

end Yaog.Compiler
