import Yaog.Data.TextOrder

/-!
# The topology an operator edits and the compiler returns

Every enumeration keeps a constructor for the empty text and one for a text the schema rejects.
Texts that no modelled function reads (descriptions, notes, host names) are left out.
-/

namespace Yaog

open List

/-- Ports are compared with the node that listens on them. -/
instance lawfulBEqPort : LawfulBEq (String × Int) := inferInstance

/-- Addresses are compared with the pool they come from. -/
instance lawfulBEqAddress : LawfulBEq (String × String) := inferInstance

inductive NodeRole where
  | unset | peer | router | relay | gateway | client
  | unknown (text : String)
  deriving DecidableEq, Repr

inductive DeploymentMode where
  | unset | managed | manual
  | unknown (text : String)
  deriving DecidableEq, Repr

inductive AllocationMode where
  | unset | auto | manual
  | unknown (text : String)
  deriving DecidableEq, Repr

inductive RoutingMode where
  | unset | babel | static | none
  | unknown (text : String)
  deriving DecidableEq, Repr

inductive XDPMode where
  | unset | skb | native
  | unknown (text : String)
  deriving DecidableEq, Repr

inductive EdgeType where
  | unset | direct | publicEndpoint | relayPath | candidate
  | unknown (text : String)
  deriving DecidableEq, Repr

inductive EdgeRole where
  | unset | primary | backup
  | unknown (text : String)
  deriving DecidableEq, Repr

inductive Transport where
  | unset | udp | tcp
  | unknown (text : String)
  deriving DecidableEq, Repr

inductive MimicFallback where
  | inherit | udp | none
  | unknown (text : String)
  deriving DecidableEq, Repr

inductive LinkDirection where
  | unset | both | forward
  | unknown (text : String)
  deriving DecidableEq, Repr

structure Project where
  id : String
  name : String
  deriving DecidableEq, Repr

structure Domain where
  id : String
  name : String
  cidr : String
  allocationMode : AllocationMode := .unset
  routingMode : RoutingMode := .unset
  reservedRanges : List String := []
  transitCIDR : String := ""
  deriving DecidableEq, Repr

structure PublicEndpoint where
  host : String
  port : Int
  deriving DecidableEq, Repr

structure NodeCapabilities where
  canAcceptInbound : Bool := false
  canForward : Bool := false
  canRelay : Bool := false
  hasPublicIP : Bool := false
  deriving DecidableEq, Repr

structure TelemetryProbe where
  id : String
  name : String := ""
  type : String
  host : String := ""
  port : Int := 0
  url : String := ""
  expectedStatus : Int := 0
  intervalSeconds : Int := 0
  timeoutMilliseconds : Int := 0
  deriving DecidableEq, Repr

structure TelemetryDevicePolicy where
  mode : String
  deriving DecidableEq, Repr

structure Node where
  id : String
  name : String
  platform : String := ""
  role : NodeRole
  deploymentMode : DeploymentMode := .unset
  domainID : String
  overlayIP : String := ""
  mtu : Int := 0
  xdpMode : XDPMode := .unset
  mimicEgressInterface : String := ""
  routerID : String := ""
  capabilities : NodeCapabilities := {}
  fixedPrivateKey : Bool := false
  wireGuardPrivateKey : String := ""
  wireGuardPublicKey : String := ""
  publicEndpoints : List PublicEndpoint := []
  extraPrefixes : List String := []
  sshAlias : String := ""
  sshHost : String := ""
  sshPort : Int := 0
  sshUser : String := ""
  sshKeyPath : String := ""
  telemetryProbes : List TelemetryProbe := []
  telemetryDevices : Option TelemetryDevicePolicy := none
  deriving DecidableEq, Repr

def Node.isManual (node : Node) : Bool := node.deploymentMode = .manual

def Node.isClient (node : Node) : Bool := node.role = .client

structure Edge where
  id : String
  fromNodeID : String
  toNodeID : String
  type : EdgeType
  endpointHost : String := ""
  endpointPort : Int := 0
  compiledPort : Int := 0
  priority : Int := 0
  weight : Int := 0
  role : EdgeRole := .unset
  transport : Transport := .unset
  mimicFallback : MimicFallback := .inherit
  linkDirection : LinkDirection := .unset
  isEnabled : Bool := true
  pinnedFromPort : Int := 0
  pinnedToPort : Int := 0
  pinnedFromTransitIP : String := ""
  pinnedToTransitIP : String := ""
  pinnedFromLinkLocal : String := ""
  pinnedToLinkLocal : String := ""
  deriving DecidableEq, Repr

structure RoutePolicy where
  id : String
  deriving DecidableEq, Repr

structure Topology where
  project : Project
  domains : List Domain
  nodes : List Node
  edges : List Edge
  routePolicies : List RoutePolicy := []
  allocSchemaVersion : Int := 0
  deriving DecidableEq, Repr

def currentAllocSchemaVersion : Int := 1

/-- The source fills a map from a slice, so the last entry with an identifier is the one found. -/
def Topology.domain? (topo : Topology) (id : String) : Option Domain :=
  topo.domains.reverse.find? fun domain => domain.id = id

def Topology.node? (topo : Topology) (id : String) : Option Node :=
  topo.nodes.reverse.find? fun node => node.id = id

theorem findLast_mem {items : List α} {key : α → String} {id : String} {item : α}
    (found : (items.reverse.find? fun item => key item = id) = some item) : item ∈ items ∧ key item = id := by
  have member := mem_of_find?_eq_some found
  have named := find?_some found
  exact ⟨mem_reverse.mp member, of_decide_eq_true named⟩

theorem Topology.domain?_mem {topo : Topology} {id : String} {domain : Domain}
    (found : topo.domain? id = some domain) : domain ∈ topo.domains ∧ domain.id = id :=
  findLast_mem found

theorem Topology.node?_mem {topo : Topology} {id : String} {node : Node}
    (found : topo.node? id = some node) : node ∈ topo.nodes ∧ node.id = id :=
  findLast_mem found

/-- `linkid.IsBackup`. -/
def Edge.isBackup (edge : Edge) : Bool := edge.role = .backup

/-- `linkid.PinKey`: the two node identifiers in order. -/
def pinKey (a b : String) : String := if Data.textLE a b then a ++ "|" ++ b else b ++ "|" ++ a

/-- `linkid.LinkKey`: edges between one pair share a link, except that each backup edge is its own. -/
def Edge.linkKey (edge : Edge) : String :=
  if edge.isBackup then pinKey edge.fromNodeID edge.toNodeID ++ "#" ++ edge.id
  else pinKey edge.fromNodeID edge.toNodeID

def defaultTransitCIDR : String := "10.10.0.0/24"

def backupDefaultLinkCost : Int := 384

def wgListenPortBase : Nat := 51820

def minPinnedPort : Int := 1024

end Yaog
