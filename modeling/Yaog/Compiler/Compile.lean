import Yaog.Compiler.Peers

/-!
# The compile pipeline

`CompileAt` validates, allocates overlay addresses and link resources, derives peers, and writes the allocations back
into the pin fields of the enabled edges.
-/

namespace Yaog.Compiler

open Allocator Validator

inductive Phase where
  | schema | semantic

inductive CompileError where
  | validation (phase : Phase) (findings : List Finding)
  | overlay (reason : AllocateError)
  | peers (reason : LinkError)
  | orientationPanic

structure CompileResult where
  topology : Topology
  peers : Peers
  clientConfigs : List ClientPeerInfo
  warnings : List Finding

def CompileResult.peersOf (result : CompileResult) (nodeID : String) : List PeerInfo :=
  (result.peers.filter fun entry => entry.1 = nodeID).map (·.2)

/-- The settings of a `Compiler`: what is reserved outside the compiled subgraph and the fleet-wide
fallback policy. -/
structure Settings where
  reserved : Resources := {}
  mimicFallbackDefault : MimicFallback := .inherit

/-- `roleByNode[id] == "client"`. -/
def Topology.hasClient (topo : Topology) (id : String) : Bool := (topo.node? id).any Node.isClient

def clearClientPorts (topo : Topology) (edge : Edge) : Edge :=
  { edge with
    pinnedFromPort := if Topology.hasClient topo edge.fromNodeID then 0 else edge.pinnedFromPort
    pinnedToPort := if Topology.hasClient topo edge.toNodeID then 0 else edge.pinnedToPort }

def Edge.withPins (edge : Edge) (pins : Oriented) : Edge :=
  { edge with
    pinnedFromPort := pins.fromPort, pinnedToPort := pins.toPort
    pinnedFromTransitIP := pins.fromTransitIP, pinnedToTransitIP := pins.toTransitIP
    pinnedFromLinkLocal := pins.fromLinkLocal, pinnedToLinkLocal := pins.toLinkLocal }

def Edge.withCompiledPort (edge : Edge) (remotePort : Int) : Edge :=
  if edge.endpointHost = "" then edge else { edge with compiledPort := dialPort edge remotePort }

def writeBack (topo : Topology) (allocations : Allocations) (edge : Edge) : Edge :=
  let edge := clearClientPorts topo edge
  if edge.isEnabled then
    match lookupAllocation allocations edge.linkKey with
    | none => edge
    | some alloc =>
      let pins := alloc.oriented (alloc.fromNodeID = edge.fromNodeID)
      Edge.withCompiledPort (clearClientPorts topo (Edge.withPins edge pins)) pins.toPort
  else edge

section

variable (env : Externals) (settings : Settings) (keys : Keys)

def allocatedTopology (topo : Topology) (nodes : List Node) : Topology :=
  { topo with nodes := nodes.map withInferredCapabilities, allocSchemaVersion := currentAllocSchemaVersion }

/-- `CompileAt` after validation. -/
def derive (topo : Topology) (warnings : List Finding) : Except CompileError CompileResult :=
  match allocateIPs topo with
  | .error reason => .error (.overlay reason)
  | .ok nodes =>
    let compiled := allocatedTopology topo nodes
    match preallocateLinkResources (groupLinks compiled) settings.reserved with
    | .error reason => .error (.peers reason)
    | .ok allocations =>
      match buildPeerInfo env settings.mimicFallbackDefault keys compiled allocations
          compiled.firstEdges with
      | none => .error .orientationPanic
      | some peers => .ok
          { topology := { compiled with edges := compiled.edges.map (writeBack compiled allocations) }
            peers
            clientConfigs := deriveClientConfigs settings.mimicFallbackDefault keys compiled allocations
            warnings }

/-- `CompileAt`. -/
def compileAt (input : Topology) : Except CompileError CompileResult :=
  let topo := input.withDefaults
  let schema := validateSchema env topo
  let semantic := validateSemantic env topo
  if !isValid schema then .error (.validation .schema (errors schema))
  else if !isValid semantic then .error (.validation .semantic (errors semantic))
  else derive env settings keys topo ((schema ++ semantic).filter (·.level = .warning))

end

end Yaog.Compiler
