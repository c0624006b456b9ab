import Yaog.Validator.Accepted

/-!
# Overlay addresses

`AllocateIPs` drops addresses that left their domain's prefix and then hands every node without an address the lowest
free host of its domain.
-/

namespace Yaog.Allocator

open Net

inductive OverlayError where
  | nodeUnknownDomain (domain : String)
  | cidrInvalid (cidr : String)
  | noHostAddresses (cidr : String)
  | tooManyHostBits (cidr : String)
  | scanBudgetExceeded (cidr : String)
  | notIPv4Network (cidr : String)
  | poolExhausted (cidr : String)

/-- An overlay error with the name of the node it concerns. -/
structure AllocateError where
  node : String
  cause : OverlayError

def maxOverlayScanBudget : Nat := 2 ^ 20

def reservedNets (reservedRanges : List String) : List IPNet := reservedRanges.filterMap parseCIDR

def reservedSingleIPs (reservedRanges : List String) : List String :=
  reservedRanges.filterMap fun range =>
    if (parseCIDR range).isSome then none else (parseIP range).map IP.format

def notReserved (reservedRanges : List String) (text : String) : Bool :=
  text ∉ reservedSingleIPs reservedRanges
    && !(reservedNets reservedRanges).any fun net => (parseIP text).any net.contains

def firstHost (net : IPNet) : Nat := if net.hostBits ≤ 1 then 0 else 1

def endHost (net : IPNet) : Nat := if net.hostBits ≤ 1 then 2 ^ net.hostBits else 2 ^ net.hostBits - 1

/-- `uint32ToIP(networkIP + h).String()`. -/
def hostText (network : IPv4) (host : Nat) : String := (network + BitVec.ofNat 32 host).format

def allocateFromCIDR (cidr : String) (reservedRanges usedIPs : List String) : Except OverlayError String :=
  match parseCIDR cidr with
  | none => .error (.cidrInvalid cidr)
  | some net =>
    if net.hostBits = 0 then .error (.noHostAddresses cidr)
    else if 32 ≤ net.hostBits then .error (.tooManyHostBits cidr)
    else if maxOverlayScanBudget < endHost net - firstHost net then .error (.scanBudgetExceeded cidr)
    else
      match net.ip.to4 with
      | none => .error (.notIPv4Network cidr)
      | some network =>
        match (List.range' (firstHost net) (endHost net - firstHost net)).find? fun host =>
            hostText network host ∉ usedIPs && notReserved reservedRanges (hostText network host) with
        | some host => .ok (hostText network host)
        | none => .error (.poolExhausted cidr)

def clearStale (topo : Topology) (node : Node) : Node :=
  match (topo.domain? node.domainID).bind fun domain => parseCIDR domain.cidr with
  | none => node
  | some net =>
    if (parseIP node.overlayIP).any net.contains then node else { node with overlayIP := "" }

def assignFree (topo : Topology) : List String → List Node → Except AllocateError (List Node)
  | _, [] => .ok []
  | usedIPs, node :: rest =>
    if node.overlayIP ≠ "" then
      match assignFree topo usedIPs rest with
      | .error reason => .error reason
      | .ok nodes => .ok (node :: nodes)
    else
      match topo.domain? node.domainID with
      | none => .error { node := node.name, cause := .nodeUnknownDomain node.domainID }
      | some domain =>
        match allocateFromCIDR domain.cidr domain.reservedRanges usedIPs with
        | .error cause => .error { node := node.name, cause }
        | .ok ip =>
          match assignFree topo (ip :: usedIPs) rest with
          | .error reason => .error reason
          | .ok nodes => .ok ({ node with overlayIP := ip } :: nodes)

def carriedIPs (nodes : List Node) : List String := (nodes.map (·.overlayIP)).filter (· ≠ "")

/-- `AllocateIPs`. -/
def allocateIPs (topo : Topology) : Except AllocateError (List Node) :=
  let nodes := topo.nodes.map (clearStale topo)
  assignFree topo (carriedIPs nodes) nodes

end Yaog.Allocator
