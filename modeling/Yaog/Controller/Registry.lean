import Yaog.Validator.Schema

/-!
# The registry of fleet nodes
-/

namespace Yaog.Controller

open Validator

inductive NodeStatus where
  | pending | approved | revoked
  deriving DecidableEq, Repr

/-- `controller.Node`, the registry record of one node. -/
structure RegistryNode where
  nodeID : String
  wgPublicKey : String := ""
  apiTokenHash : String := ""
  status : NodeStatus := .pending
  desiredGeneration : Int := 0
  appliedGeneration : Int := 0
  rekeyRequested : Bool := false
  deriving DecidableEq, Repr

/-- `unicode.IsSpace`. -/
def isSpace (char : Char) : Bool :=
  char.toNat ∈ [0x09, 0x0a, 0x0b, 0x0c, 0x0d, 0x20, 0x85, 0xa0, 0x1680, 0x2028, 0x2029, 0x202f, 0x205f, 0x3000]
    || (0x2000 ≤ char.toNat && char.toNat ≤ 0x200a)

/-- `strings.TrimSpace`. -/
def trimSpace (text : String) : String :=
  String.ofList ((text.toList.dropWhile isSpace).reverse.dropWhile isSpace).reverse

/-- `CodeManualNodeInvalid` with its parameters. -/
structure ManualNodeInvalid where
  node : String
  detail : String

def enrolledByKey (registry : List RegistryNode) (key : String) : Option String :=
  (registry.reverse.find? fun node => node.status = .approved && trimSpace node.wgPublicKey = key).map (·.nodeID)

/-- The loop of `validateManualNodes`; `manualByKey` holds the keys of the manual nodes before. -/
def checkManualNodes (registry : List RegistryNode) : List (String × String) → List Node → Option ManualNodeInvalid
  | _, [] => none
  | manualByKey, node :: rest =>
    let key := trimSpace node.wireGuardPublicKey
    if !node.isManual then checkManualNodes registry manualByKey rest
    else if key = "" then some
      { node := node.id
        detail := "no WireGuard public key — a manual node is hand-deployed, so it must carry its own "
          ++ "pre-known public key" }
    else if !validWGPublicKey node.wireGuardPublicKey then some
      { node := node.id
        detail := "its WireGuard public key is not a valid base64/32-byte Curve25519 key" }
    else
      match enrolledByKey registry key, manualByKey.lookup key with
      | some other, _ => some
          { node := node.id
            detail := "its WireGuard public key collides with enrolled node " ++ other }
      | none, some other => some
          { node := node.id
            detail := "its WireGuard public key duplicates manual node " ++ other }
      | none, none => checkManualNodes registry ((key, node.id) :: manualByKey) rest

def validateManualNodes (topo : Topology) (registry : List RegistryNode) : Option ManualNodeInvalid :=
  checkManualNodes registry [] topo.nodes

end Yaog.Controller
