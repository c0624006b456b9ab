import Yaog.Controller.Store
import Yaog.Data.Session

/-!
# Enrolling, rekeying and revoking nodes

The calls that change the registry, as sessions of atomic store requests. All but `handleRevoke` run
under the operation lock of the tenant.
-/

namespace Yaog.Controller

open Data Validator

structure EnrollmentToken where
  nodeID : String
  expiresAt : Nat
  consumedAt : Option Nat := none

/-- The records the registry calls use. Telemetry lives outside them. -/
structure Registry where
  nodes : Records RegistryNode := ∅
  tokens : Records EnrollmentToken := ∅
  apiTokens : Records String := ∅
  topology : Option Topology := none
  audit : List AuditEntry := []

inductive Request where
  | getNode (nodeID : String)
  | getNodeRecord (nodeID : String)
  | listNodes
  | upsertNode (node : RegistryNode)
  | consumeEnrollmentToken (tokenHash nodeID : String) (now : Nat)
  | purgeEnrollmentTokensForNode (nodeID : String)
  | issueNodeAPIToken (nodeID tokenHash : String)
  | revokeNodeAPIToken (nodeID : String)
  | getTopology
  | appendAudit (entry : AuditEntry)

inductive Reply where
  | ok
  | node (node : RegistryNode)
  | nodes (nodes : List RegistryNode)
  | topology (topology : Topology)
  | notFound
  | tokenInvalid
  | tokenConsumed
  | storage

namespace Registry

def consumeToken (registry : Registry) (tokenHash nodeID : String) (now : Nat) : Registry × Reply :=
  match registry.tokens[tokenHash]? with
  | none => (registry, .tokenInvalid)
  | some token =>
    if token.nodeID ≠ nodeID ∨ token.expiresAt ≤ now then (registry, .tokenInvalid)
    else if token.consumedAt.isSome then (registry, .tokenConsumed)
    else
      ({ registry with tokens := registry.tokens.insert tokenHash { token with consumedAt := some now } }, .ok)

def issueToken (registry : Registry) (nodeID tokenHash : String) : Registry × Reply :=
  match registry.nodes[nodeID]? with
  | none => (registry, .notFound)
  | some node =>
    let kept :=
      if node.apiTokenHash ≠ "" ∧ node.apiTokenHash ≠ tokenHash then registry.apiTokens.erase node.apiTokenHash
      else registry.apiTokens
    ({ registry with
        nodes := registry.nodes.insert nodeID { node with apiTokenHash := tokenHash }
        apiTokens := kept.insert tokenHash nodeID }, .ok)

def revokeToken (registry : Registry) (nodeID : String) : Registry × Reply :=
  match registry.nodes[nodeID]? with
  | none => (registry, .ok)
  | some node =>
    if node.apiTokenHash = "" then (registry, .ok)
    else
      ({ registry with
          nodes := registry.nodes.insert nodeID { node with apiTokenHash := "" }
          apiTokens := registry.apiTokens.erase node.apiTokenHash }, .ok)

def serve (fault : Bool) (registry : Registry) (request : Request) : Registry × Reply :=
  if fault then (registry, .storage)
  else
    match request with
    | .getNode nodeID | .getNodeRecord nodeID =>
      (registry, (registry.nodes[nodeID]?.map Reply.node).getD .notFound)
    | .listNodes => (registry, .nodes (registry.nodes.toList.map (·.2)))
    | .upsertNode node => ({ registry with nodes := registry.nodes.insert node.nodeID node }, .ok)
    | .consumeEnrollmentToken tokenHash nodeID now => registry.consumeToken tokenHash nodeID now
    | .purgeEnrollmentTokensForNode nodeID =>
      ({ registry with tokens := registry.tokens.filter fun _ token => token.nodeID ≠ nodeID }, .ok)
    | .issueNodeAPIToken nodeID tokenHash => registry.issueToken nodeID tokenHash
    | .revokeNodeAPIToken nodeID => registry.revokeToken nodeID
    | .getTopology => (registry, (registry.topology.map Reply.topology).getD .notFound)
    | .appendAudit entry => ({ registry with audit := registry.audit ++ [entry] }, .ok)

end Registry

inductive EnrollError where
  | invalidWGKey (key : String)
  | tokenInvalid
  | tokenConsumed
  | nodeRevoked
  | duplicateWGKey (conflict : String)
  | notFound
  | fieldRequired (field : String)
  | storage (context : String)
  deriving DecidableEq, Repr

/-- A call of the controller, one store request at a time. -/
abbrev Ceremony (α : Type) := Session Request Reply (Except EnrollError α)

namespace Ceremony

def give {α : Type} (value : α) : Ceremony α := .done (.ok value)

def refuse {α : Type} (reason : EnrollError) : Ceremony α := .done (.error reason)

end Ceremony

open Ceremony

def perform (request : Request) (context : String) : Ceremony Unit :=
  .ask request fun
    | .ok => give ()
    | .notFound => refuse .notFound
    | .tokenInvalid => refuse .tokenInvalid
    | .tokenConsumed => refuse .tokenConsumed
    | _ => refuse (.storage context)

def findNode (request : Request) (context : String) : Ceremony (Option RegistryNode) :=
  .ask request fun
    | .node node => give (some node)
    | .notFound => give none
    | _ => refuse (.storage context)

def getNodeRecord (nodeID context : String) : Ceremony RegistryNode :=
  (findNode (.getNodeRecord nodeID) context).andThen fun
    | some node => give node
    | none => refuse .notFound

def listNodes (context : String) : Ceremony (List RegistryNode) :=
  .ask .listNodes fun
    | .nodes nodes => give nodes
    | _ => refuse (.storage context)

def getTopology (context : String) : Ceremony (Option Topology) :=
  .ask .getTopology fun
    | .topology topology => give (some topology)
    | .notFound => give none
    | _ => refuse (.storage context)

def upsertNode (node : RegistryNode) (context : String) : Ceremony Unit := perform (.upsertNode node) context

def appendAudit (actor action nodeID : String) (now : Nat) (context : String) : Ceremony Unit :=
  perform (.appendAudit { actor, action, nodeID, timestamp := now }) context

def manualKeyConflict (key selfNodeID : String) : Ceremony Unit :=
  (getTopology "controller: loading topology for manual-key dedupe").andThen fun
    | none => give ()
    | some topology =>
      match topology.nodes.find? fun node =>
          node.isManual && node.id ≠ selfNodeID && trimSpace node.wireGuardPublicKey = key with
      | some conflict => refuse (.duplicateWGKey conflict.id)
      | none => give ()

/-- `CheckWGKeyUnique`. -/
def checkWGKeyUnique (wgPubKey selfNodeID : String) : Ceremony Unit :=
  let key := trimSpace wgPubKey
  if key = "" then give ()
  else
    (listNodes "controller: checking for duplicate WG key").andThen fun nodes =>
      match nodes.find? fun node =>
          node.status = .approved && node.nodeID ≠ selfNodeID && trimSpace node.wgPublicKey = key with
      | some conflict => refuse (.duplicateWGKey conflict.nodeID)
      | none => manualKeyConflict key selfNodeID

structure EnrollRequest where
  nodeID : String
  wgPublicKey : String
  tokenHash : String

def register (req : EnrollRequest) (now : Nat) (hash action : String) : Ceremony Unit :=
  (upsertNode
    { nodeID := req.nodeID, wgPublicKey := req.wgPublicKey, apiTokenHash := hash, status := .approved }
    "controller: registering enrolled node").andThen fun _ =>
  (perform (.issueNodeAPIToken req.nodeID hash) "controller: issuing node API token").andThen fun _ =>
  appendAudit ("agent:" ++ req.nodeID) action req.nodeID now "controller: appending enroll audit"

def admitNode (req : EnrollRequest) (now : Nat) (hash action : String) : Ceremony Unit :=
  (checkWGKeyUnique req.wgPublicKey req.nodeID).bind fun
    -- a failed read of the store is audited in the same words as a duplicate
    | .error reason =>
      (appendAudit ("agent:" ++ req.nodeID) "enroll-rejected-duplicate-key" req.nodeID now
        "controller: appending duplicate-key audit").andThen fun _ => refuse reason
    | .ok _ => register req now hash action

def guardLifecycle (req : EnrollRequest) (now : Nat) (hash : String) : Option RegistryNode → Ceremony Unit
  | none => admitNode req now hash "enroll"
  | some existing =>
    if existing.status = .revoked then
      (appendAudit ("agent:" ++ req.nodeID) "enroll-rejected-revoked" req.nodeID now
        "controller: appending revoked-enroll audit").andThen fun _ => refuse .nodeRevoked
    else admitNode req now hash (if existing.status = .approved then "enroll-reenroll-approved" else "enroll")

/-- `Enroll`. The token is burned first; `hash` is the hash of the minted API token. -/
def enroll (req : EnrollRequest) (now : Nat) (hash : String) : Ceremony Unit :=
  if !validWGPublicKey req.wgPublicKey then refuse (.invalidWGKey req.wgPublicKey)
  else
    (perform (.consumeEnrollmentToken req.tokenHash req.nodeID now) "").andThen fun _ =>
    (findNode (.getNode req.nodeID) "controller: loading node for enroll guard").andThen
      (guardLifecycle req now hash)

/-- `Rekey`. -/
def rekey (nodeID newPubKey : String) (now : Nat) : Ceremony Unit :=
  if !validWGPublicKey newPubKey then refuse (.invalidWGKey newPubKey)
  else
    (getNodeRecord nodeID "").andThen fun record =>
    (checkWGKeyUnique newPubKey nodeID).bind fun
      | .error reason =>
        (appendAudit ("agent:" ++ nodeID) "rekey-rejected-duplicate-key" nodeID now
          "controller: appending duplicate-key audit").andThen fun _ => refuse reason
      | .ok _ =>
        (upsertNode { record with wgPublicKey := newPubKey, rekeyRequested := false }
          "controller: recording rekey").andThen fun _ =>
        appendAudit ("agent:" ++ nodeID) "rekey" nodeID now "controller: appending rekey audit"

/-- The loop of `FlagFleetRekey` over the listed nodes; it counts the nodes it has flagged. -/
def flagNodes : Nat → List RegistryNode → Ceremony Nat
  | requested, [] => give requested
  | requested, listed :: rest =>
    if listed.status ≠ .approved then flagNodes requested rest
    else
      (findNode (.getNodeRecord listed.nodeID) "controller: reading node to rekey").andThen fun
        | none => flagNodes requested rest
        | some node =>
          (upsertNode { node with rekeyRequested := true } "controller: flagging node rekey").andThen fun _ =>
          flagNodes (requested + 1) rest

/-- `FlagFleetRekey`. -/
def flagFleetRekey : Ceremony Nat :=
  (listNodes "controller: listing nodes to rekey").andThen (flagNodes 0)

/-- `ClearNodeRekey`. -/
def clearNodeRekey (nodeID : String) : Ceremony Bool :=
  (getNodeRecord nodeID "").andThen fun node =>
    if !node.rekeyRequested then give false
    else (upsertNode { node with rekeyRequested := false } "controller: clearing node rekey").andThen fun _ =>
      give true

/-- `HandleRevoke`, which does not take the operation lock. -/
def handleRevoke (nodeID actor : String) (now : Nat) : Ceremony Unit :=
  if nodeID = "" then refuse (.fieldRequired "node_id")
  else
    (getNodeRecord nodeID "").andThen fun node =>
    (upsertNode { node with status := .revoked, rekeyRequested := false } "").andThen fun _ =>
    (perform (.revokeNodeAPIToken nodeID) "").andThen fun _ =>
    (perform (.purgeEnrollmentTokensForNode nodeID) "").andThen fun _ =>
    appendAudit ("operator:" ++ actor) "revoke" nodeID now ""

end Yaog.Controller
