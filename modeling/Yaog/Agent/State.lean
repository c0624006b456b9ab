import Yaog.Agent.Clock
import Yaog.Agent.Verify

/-!
# The durable state of the agent

The record of the last apply, the intent that is written before `install.sh` runs, and the checks that
a run makes against both.
-/

namespace Yaog.Agent

open Controller

inductive Action where
  | apply | uninstall
  | other (name : String)
  deriving DecidableEq, Repr

structure PendingApply where
  compiledAt : String
  manifestChecksum : String
  bundleSHA256 : Bytes
  action : Action
  membershipEpoch : Int
  membershipVerified : Bool
  signingKeyFingerprint : Bytes := []
  operatorCredentialFingerprint : Bytes := []
  /-- Not set for an apply without a keystone. -/
  operatorCredentialAlg : Option Alg := none
  operatorRPID : String := ""
  operatorOrigin : String := ""
  startedAt : String
  deriving DecidableEq, Repr

/-- The self-update that is under way: the versions `From` and `To`, and the boots that tried to resolve it. -/
structure PendingUpdate where
  source : String
  target : String
  attempts : Nat
  confirmed : Bool := false
  deriving DecidableEq, Repr

inductive LastResult where
  | none | ok | error | pending
  deriving DecidableEq, Repr

structure State where
  nodeID : String := ""
  lastCompiledAt : String := ""
  lastChecksum : String := ""
  lastResult : LastResult := .none
  lastAction : Option Action := none
  lastSigned : Bool := false
  membershipEpoch : Int := 0
  membershipVerified : Bool := false
  pendingApply : Option PendingApply := none
  appliedAt : String := ""
  health : String := ""
  agentVersionFloor : String := ""
  pendingUpdate : Option PendingUpdate := none
  abandonedAgentVersion : String := ""
  abandonedReason : String := ""
  selfUpdateBlocked : Bool := false
  activeTelemetryPolicy : Bytes := []
  deriving DecidableEq, Repr

structure ManifestInfo where
  nodeID : String
  compiledAt : String
  checksum : String
  deriving DecidableEq, Repr

/-- One pinned agent binary: its asset and its digest. -/
structure BinPin where
  asset : String
  sha256 : Bytes

structure AgentCatalog where
  version : String
  minVersion : String
  releaseURL : String
  bins : List (String × BinPin)

/-- The rest of what the agent takes from the standard library and the telemetry parser. -/
structure Runtime extends Platform where
  /-- The canonical DER of a public key. -/
  publicKeyDER : Bytes → Option Bytes
  decodeManifest : Bytes → Option ManifestInfo
  decodeCatalog : Bytes → Option AgentCatalog
  /-- The canonical form of a telemetry policy, of the successor format or of the first one. -/
  canonicalPolicy : Bool → Bytes → Option Bytes

structure Config where
  nodeID : String
  pinnedPubPEM : Bytes := []
  operatorCredPEM : Bytes := []
  operatorCredAlg : Alg := .other ""
  operatorRPID : String := ""
  operatorOrigin : String := ""
  installArgs : List String := []
  /-- Whether signed self-updates are enabled. -/
  selfUpdate : Bool := false

def Config.membership (config : Config) : MembershipConfig where
  nodeID := config.nodeID
  operatorCredPEM := config.operatorCredPEM
  operatorCredAlg := config.operatorCredAlg
  operatorRPID := config.operatorRPID
  operatorOrigin := config.operatorOrigin

inductive AgentError where
  | emptyNodeID | installArgs | wrongNode | trustDowngrade
  | pendingCompiledAt | pendingStartedAt | pendingAction | pendingDigest | pendingEpoch
  | pendingFingerprint | signingKeyMissing | signingKeyUnreadable | signingKeyChanged
  | pendingCredential | credentialMissing | credentialUnreadable | credentialChanged | pendingMetadata
  | fetch | missingManifest | manifest | noCompiledAt | manifestNode
  | verify (reason : VerifyError)
  | policyUncredentialed | policy
  | candidateTime | rollback
  | unresolvedAction | differentCandidate
  | belowMinVersion | arch | inFlight | noPin | download | hashMismatch | selfTest
  | breadcrumb | backUp | installBinary | reExec
  | stage | persistIntent | install | commit | healthGate | reconcile
  deriving DecidableEq, Repr

section

variable (runtime : Runtime)

/-- `credFingerprint`. -/
def credFingerprint (pem : Bytes) : Option Bytes := (runtime.publicKeyDER pem).map runtime.digest

def validSHA256Hex (value : Bytes) : Bool := value.length = 64 && value.all isHexDigit

def verifiedBundleDigest (bundle : Bundle) : Except AgentError Bytes :=
  match bundle.get? checksumsFile with
  | none => .error (.verify (.missing checksumsFile))
  | some checksums => .ok (runtime.digest checksums)

def refuse (condition : Prop) [Decidable condition] (reason : AgentError) : Except AgentError Unit :=
  if condition then .error reason else .ok ()

def validatePendingSigner (config : Config) (pending : PendingApply) : Except AgentError Unit :=
  if pending.signingKeyFingerprint = [] then .ok ()
  else do
    refuse (¬validSHA256Hex pending.signingKeyFingerprint) .pendingFingerprint
    refuse (config.pinnedPubPEM = []) .signingKeyMissing
    match credFingerprint runtime config.pinnedPubPEM with
    | none => .error .signingKeyUnreadable
    | some got => refuse (¬equalFold got pending.signingKeyFingerprint) .signingKeyChanged

def validatePendingOperator (config : Config) (pending : PendingApply) : Except AgentError Unit :=
  if pending.membershipVerified then do
    refuse (¬validSHA256Hex pending.operatorCredentialFingerprint) .pendingCredential
    refuse (config.operatorCredPEM = []) .credentialMissing
    match credFingerprint runtime config.operatorCredPEM with
    | none => .error .credentialUnreadable
    | some got =>
      refuse (¬equalFold got pending.operatorCredentialFingerprint ∨
        some config.operatorCredAlg ≠ pending.operatorCredentialAlg ∨
        config.operatorRPID ≠ pending.operatorRPID ∨ config.operatorOrigin ≠ pending.operatorOrigin)
        .credentialChanged
  else
    refuse (pending.operatorCredentialFingerprint ≠ [] ∨ pending.operatorCredentialAlg ≠ none ∨
      pending.operatorRPID ≠ "" ∨ pending.operatorOrigin ≠ "") .pendingMetadata

def validatePendingApply (config : Config) (state : State) : Except AgentError Unit :=
  match state.pendingApply with
  | none => .ok ()
  | some pending => do
      refuse (parseTime pending.compiledAt = none) .pendingCompiledAt
      refuse (parseTime pending.startedAt = none) .pendingStartedAt
      refuse (pending.action ≠ .apply ∧ pending.action ≠ .uninstall) .pendingAction
      refuse (¬validSHA256Hex pending.bundleSHA256) .pendingDigest
      refuse (pending.membershipEpoch < 0) .pendingEpoch
      validatePendingSigner runtime config pending
      validatePendingOperator runtime config pending

/-- `effectiveMembershipFloor`. -/
def State.membershipFloor (state : State) : Int :=
  match state.pendingApply with
  | some pending => if pending.membershipEpoch > state.membershipEpoch then pending.membershipEpoch
    else state.membershipEpoch
  | none => state.membershipEpoch

/-- `effectiveRollbackState`. Both texts are parsed as they are. -/
def effectiveRollbackState (state : State) : State :=
  match state.pendingApply with
  | none => state
  | some pending =>
    match parseTime pending.compiledAt with
    | none => state
    | some pendingTime =>
      match parseTime state.lastCompiledAt with
      | none => { state with lastCompiledAt := pending.compiledAt }
      | some lastTime =>
        if lastTime < pendingTime then { state with lastCompiledAt := pending.compiledAt } else state

/-- `CheckRollback`, which trims both texts. -/
def checkRollback (state : State) (candidate : String) : Except AgentError Unit :=
  match parseTime (trimSpace candidate) with
  | none => .error .candidateTime
  | some time =>
    if trimSpace state.lastCompiledAt = "" then .ok ()
    else
      match parseTime (trimSpace state.lastCompiledAt) with
      | none => .ok ()
      | some last => refuse (time < last) .rollback

def validateCandidateAgainstPending (state : State) (manifest : ManifestInfo) (bundle : Bundle) (action : Action) :
    Except AgentError Unit :=
  match state.pendingApply with
  | none => .ok ()
  | some pending =>
    if action ≠ pending.action then .error .unresolvedAction
    else
      match parseTime manifest.compiledAt, parseTime pending.compiledAt with
      | some candidateTime, some pendingTime =>
        if candidateTime = pendingTime then do
          let digest ← verifiedBundleDigest runtime bundle
          refuse (¬equalFold digest pending.bundleSHA256 ∨ manifest.checksum ≠ pending.manifestChecksum)
            .differentCandidate
        else .ok ()
      | _, _ => .error .candidateTime

/-- `parseManifest`. -/
def parseManifest (data : Bytes) : Except AgentError ManifestInfo :=
  match runtime.decodeManifest data with
  | none => .error .manifest
  | some manifest => if trimSpace manifest.compiledAt = "" then .error .noCompiledAt else .ok manifest

def samePendingApply (first second : PendingApply) : Bool :=
  first.compiledAt = second.compiledAt && first.manifestChecksum = second.manifestChecksum
    && equalFold first.bundleSHA256 second.bundleSHA256 && first.action = second.action
    && first.membershipEpoch = second.membershipEpoch && first.membershipVerified = second.membershipVerified
    && equalFold first.signingKeyFingerprint second.signingKeyFingerprint
    && equalFold first.operatorCredentialFingerprint second.operatorCredentialFingerprint
    && first.operatorCredentialAlg = second.operatorCredentialAlg
    && first.operatorRPID = second.operatorRPID && first.operatorOrigin = second.operatorOrigin

def fingerprintOf (pem : Bytes) (reason : AgentError) : Except AgentError Bytes :=
  if pem = [] then .ok []
  else
    match credFingerprint runtime pem with
    | none => .error reason
    | some fingerprint => .ok fingerprint

def pendingApply (config : Config) (manifest : ManifestInfo) (bundle : Bundle) (membershipEpoch : Int)
    (action : Action) (now : Stamp) : Except AgentError PendingApply := do
  let digest ← verifiedBundleDigest runtime bundle
  let signer ← fingerprintOf runtime config.pinnedPubPEM .signingKeyUnreadable
  let operator ← fingerprintOf runtime config.operatorCredPEM .credentialUnreadable
  let keystone := config.operatorCredPEM ≠ []
  .ok {
    compiledAt := manifest.compiledAt
    manifestChecksum := manifest.checksum
    bundleSHA256 := digest
    action
    membershipEpoch
    membershipVerified := keystone
    signingKeyFingerprint := signer
    operatorCredentialFingerprint := operator
    operatorCredentialAlg := if keystone then some config.operatorCredAlg else none
    operatorRPID := if keystone then config.operatorRPID else ""
    operatorOrigin := if keystone then config.operatorOrigin else ""
    startedAt := now.text }

/-- The state that `persistPendingApply` saves: an exact retry keeps the record it has. -/
def intentState (config : Config) (prev : State) (manifest : ManifestInfo) (bundle : Bundle) (membershipEpoch : Int)
    (action : Action) (now : Stamp) : Except AgentError State := do
  let pending ← pendingApply runtime config manifest bundle membershipEpoch action now
  if prev.pendingApply.any (samePendingApply · pending) then .ok prev
  else
    .ok { prev with
      nodeID := config.nodeID
      pendingApply := some pending
      lastResult := .pending
      appliedAt := now.text
      health := "apply in progress; last-good retained" }

/-- The state that `recordSuccess` saves. -/
def successState (config : Config) (prev : State) (manifest : ManifestInfo) (signed : Bool) (membershipEpoch : Int)
    (action : Action) (policy : Bytes) (now : Stamp) : State where
  nodeID := config.nodeID
  lastCompiledAt := manifest.compiledAt
  lastChecksum := manifest.checksum
  lastResult := .ok
  lastAction := some action
  lastSigned := signed
  membershipEpoch := if prev.membershipEpoch > membershipEpoch then prev.membershipEpoch else membershipEpoch
  membershipVerified := config.operatorCredPEM ≠ [] || prev.membershipVerified || prev.membershipEpoch > 0
  appliedAt := now.text
  health := if action = .uninstall then "uninstalled" else "applied"
  agentVersionFloor := prev.agentVersionFloor
  pendingUpdate := prev.pendingUpdate
  abandonedAgentVersion := prev.abandonedAgentVersion
  abandonedReason := prev.abandonedReason
  activeTelemetryPolicy := policy

/-- The state that `recordFailure` saves. -/
def failureState (config : Config) (prev : State) (now : Stamp) : State where
  nodeID := if prev.nodeID = "" then config.nodeID else prev.nodeID
  lastCompiledAt := prev.lastCompiledAt
  lastChecksum := prev.lastChecksum
  lastResult := .error
  lastAction := prev.lastAction
  lastSigned := prev.lastSigned
  membershipEpoch := prev.membershipEpoch
  membershipVerified := prev.membershipVerified || prev.membershipEpoch > 0
  pendingApply := prev.pendingApply
  appliedAt := now.text
  health := "degraded: keeping last-good"
  agentVersionFloor := prev.agentVersionFloor
  pendingUpdate := prev.pendingUpdate
  abandonedAgentVersion := prev.abandonedAgentVersion
  abandonedReason := prev.abandonedReason
  activeTelemetryPolicy := prev.activeTelemetryPolicy

end

end Yaog.Agent
