import Yaog.Controller.Keystone
import Yaog.Controller.Subgraph

/-!
# Staging, signing and promoting a deployment

The controller's operations over the store, each under the operation lock of its tenant.
-/

namespace Yaog.Controller

open Compiler Data Validator Durable

/-- What a stage calls: the compiler's surroundings, what happens to the design before it is compiled,
the signing key, and the renderers with the export. -/
structure StageEnv where
  tenant : String := ""
  externals : Externals
  mimicFallbackDefault : MimicFallback := .inherit
  /-- The key pairs of the nodes, held by the agents. -/
  keys : Topology → Keys
  /-- `HealCollidingPins`. -/
  heal : Topology → Topology
  /-- `PrepareTelemetryPolicyDeployment`. -/
  deployment : Topology → List RegistryNode → Except String Topology
  /-- `LoadConfigSignerFromEnv`: the public key of the configured signer. -/
  signer : Except String (Option String)
  /-- `RotateRequested`. -/
  rotate : Bool := false
  /-- Some node carries a telemetry probe. -/
  probes : CompileResult → Bool
  /-- The exported files of one node. -/
  bundleFiles : CompileResult → String → Except String (Records String)

structure StageConfig where
  forceAll : Bool := false
  forceNodes : List String := []

def StageConfig.forced (config : StageConfig) (nodeID : String) : Bool :=
  config.forceAll || nodeID ∈ config.forceNodes

inductive DeployError where
  | keystone (reason : KeystoneError)
  | store (reason : StoreError)
  | replace (reason : StoreError)
  | deployment (detail : String)
  | manualNode (reason : ManualNodeInvalid)
  | signer (detail : String)
  | compile (reason : CompileError)
  | probesRequireKeystone
  | credential
  | exporting (nodeID detail : String)
  | noChecksums (nodeID : String)
  | signingKeyMissing
  | signingKeyMismatch
  | noManifest
  | unsigned
  | notVerified
  | noPinnedCredential
  | noStagedManifest
  | stagedManifestMismatch
  | signatureInvalid

structure StageResult where
  staged : List String := []
  unchanged : List String := []
  skippedUnenrolled : List String := []
  generation : Nat := 0

section

variable (crypto : Crypto)

def membership (members : List Member) : Records (String × String) :=
  members.foldl (fun known member => known.insert member.nodeID (member.wgPublicKey, member.bundleSHA256)) ∅

/-- `buildStagedManifest`. The members arrive by node, so their list is the canonical one. The epoch is
the last one's for the same membership and the next one otherwise. -/
def buildStagedManifest (tenant : String) (store : Store) (members : Records Member) : StoredTrustList :=
  let list := members.toList.map (·.2)
  let epoch :=
    match store.getLastStagedTrustList with
    | none => 0
    | some prior =>
      if membership list = membership prior.trustList.members then prior.epoch else prior.epoch + 1
  { trustList := { tenant, epoch, members := list }, epoch }

/-- `verifyStoredAgainstPin`: the stored signature, if it is there, verifies under the credential. -/
def verifiesAgainst (stored : StoredTrustList) (cred : OperatorCredential) : Bool :=
  crypto.pinParses cred && stored.signature.any fun signed => crypto.verify stored.trustList signed cred

/-- `KeystoneRedeployRequired`. A credential that does not parse is a fault. -/
def keystoneRedeployRequired (store : Store) (cred : OperatorCredential) : Except DeployError Bool :=
  match store.getServedTrustList with
  | .error .notFound => .ok false
  | .error reason => .error (.store reason)
  | .ok stored =>
    if stored.signature.isNone then .ok false
    else if !crypto.pinParses cred then .error .credential
    else .ok (!verifiesAgainst crypto stored cred)

/-- `stageSkipEnabled`: unchanged nodes are left out unless the served manifest has to be replaced. -/
def stageSkipEnabled (store : Store) : Except DeployError Bool :=
  match store.operatorCred with
  | none => .ok true
  | some cred =>
    match store.getServedTrustList with
    | .error .notFound => .ok false
    | .error reason => .error (.store reason)
    | .ok _ => (keystoneRedeployRequired crypto store cred).map (!·)

/-- `servedBundleDigest`. -/
def servedBundleDigest (store : Store) (nodeID : String) : Option String :=
  (store.current[nodeID]?.bind fun bundle => bundle.files["checksums.sha256"]?).map crypto.bundleSHA256

/-- What becomes of one node: its member entry, and its bundle unless it is unchanged. -/
structure StagedNode where
  member : Member
  bundle : Option SignedBundle

def stageNode (env : StageEnv) (config : StageConfig) (store : Store) (result : CompileResult)
    (skipEnabled : Bool) (node : Node) : Except DeployError StagedNode :=
  match env.bundleFiles result node.id with
  | .error detail => .error (.exporting node.id detail)
  | .ok files =>
    let checksums := files["checksums.sha256"]?
    if store.operatorCred.isSome && checksums.isNone then .error (.noChecksums node.id)
    else
      let newDigest := (checksums.map crypto.bundleSHA256).getD ""
      let member : Member :=
        { nodeID := node.id, wgPublicKey := node.wireGuardPublicKey, bundleSHA256 := newDigest }
      if skipEnabled && !config.forced node.id && newDigest ≠ "" &&
          servedBundleDigest crypto store node.id = some newDigest then
        .ok { member, bundle := none }
      else .ok
        { member
          bundle := some { nodeID := node.id, generation := store.generation + 1, files, isStaged := true } }

def stageNodes (env : StageEnv) (config : StageConfig) (store : Store) (result : CompileResult)
    (skipEnabled : Bool) : List Node → Except DeployError (List StagedNode)
  | [] => .ok []
  | node :: rest => do
      let staged ← stageNode crypto env config store result skipEnabled node
      let others ← stageNodes env config store result skipEnabled rest
      .ok (staged :: others)

def stagedBundles (nodes : List StagedNode) : List SignedBundle := nodes.filterMap (·.bundle)

def unchangedIDs (nodes : List StagedNode) : List String :=
  (nodes.filter fun node => node.bundle.isNone).map (·.member.nodeID)

def stagedMembers (nodes : List StagedNode) : Records Member :=
  nodes.foldl (fun known node => known.insert node.member.nodeID node.member) ∅

def stagedSet (tenant : String) (store : Store) (nodes : List StagedNode) : StagedSet :=
  { generation := store.generation + 1, bundles := stagedBundles nodes
    trustList :=
      if store.operatorCred.isSome then some (buildStagedManifest tenant store (stagedMembers nodes)) else none }

/-- `appendStageAudit`: best effort. -/
def appendStageAudit (action nodeID : String) : Durable Store DeployError Unit :=
  tryWrite (Store.appendAudit { actor := "operator", action, nodeID })

def notePurged (purged : List String) : Durable Store DeployError Unit :=
  purged.forM fun nodeID => appendStageAudit "purge-staged" nodeID

def purgedBy : Except ReplaceError (List String) → List String
  | .ok purged => purged
  | .error failure => failure.purged

def replaceNoting (set : StagedSet) : Durable Store DeployError Unit := do
  let result ← observe (replaceStagedSet crypto set)
  notePurged (purgedBy result)
  lift ((result.mapError fun failure => .replace failure.reason).map fun _ => ())

/-- `persistAllocations`: an identical design is not written. -/
def storeAllocations (full compiled : Topology) : Durable Store DeployError Unit := do
  let store ← read
  let persisted := Controller.persistAllocations full compiled
  if store.topology = some persisted then pure ()
  else write (fun store => { store with topology := some persisted }) (.store .storage)

/-- `enforceSigningAnchorWithSigner`. -/
def enforceSigningAnchor (signer : Option String) (rotate : Bool) : Durable Store DeployError Unit := do
  let store ← read
  match store.signingAnchor, signer with
  | none, none => pure ()
  | none, some key => do
      write (fun store => { store with signingAnchor := some key }) (.store .storage)
      appendStageAudit "signing-anchor-pin" ""
  | some _, none => fail .signingKeyMissing
  | some anchor, some key =>
    if key = anchor then pure ()
    else if rotate then do
      write (fun store => { store with signingAnchor := some key }) (.store .storage)
      appendStageAudit "signing-anchor-rotate" ""
    else fail .signingKeyMismatch

def publishStage (tenant : String) (store : Store) (skipped : List String) (nodes : List StagedNode) :
    Durable Store DeployError StageResult := do
  if stagedBundles nodes = [] then do
    replaceNoting crypto {}
    appendStageAudit "stage-unchanged" ""
    pure { unchanged := unchangedIDs nodes, skippedUnenrolled := skipped, generation := store.generation }
  else do
    replaceNoting crypto (stagedSet tenant store nodes)
    appendStageAudit "stage" ""
    pure
      { staged := (stagedBundles nodes).map (·.nodeID), unchanged := unchangedIDs nodes
        skippedUnenrolled := skipped, generation := store.generation + 1 }

def stageReady (env : StageEnv) (config : StageConfig) (full deployment subgraph : Topology)
    (skipped : List String) : Durable Store DeployError StageResult := do
  let signer ← lift (env.signer.mapError .signer)
  let result ← lift ((compileSubgraph env.externals env.mimicFallbackDefault (env.keys subgraph) deployment
    subgraph).mapError .compile)
  let store ← read
  require (store.operatorCred.isSome ∨ env.probes result = false) .probesRequireKeystone
  let skipEnabled ← lift (stageSkipEnabled crypto store)
  storeAllocations full result.topology
  enforceSigningAnchor signer env.rotate
  let store ← read
  let nodes ← lift (stageNodes crypto env config store result skipEnabled subgraph.nodes)
  publishStage crypto env.tenant store skipped nodes

def stageEmpty (skipped : List String) : Durable Store DeployError StageResult := do
  let purged ← mapFail (fun failure => .replace failure.reason) (replaceStagedSet crypto {})
  notePurged purged
  appendStageAudit "stage-empty" ""
  pure { skippedUnenrolled := skipped }

/-- `CompileAndStage`. -/
def compileAndStage (env : StageEnv) (config : StageConfig) : Durable Store DeployError StageResult := do
  mapFail .keystone reconcilePendingKeystoneTransition
  let store ← read
  match store.topology with
  | none => pure {}
  | some stored => do
      let full := env.heal stored
      let nodes := store.nodes.toList.map (·.2)
      let deployment ← lift ((env.deployment full nodes).mapError .deployment)
      let (subgraph, skipped) ← lift ((projectEnrolledSubgraph deployment nodes).mapError .manualNode)
      if subgraph.nodes = [] then stageEmpty crypto skipped
      else stageReady crypto env config full deployment subgraph skipped

/-- `InstallTrustListSignature`: the signature must be over exactly the staged bytes. -/
def installTrustListSignature (submitted : TrustList) (signed : SignedTrustList) :
    Durable Store DeployError Nat := do
  mapFail .keystone reconcilePendingKeystoneTransition
  let store ← read
  match store.operatorCred with
  | none => fail .noPinnedCredential
  | some cred => do
      let stored ← lift ((store.getCurrentSignedTrustList crypto).mapError fun reason =>
        if reason = .notFound then .noStagedManifest else .store reason)
      require (submitted = stored.trustList) .stagedManifestMismatch
      require (crypto.pinParses cred = true) .credential
      require (crypto.verify stored.trustList signed cred = true) .signatureInvalid
      mapFail .store (putSignedTrustList crypto
        { trustList := stored.trustList, signature := some signed, epoch := stored.epoch })
      pure stored.epoch

def promoteGate (store : Store) (cred : OperatorCredential) : Except DeployError Unit :=
  match store.getCurrentSignedTrustList crypto with
  | .error .notFound => .error .noManifest
  | .error reason => .error (.store reason)
  | .ok stored =>
    if stored.signature.isNone then .error .unsigned
    else if verifiesAgainst crypto stored cred then .ok ()
    else .error .notVerified

/-- `PromoteStaged` of the controller. -/
def promoteStaged : Durable Store DeployError Nat := do
  mapFail .keystone reconcilePendingKeystoneTransition
  let store ← read
  lift (match store.operatorCred with
    | none => .ok ()
    | some cred => promoteGate crypto store cred)
  mapFail .store (promoteSealed crypto)

end

end Yaog.Controller
