import Yaog.Agent.Text

/-!
# Verification of a fetched bundle

The gates between a fetched bundle and `install.sh`: the names of its files, the checksums with their
signature, and the membership that the operator signed off the host.
-/

namespace Yaog.Agent

/-- A fetched bundle: the map from the names of its files to their contents. -/
structure Bundle where
  files : List (Bytes × Bytes)
  nodup : (files.map (·.1)).Nodup
  deriving DecidableEq

namespace Bundle

def get? (bundle : Bundle) (path : Bytes) : Option Bytes := bundle.files.lookup path

def has (bundle : Bundle) (path : Bytes) : Bool := (bundle.get? path).isSome

def paths (bundle : Bundle) : List Bytes := bundle.files.map (·.1)

end Bundle

def checksumsFile : Bytes := utf8 "checksums.sha256"
def installFile : Bytes := utf8 "install.sh"
def manifestFile : Bytes := utf8 "manifest.json"
def artifactsFile : Bytes := utf8 "artifacts.json"
def signatureFile : Bytes := utf8 "bundle.sig"
def signingKeyFile : Bytes := utf8 "signing-pubkey.pem"
def trustListFile : Bytes := utf8 "trustlist.json"
def trustListSigFile : Bytes := utf8 "trustlist.sig"

/-- `probepolicy.FileName` and `probepolicy.SuccessorFileName`. -/
def policyFile : Bytes := utf8 "telemetry.json"
def successorPolicyFile : Bytes := utf8 "telemetry-policy.json"

inductive Alg where
  | ed25519 | webAuthnES256 | webAuthnEdDSA
  | other (name : String)
  deriving DecidableEq, Repr

structure Member where
  nodeID : String
  wgPublicKey : String
  bundleSHA256 : String

structure TrustList where
  schemaVersion : Int
  tenant : String
  epoch : Int
  members : List Member

structure SignedTrustList where
  alg : Alg
  credentialID : String
  publicKey : String
  signature : String
  authenticatorData : String := ""
  clientDataJSON : String := ""

/-- The pinned credential, with its key as the parser of its algorithm returns it. -/
structure PinnedCredential where
  alg : Alg
  publicKey : Bytes
  rpID : String
  origin : String

/-- What the agent takes from the standard library: hashing, signatures, keys, JSON and Unicode. -/
structure Platform where
  sha256 : Bytes → Vector UInt8 32
  /-- `bundlesig.Verify` of a message, a signature and a key. -/
  verify : Bytes → Bytes → Bytes → Bool
  /-- `verifyAssertion` of an artifact, a pin and a challenge. -/
  verifyAssertion : SignedTrustList → PinnedCredential → Bytes → Bool
  parsePinnedPublicKey : Bytes → Option Bytes
  parseES256Pin : Bytes → Option Bytes
  decodeBase64 : Bytes → Option Bytes
  decodeBase64URL : String → Option Bytes
  decodeTrustList : Bytes → Option TrustList
  decodeSignedTrustList : Bytes → Option SignedTrustList
  encodeTrustList : TrustList → Bytes
  /-- `strings.ToLower`. -/
  toLower : Bytes → Bytes

def Platform.digest (platform : Platform) (content : Bytes) : Bytes := hexEncode (platform.sha256 content).toList

inductive VerifyError where
  | unsafePath (path : Bytes)
  | volumePath (path : Bytes)
  | notCanonical (path : Bytes)
  | sameDestination (prior path : Bytes)
  | conflictsWithChild (prior path : Bytes)
  | missing (path : Bytes)
  | noSeparator (line : Nat)
  | digestLength (line : Nat)
  | digestNotHex (line : Nat)
  | emptyPath (line : Nat)
  | duplicatePath (line : Nat) (path : Bytes)
  | listsNoFiles
  | twoPolicies
  | decodeSignature
  | publicKey
  | signatureInvalid
  | pinnedUnsigned
  | listedMissing (path : Bytes)
  | checksumMismatch (path : Bytes)
  | notCovered (path : Bytes)
  | parseTrustList
  | parseSignedTrustList
  | duplicateMember (nodeID : String)
  | trustListNotCanonical
  | unsupportedAlg
  | parseCredential
  | algMismatch
  | trustListSignature
  | notMember (nodeID : String)
  | noBundleDigest (nodeID : String)
  | bundleDigest
  | emptyPeerKey (path : Bytes)
  | peerNotMember (key : Bytes)
  | epochRollback (epoch floor : Int)
  deriving DecidableEq, Repr

def refuseIf (condition : Prop) [Decidable condition] (reason : VerifyError) : Except VerifyError Unit :=
  if condition then .error reason else .ok ()

section

variable (platform : Platform)

def isLetter (byte : UInt8) : Bool := (65 ≤ byte && byte ≤ 90) || (97 ≤ byte && byte ≤ 122)

def volumeQualified : Bytes → Bool
  | letter :: 58 :: _ => isLetter letter
  | _ => false

def validateCanonicalBundlePath (path : Bytes) : Except VerifyError Unit :=
  let clean := pathClean path
  if path = [] ∨ 0 ∈ path ∨ 92 ∈ path then .error (.unsafePath path)
  else if volumeQualified path then .error (.volumePath path)
  else if isAbs path ∨ clean = dot ∨ clean = dotDot ∨ (utf8 "../").isPrefixOf clean ∨ clean ≠ path then
    .error (.notCanonical path)
  else .ok ()

/-- The first loop of `validateBundlePaths`: the destinations seen so far, each with its name. -/
def collectDestinations (seen : List (Bytes × Bytes)) : List Bytes → Except VerifyError (List (Bytes × Bytes))
  | [] => .ok seen
  | path :: rest => do
      validateCanonicalBundlePath path
      let normalized := platform.toLower (pathClean path)
      match seen.lookup normalized with
      | some prior => .error (.sameDestination prior path)
      | none => collectDestinations (seen ++ [(normalized, path)]) rest

def parentsOf : Nat → Bytes → List Bytes
  | 0, _ => []
  | fuel + 1, path => if pathDir path = dot then [] else pathDir path :: parentsOf fuel (pathDir path)

def checkParents (seen : List (Bytes × Bytes)) : List (Bytes × Bytes) → Except VerifyError Unit
  | [] => .ok ()
  | (normalized, path) :: rest =>
    match (parentsOf normalized.length normalized).findSome? fun parent => seen.lookup parent with
    | some prior => .error (.conflictsWithChild prior path)
    | none => checkParents seen rest

/-- `validateBundlePaths`, which `PreflightBundleMaterialization` runs. -/
def validateBundlePaths (bundle : Bundle) : Except VerifyError (List Bytes) := do
  let seen ← collectDestinations platform [] bundle.paths
  checkParents seen seen
  .ok (bundle.paths.mergeSort fun first second => decide (first ≤ second))

/-- One line of `checksums.sha256`. -/
def parseLine (number : Nat) (listed : List (Bytes × Bytes)) (line : Bytes) :
    Except VerifyError (Bytes × Bytes) :=
  match cutAt (utf8 "  ") line with
  | none => .error (.noSeparator number)
  | some (hexSum, path) =>
    if hexSum.length ≠ 64 then .error (.digestLength number)
    else if !hexSum.all isHexDigit then .error (.digestNotHex number)
    else if path = [] then .error (.emptyPath number)
    else if (listed.lookup path).isSome then .error (.duplicatePath number path)
    else .ok (path, hexSum.map lowerASCII)

def parseLines (number : Nat) (listed : List (Bytes × Bytes)) :
    List Bytes → Except VerifyError (List (Bytes × Bytes))
  | [] => .ok listed
  | [] :: rest => parseLines (number + 1) listed rest
  | line :: rest => do
      let entry ← parseLine number listed line
      parseLines (number + 1) (listed ++ [entry]) rest

/-- `parseChecksums`: the listed paths with their digests. -/
def parseChecksums (data : Bytes) : Except VerifyError (List (Bytes × Bytes)) := do
  let listed ← parseLines 1 [] (data.splitOn 10)
  if listed = [] then .error .listsNoFiles else .ok listed

structure VerifyResult where
  signed : Bool
  fileCount : Nat
  deriving DecidableEq, Repr

def verifySignature (bundle : Bundle) (checksums pinnedPubPEM : Bytes) : Except VerifyError Bool :=
  match bundle.get? signatureFile, bundle.get? signingKeyFile with
  | some signature, some bundlePubPEM =>
    match platform.decodeBase64 (trimBytes signature) with
    | none => .error .decodeSignature
    | some raw =>
      match platform.parsePinnedPublicKey (if pinnedPubPEM ≠ [] then pinnedPubPEM else bundlePubPEM) with
      | none => .error .publicKey
      | some key => if platform.verify checksums raw key then .ok true else .error .signatureInvalid
  | _, _ => if pinnedPubPEM ≠ [] then .error .pinnedUnsigned else .ok false

def verifyFiles (bundle : Bundle) : List (Bytes × Bytes) → Except VerifyError Unit
  | [] => .ok ()
  | (path, want) :: rest =>
    match bundle.get? path with
    | none => .error (.listedMissing path)
    | some content =>
      if platform.digest content ≠ want then .error (.checksumMismatch path) else verifyFiles bundle rest

def requireCovered (bundle : Bundle) (listed : List (Bytes × Bytes)) (path : Bytes) : Except VerifyError Unit :=
  refuseIf (bundle.has path ∧ ¬(listed.lookup path).isSome) (.notCovered path)

def verifyBundle (bundle : Bundle) (pinnedPubPEM : Bytes) : Except VerifyError VerifyResult :=
  match bundle.get? checksumsFile with
  | none => .error (.missing checksumsFile)
  | some checksums => do
      let listed ← parseChecksums checksums
      refuseIf (bundle.has policyFile ∧ bundle.has successorPolicyFile) .twoPolicies
      let signed ← verifySignature platform bundle checksums pinnedPubPEM
      verifyFiles platform bundle listed
      refuseIf (¬bundle.has installFile) (.missing installFile)
      refuseIf (¬(listed.lookup installFile).isSome) (.notCovered installFile)
      requireCovered bundle listed artifactsFile
      requireCovered bundle listed policyFile
      requireCovered bundle listed successorPolicyFile
      .ok { signed, fileCount := listed.length }

/-- `trustlist.Canonical`. -/
def canonical (list : TrustList) : Except VerifyError Bytes :=
  let members := list.members.mergeSort fun first second => decide (first.nodeID ≤ second.nodeID)
  match (members.zip members.tail).find? fun (first, second) => first.nodeID = second.nodeID with
  | some (first, _) => .error (.duplicateMember first.nodeID)
  | none => .ok (platform.encodeTrustList { list with members })

/-- `trustlist.Verify`: dispatch is on the pinned algorithm. -/
def verifyTrustList (list : TrustList) (artifact : SignedTrustList) (pin : PinnedCredential) :
    Except VerifyError Unit :=
  if artifact.alg ≠ pin.alg then .error .algMismatch
  else
    match pin.alg with
    | .ed25519 => do
        let content ← canonical platform list
        match platform.decodeBase64URL artifact.signature with
        | none => .error .trustListSignature
        | some raw => if platform.verify content raw pin.publicKey then .ok () else .error .trustListSignature
    | .webAuthnES256 | .webAuthnEdDSA => do
        let content ← canonical platform list
        if platform.verifyAssertion artifact pin (platform.sha256 content).toList then .ok ()
        else .error .trustListSignature
    | .other _ => .error .unsupportedAlg

structure MembershipConfig where
  nodeID : String
  operatorCredPEM : Bytes
  operatorCredAlg : Alg
  operatorRPID : String
  operatorOrigin : String

def pinnedCredential (config : MembershipConfig) : Except VerifyError PinnedCredential := do
  let publicKey ←
    match config.operatorCredAlg with
    | .ed25519 | .webAuthnEdDSA =>
      match platform.parsePinnedPublicKey config.operatorCredPEM with
      | some key => Except.ok key
      | none => .error .parseCredential
    | .webAuthnES256 =>
      match platform.parseES256Pin config.operatorCredPEM with
      | some key => .ok key
      | none => .error .parseCredential
    | .other _ => .error .unsupportedAlg
  .ok { alg := config.operatorCredAlg, publicKey, rpID := config.operatorRPID, origin := config.operatorOrigin }

def peerKeys (path : Bytes) (inPeer : Bool) : List Bytes → Except VerifyError (List Bytes)
  | [] => .ok []
  | raw :: rest =>
    let line := trimBytes raw
    if line = [] ∨ line.head? = some 35 then peerKeys path inPeer rest
    else if line.head? = some 91 ∧ line.getLast? = some 93 then peerKeys path (equalFold line (utf8 "[Peer]")) rest
    else if !inPeer then peerKeys path inPeer rest
    else
      match cutAt [61] line with
      | none => peerKeys path inPeer rest
      | some (key, value) =>
        if !equalFold (trimBytes key) (utf8 "PublicKey") then peerKeys path inPeer rest
        else if trimBytes value = [] then .error (.emptyPeerKey path)
        else (peerKeys path inPeer rest).map (trimBytes value :: ·)

def isPeerConfig (path : Bytes) : Bool :=
  (utf8 "wireguard/").isPrefixOf path && (utf8 ".conf").isSuffixOf path

/-- `collectBundlePeerKeys`. -/
def collectBundlePeerKeys : List (Bytes × Bytes) → Except VerifyError (List Bytes)
  | [] => .ok []
  | (path, content) :: rest => do
      let keys ← if isPeerConfig path then peerKeys path false (content.splitOn 10) else .ok []
      let later ← collectBundlePeerKeys rest
      .ok (keys ++ later)

def boundDigest (list : TrustList) (nodeID : String) : Except VerifyError Bytes :=
  match list.members.reverse.find? (·.nodeID = nodeID) with
  | none => .error (.notMember nodeID)
  | some self => if self.bundleSHA256 = "" then .error (.noBundleDigest nodeID) else .ok (utf8 self.bundleSHA256)

def requirePeersSigned (list : TrustList) : List Bytes → Except VerifyError Unit
  | [] => .ok ()
  | key :: rest =>
    if list.members.any fun member => member.wgPublicKey ≠ "" && utf8 member.wgPublicKey = key then
      requirePeersSigned list rest
    else .error (.peerNotMember key)

def requireFile (bundle : Bundle) (path : Bytes) : Except VerifyError Bytes :=
  match bundle.get? path with
  | none => .error (.missing path)
  | some content => .ok content

def decodeOr {α : Type} (decoded : Option α) (reason : VerifyError) : Except VerifyError α :=
  match decoded with
  | none => .error reason
  | some value => .ok value

def verifyMembership (bundle : Bundle) (config : MembershipConfig) (prevEpoch : Int) : Except VerifyError Int :=
  if config.operatorCredPEM = [] then .ok 0
  else do
    let trustListJSON ← requireFile bundle trustListFile
    let signatureJSON ← requireFile bundle trustListSigFile
    let checksums ← requireFile bundle checksumsFile
    let list ← decodeOr (platform.decodeTrustList trustListJSON) .parseTrustList
    let signed ← decodeOr (platform.decodeSignedTrustList signatureJSON) .parseSignedTrustList
    let content ← canonical platform list
    refuseIf (content ≠ trustListJSON) .trustListNotCanonical
    let pin ← pinnedCredential platform config
    verifyTrustList platform list signed pin
    let bound ← boundDigest list config.nodeID
    refuseIf (¬equalFold bound (platform.digest checksums)) .bundleDigest
    let keys ← collectBundlePeerKeys bundle.files
    requirePeersSigned list keys
    refuseIf (list.epoch < prevEpoch) (.epochRollback list.epoch prevEpoch)
    .ok list.epoch

end

end Yaog.Agent
