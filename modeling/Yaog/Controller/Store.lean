import Yaog.Controller.Registry
import Yaog.Data.Durable

/-!
# The records of a tenant

The store keeps what is staged, what is current and what was sealed as separate records. A promotion
writes several of them and commits by the generation counter, so every reader and every writer has to
cope with records ahead of that counter. Records are read back as they were written: no record is
unreadable.
-/

namespace Yaog.Controller

open Data

/-- A collection of records, listed in key order. -/
abbrev Records (α : Type) := Std.ExtTreeMap String α

structure SignedBundle where
  nodeID : String
  generation : Nat
  files : Records String := ∅
  isStaged : Bool := false
  isCurrent : Bool := false

structure Member where
  nodeID : String
  wgPublicKey : String
  bundleSHA256 : String
  deriving DecidableEq, Repr

/-- The membership manifest. -/
structure TrustList where
  schemaVersion : Nat := 1
  tenant : String := ""
  epoch : Nat
  members : List Member
  deriving DecidableEq, Repr

/-- The detached off-host signature, as it is marshalled. -/
structure SignedTrustList where
  alg : String
  credentialID : String
  publicKey : String
  signature : String

/-- A manifest at rest. The canonical bytes are represented by the manifest they encode and an empty
signature by its absence. -/
structure StoredTrustList where
  trustList : TrustList
  signature : Option SignedTrustList := none
  epoch : Nat
  promotedGeneration : Nat := 0

structure StagedSetSeal where
  generation : Nat
  nodeIDs : List String := []
  historical : Bool := false
  hasTrustList : Bool := false
  trustListSHA256 : String := ""
  trustListEpoch : Nat := 0

structure OperatorCredential where
  alg : String
  credentialID : String := ""
  publicKeyPEM : String
  rpid : String := ""
  origin : String := ""
  deriving DecidableEq, Repr

/-- An audit record without its place in the hash chain. The zero timestamp is 0. -/
structure AuditEntry where
  timestamp : Nat := 0
  actor : String
  action : String
  nodeID : String := ""
  eventID : String := ""
  deriving DecidableEq, Repr

def auditRetain : Nat := 10000
def auditRotateAt : Nat := 12000

/-- What an append leaves of the log: past the mark only the newest entries. -/
def trimAudit (entries : List AuditEntry) : List AuditEntry :=
  if auditRotateAt < entries.length then entries.drop (entries.length - auditRetain) else entries

/-- The audit log of a tenant: the entries that are listed, and all that were ever appended, which nothing
reads. -/
structure AuditTrail where
  entries : List AuditEntry
  history : List AuditEntry
  suffix : entries <:+ history
  newest : min history.length auditRetain ≤ entries.length

instance : EmptyCollection AuditTrail := ⟨[], [], List.suffix_refl [], Nat.zero_le _⟩

theorem trimAudit_suffix (entries : List AuditEntry) : trimAudit entries <:+ entries := by
  unfold trimAudit
  split
  · exact List.drop_suffix _ _
  · exact List.suffix_refl _

theorem trimAudit_length (entries : List AuditEntry) : min entries.length auditRetain ≤ (trimAudit entries).length := by
  unfold trimAudit
  split
  · rw [List.length_drop]
    omega
  · exact Nat.min_le_left _ _

def AuditTrail.append (trail : AuditTrail) (entry : AuditEntry) : AuditTrail where
  entries := trimAudit (trail.entries ++ [entry])
  history := trail.history ++ [entry]
  suffix := (trimAudit_suffix _).trans (List.suffix_append_self_iff.mpr trail.suffix)
  newest := by
    have kept := trail.newest
    have trimmed := trimAudit_length (trail.entries ++ [entry])
    simp only [List.length_append, List.length_singleton] at trimmed ⊢
    omega

structure PendingKeystoneTransition where
  expected : Option OperatorCredential
  next : OperatorCredential
  audit : AuditEntry
  deriving DecidableEq, Repr

structure StagedSet where
  generation : Nat := 0
  bundles : List SignedBundle := []
  trustList : Option StoredTrustList := none

structure ServedConfig where
  bundle : SignedBundle
  keystoneOn : Bool
  trustList : Option StoredTrustList

/-- The records of one tenant. `draws` counts the event identifiers drawn so far. -/
structure Store where
  generation : Nat := 0
  staged : Records SignedBundle := ∅
  current : Records SignedBundle := ∅
  stagedSeal : Option StagedSetSeal := none
  stagedTL : Option StoredTrustList := none
  stagedTLHist : Option StoredTrustList := none
  servedTL : Option StoredTrustList := none
  operatorCred : Option OperatorCredential := none
  keystoneTransition : Option PendingKeystoneTransition := none
  audit : AuditTrail := ∅
  nodes : Records RegistryNode := ∅
  topology : Option Topology := none
  signingAnchor : Option String := none
  draws : Nat := 0

inductive StoreError where
  | notFound
  | noStagedBundle
  | incompleteStagedSet (reason : String)
  | uncommittedBundle (nodeID : String) (generation committed : Nat)
  | uncommittedTrustList (generation committed : Nat)
  | currentKey (key nodeID : String)
  | stagedKey (key nodeID : String)
  | nonPositiveGeneration
  | manifestWithoutBundles
  | bundleGeneration (nodeID : String) (generation want : Nat)
  | duplicateBundle (nodeID : String)
  | staleSet (generation current : Nat)
  | storage
  deriving DecidableEq, Repr

/-- The cryptography the controller calls. -/
structure Crypto where
  /-- The hex digest of the canonical manifest. -/
  trustListSHA256 : TrustList → String
  trustListSHA256_ne : ∀ list, trustListSHA256 list ≠ ""
  /-- The hex digest of a `checksums.sha256`. -/
  bundleSHA256 : String → String
  /-- The credential's public key parses under its algorithm. -/
  pinParses : OperatorCredential → Bool
  verify : TrustList → SignedTrustList → OperatorCredential → Bool

def currentFault (committed : Nat) (entry : String × SignedBundle) : Option StoreError :=
  if entry.2.nodeID ≠ entry.1 then some (.currentKey entry.1 entry.2.nodeID)
  else if committed < entry.2.generation then
    some (.uncommittedBundle entry.1 entry.2.generation committed)
  else none

def StagedSetSeal.check (mark : StagedSetSeal) : Except StoreError Unit :=
  if mark.generation = 0 then .error (.incompleteStagedSet "seal has a non-positive generation")
  else if ¬mark.nodeIDs.Pairwise fun first second => (compare first second).isLE then
    .error (.incompleteStagedSet "seal node ids are not canonical")
  else if mark.historical = true ∧ (mark.nodeIDs ≠ [] ∨ mark.hasTrustList = false) then
    .error (.incompleteStagedSet "historical seal must contain only a trust-list")
  else if "" ∈ mark.nodeIDs ∨ ¬mark.nodeIDs.Nodup then
    .error (.incompleteStagedSet "seal contains an empty or duplicate node id")
  else if mark.hasTrustList = decide (mark.trustListSHA256 = "") then
    .error (.incompleteStagedSet "seal trust-list fields are inconsistent")
  else .ok ()

namespace Store

variable (store : Store)

def requireCompletedPromotion : Except StoreError Unit :=
  match store.current.toList.findSome? (currentFault store.generation) with
  | some reason => .error reason
  | none =>
    match store.servedTL with
    | none => .ok ()
    | some served =>
      if store.generation < served.promotedGeneration then
        .error (.uncommittedTrustList served.promotedGeneration store.generation)
      else .ok ()

def stagedBundlesForGeneration (generation : Nat) : Except StoreError (List (String × SignedBundle)) :=
  match store.staged.toList.find? fun entry => entry.2.nodeID ≠ entry.1 with
  | some entry => .error (.stagedKey entry.1 entry.2.nodeID)
  | none => .ok (store.staged.toList.filter fun entry => entry.2.generation = generation)

def loadSeal : Except StoreError StagedSetSeal :=
  match store.stagedSeal with
  | none => .error .notFound
  | some mark => mark.check.map fun _ => mark

end Store

section

variable (crypto : Crypto)

def StagedSetSeal.Names (mark : StagedSetSeal) (list : StoredTrustList) : Prop :=
  list.epoch = mark.trustListEpoch ∧ crypto.trustListSHA256 list.trustList = mark.trustListSHA256

instance (mark : StagedSetSeal) (list : StoredTrustList) : Decidable (mark.Names crypto list) :=
  inferInstanceAs (Decidable (_ ∧ _))

def Store.loadSealedTrustList (store : Store) (mark : StagedSetSeal) :
    Except StoreError (Option StoredTrustList) :=
  if mark.hasTrustList then
    match store.stagedTL with
    | none => .error (.incompleteStagedSet "sealed trust-list record is absent")
    | some list =>
      if mark.Names crypto list then .ok (some list)
      else .error (.incompleteStagedSet "staged trust-list bytes or epoch do not match the seal")
  else .ok none

def Store.getCurrentSignedTrustList (store : Store) : Except StoreError StoredTrustList := do
  let mark ← store.loadSeal
  match ← store.loadSealedTrustList crypto mark with
  | some list => .ok list
  | none => .error .notFound

def Store.getLastStagedTrustList (store : Store) : Option StoredTrustList :=
  store.stagedTLHist <|> store.stagedTL <|> store.servedTL

def Store.getServedTrustList (store : Store) : Except StoreError StoredTrustList :=
  match store.servedTL with
  | none => .error .notFound
  | some list =>
    if store.generation < list.promotedGeneration then
      .error (.uncommittedTrustList list.promotedGeneration store.generation)
    else .ok list

def Store.getServedConfig (store : Store) (nodeID : String) : Except StoreError ServedConfig :=
  match store.current[nodeID]? with
  | none => .error .notFound
  | some bundle =>
    if store.generation < bundle.generation then
      .error (.uncommittedBundle nodeID bundle.generation store.generation)
    else if store.operatorCred.isNone then .ok { bundle, keystoneOn := false, trustList := none }
    else
      match store.servedTL with
      | none => .ok { bundle, keystoneOn := true, trustList := none }
      | some list =>
        if store.generation < list.promotedGeneration then
          .error (.uncommittedTrustList list.promotedGeneration store.generation)
        else .ok
          { bundle, keystoneOn := true
            trustList := if list.signature.isSome then some list else none }

def candidateSeal (generation : Nat) (nodeIDs : List String) : Option StoredTrustList → StagedSetSeal
  | none => { generation, nodeIDs }
  | some list =>
    { generation, nodeIDs, hasTrustList := true
      trustListSHA256 := crypto.trustListSHA256 list.trustList, trustListEpoch := list.epoch }

def historicalSeal (generation : Nat) (list : StoredTrustList) : StagedSetSeal :=
  { generation, historical := true, hasTrustList := true
    trustListSHA256 := crypto.trustListSHA256 list.trustList, trustListEpoch := list.epoch }

end

namespace Store

def putStaged (bundle : SignedBundle) (store : Store) : Store :=
  { store with staged := store.staged.insert bundle.nodeID bundle }

def delStaged (nodeID : String) (store : Store) : Store :=
  { store with staged := store.staged.erase nodeID }

def putCurrent (bundle : SignedBundle) (store : Store) : Store :=
  { store with current := store.current.insert bundle.nodeID bundle }

def putNode (nodeID : String) (node : RegistryNode) (store : Store) : Store :=
  { store with nodes := store.nodes.insert nodeID node }

def putSeal (mark : Option StagedSetSeal) (store : Store) : Store := { store with stagedSeal := mark }

def putStagedTL (list : Option StoredTrustList) (store : Store) : Store := { store with stagedTL := list }

def putHistory (list : StoredTrustList) (store : Store) : Store := { store with stagedTLHist := some list }

def putServed (list : StoredTrustList) (store : Store) : Store := { store with servedTL := some list }

def setGeneration (generation : Nat) (store : Store) : Store := { store with generation }

def appendAudit (entry : AuditEntry) (store : Store) : Store :=
  { store with audit := store.audit.append entry }

end Store

/-- A replacement that failed, with what it had already purged. -/
structure ReplaceError where
  reason : StoreError
  purged : List String

/-- `sort.Slice` by node identifier. -/
def sortBundles (bundles : List SignedBundle) : List SignedBundle :=
  bundles.insertionSort fun first second => (compare first.nodeID second.nodeID).isLE

/-- The loop over the candidate; `seen` holds the identifiers before. -/
def checkBundles (generation : Nat) : List String → List SignedBundle → Except StoreError Unit
  | _, [] => .ok ()
  | seen, bundle :: rest =>
    if bundle.nodeID = "" ∨ bundle.generation ≠ generation then
      .error (.bundleGeneration bundle.nodeID bundle.generation generation)
    else if bundle.nodeID ∈ seen then .error (.duplicateBundle bundle.nodeID)
    else checkBundles generation (bundle.nodeID :: seen) rest

def asStaged (bundle : SignedBundle) : SignedBundle := { bundle with isStaged := true, isCurrent := false }

def asCurrent (bundle : SignedBundle) : SignedBundle := { bundle with isStaged := false, isCurrent := true }

open Durable

/-- The prune loop of `ReplaceStagedSet`. -/
def pruneStaged : List String → List String → Durable Store ReplaceError (List String)
  | purged, [] => pure purged
  | purged, nodeID :: rest => do
      write (Store.delStaged nodeID) ⟨.storage, purged⟩
      pruneStaged (purged ++ [nodeID]) rest

section

variable (crypto : Crypto)

def saveSealForGeneration {ε : Type} (wrap : StoreError → ε) (generation : Nat)
    (list : Option StoredTrustList) (allowEmpty : Bool) : Durable Store ε Unit := do
  let store ← read
  let entries ← lift ((store.stagedBundlesForGeneration generation).mapError wrap)
  let nodeIDs := entries.map (·.1)
  if nodeIDs = [] ∧ (list = none ∨ allowEmpty = false) then pure ()
  else write (Store.putSeal (some (candidateSeal crypto generation nodeIDs list))) (wrap .storage)

def keepHistory (purged : List String) (empty : Bool) : Durable Store ReplaceError Unit := do
  let store ← read
  match empty, store.stagedTL with
  | true, some prior => write (Store.putHistory prior) ⟨.storage, purged⟩
  | _, _ => pure ()

def replaceManifest (purged : List String) (empty : Bool) :
    Option StoredTrustList → Durable Store ReplaceError Unit
  | none => do
      keepHistory purged empty
      write (Store.putStagedTL none) ⟨.storage, purged⟩
  | some list => do
      write (Store.putStagedTL (some list)) ⟨.storage, purged⟩
      write (Store.putHistory list) ⟨.storage, purged⟩

def sealHistory (purged : List String) : Durable Store ReplaceError Unit := do
  let store ← read
  match store.stagedTLHist with
  | none => pure ()
  | some history => do
      write (Store.putStagedTL (some history)) ⟨.storage, purged⟩
      write (Store.putSeal (some (historicalSeal crypto (max store.generation 1) history)))
        ⟨.storage, purged⟩

def sealCandidate (purged : List String) (set : StagedSet) (nodeIDs : List String) :
    Durable Store ReplaceError Unit := do
  saveSealForGeneration crypto (⟨·, purged⟩) set.generation set.trustList false
  let store ← read
  let mark ← lift (store.loadSeal.mapError (⟨·, purged⟩))
  if mark.nodeIDs = nodeIDs then pure ()
  else do
    tryWrite (Store.putSeal none)
    fail ⟨.incompleteStagedSet "sealed node set differs from the replacement candidate", purged⟩

def sealReplacement (purged : List String) (set : StagedSet) (nodeIDs : List String) :
    Durable Store ReplaceError Unit :=
  if nodeIDs = [] then sealHistory crypto purged else sealCandidate crypto purged set nodeIDs

/-- `ReplaceStagedSet`. -/
def replaceStagedSet (set : StagedSet) : Durable Store ReplaceError (List String) := do
  require (set.bundles = [] ∨ 0 < set.generation) ⟨.nonPositiveGeneration, []⟩
  require (set.bundles ≠ [] ∨ set.trustList = none) ⟨.manifestWithoutBundles, []⟩
  let bundles := sortBundles set.bundles
  let nodeIDs := bundles.map (·.nodeID)
  lift ((checkBundles set.generation [] bundles).mapError (⟨·, []⟩))
  let store ← read
  lift (store.requireCompletedPromotion.mapError (⟨·, []⟩))
  require (bundles = [] ∨ set.generation = store.generation + 1)
    ⟨.staleSet set.generation store.generation, []⟩
  write (Store.putSeal none) ⟨.storage, []⟩
  bundles.forM fun bundle => write (Store.putStaged (asStaged bundle)) ⟨.storage, []⟩
  let store ← read
  let purged ← pruneStaged [] (store.staged.keys.filter (· ∉ nodeIDs))
  replaceManifest purged (bundles = []) set.trustList
  sealReplacement crypto purged set nodeIDs
  pure purged

/-- `PutSignedTrustList`: a signature over the sealed bytes leaves the seal in place. -/
def putSignedTrustList (list : StoredTrustList) : Durable Store StoreError Unit := do
  let store ← read
  lift store.requireCompletedPromotion
  match store.loadSeal with
  | .ok mark =>
    if (mark.historical = true ∨ mark.generation = store.generation + 1) ∧ mark.hasTrustList = true ∧
        mark.Names crypto list then do
      write (Store.putHistory list) .storage
      write (Store.putStagedTL (some list)) .storage
    else replace store
  | .error _ => replace store
where
  replace (store : Store) : Durable Store StoreError Unit := do
    write (Store.putSeal none) .storage
    write (Store.putStagedTL (some list)) .storage
    write (Store.putHistory list) .storage
    saveSealForGeneration crypto id (store.generation + 1) (some list) true

def archiveManifest (newGen : Nat) : Option StoredTrustList → Durable Store StoreError Unit
  | some history => do
      write (Store.putHistory history) .storage
      write (Store.putStagedTL (some history)) .storage
      write (Store.putSeal (some (historicalSeal crypto newGen history))) .storage
  | none => write (Store.putStagedTL none) .storage

/-- `BumpGeneration`: a wake, which invalidates the candidate. -/
def bumpGeneration : Durable Store StoreError Nat := do
  let store ← read
  lift store.requireCompletedPromotion
  let newGen := store.generation + 1
  write (Store.putSeal none) .storage
  archiveManifest crypto newGen (store.stagedTLHist <|> store.stagedTL)
  write (Store.setGeneration newGen) .storage
  pure newGen

def Store.sealedCandidate (store : Store) :
    Except StoreError (List (String × SignedBundle) × Option StoredTrustList) :=
  match store.loadSeal with
  | .error .notFound =>
    if store.staged.isEmpty then .error .noStagedBundle
    else .error (.incompleteStagedSet "staged bundle records exist without a durable seal")
  | .error reason => .error reason
  | .ok mark =>
    if mark.generation ≠ store.generation + 1 then .error .noStagedBundle
    else if mark.historical = true ∨ mark.nodeIDs = [] then .error .noStagedBundle
    else
      match store.stagedBundlesForGeneration (store.generation + 1) with
      | .error _ => .error (.incompleteStagedSet "a staged bundle contains another node id")
      | .ok entries =>
        if entries.map (·.1) ≠ mark.nodeIDs then
          .error (.incompleteStagedSet "staged bundle records do not exactly match the sealed node set")
        else (store.loadSealedTrustList crypto mark).map fun list => (entries, list)

def promoteBundle (newGen : Nat) (bundle : SignedBundle) : Durable Store StoreError Unit := do
  write (Store.putCurrent (asCurrent bundle)) .storage
  let store ← read
  match store.nodes[bundle.nodeID]? with
  | some node => write (Store.putNode bundle.nodeID { node with desiredGeneration := newGen }) .storage
  | none => pure ()

def StoredTrustList.tagged (list : StoredTrustList) (newGen : Nat) : StoredTrustList :=
  if list.signature.isSome then { list with promotedGeneration := newGen } else list

def serveManifest (newGen : Nat) : Option StoredTrustList → Durable Store StoreError Unit
  | some list =>
    if list.signature.isSome then write (Store.putServed (list.tagged newGen)) .storage else pure ()
  | none => pure ()

def clearPromoted (newGen : Nat) (nodeIDs : List String) :
    Option StoredTrustList → Durable Store StoreError Unit
  | none => do
      nodeIDs.forM fun nodeID => tryWrite (Store.delStaged nodeID)
      tryWrite (Store.putSeal none)
      tryWrite (Store.putStagedTL none)
  | some list => do
      nodeIDs.forM fun nodeID => tryWrite (Store.delStaged nodeID)
      tryWrite (Store.putHistory (list.tagged newGen))
      tryWrite (Store.putSeal (some (historicalSeal crypto newGen list)))

/-- `PromoteStaged` of the store. -/
def promoteSealed : Durable Store StoreError Nat := do
  let store ← read
  let newGen := store.generation + 1
  let (entries, list) ← lift (store.sealedCandidate crypto)
  entries.forM fun entry => promoteBundle newGen entry.2
  serveManifest newGen list
  write (Store.setGeneration newGen) .storage
  clearPromoted crypto newGen (entries.map (·.1)) list
  pure newGen

end

end Yaog.Controller
