import Yaog.Controller.Store

/-!
# Pinning and rotating the operator credential

A transition is announced by a pending marker, carried out by a compare-and-set of the credential and closed by an audit
entry.
-/

namespace Yaog.Controller

open Data Durable

inductive KeystoneError where
  | auditRequired (detail : String)
  | credentialChanged
  | pendingConflict (detail : String)
  | invalidPending (detail : String)
  | duplicateEvent (eventID : String)
  | conflictingEvent (eventID : String)
  | auditNotObservable
  | auditAppend
  | writingPending
  | writingCredential
  | clearingPending
  deriving DecidableEq, Repr

/-- `hex.DecodeString` accepts the digit. -/
def isHexDigit (char : Char) : Bool :=
  ('0' ≤ char && char ≤ '9') || ('a' ≤ char && char ≤ 'f') || ('A' ≤ char && char ≤ 'F')

def isEventID (text : String) : Bool := text.toList.length = 32 && text.toList.all isHexDigit

/-- The randomness and the clock: the draws of event identifiers and the times at which they are made. -/
structure Entropy where
  eventID : Nat → String
  eventID_hex : ∀ draw, isEventID (eventID draw) = true
  now : Nat → Nat
  now_pos : ∀ draw, 0 < now draw

def Entropy.Distinct (entropy : Entropy) (draws : Nat) : Prop :=
  ∀ first < draws, ∀ second < draws, entropy.eventID first = entropy.eventID second → first = second

namespace Store

def putCredential (cred : OperatorCredential) (store : Store) : Store :=
  { store with operatorCred := some cred }

def putTransition (pending : Option PendingKeystoneTransition) (store : Store) : Store :=
  { store with keystoneTransition := pending }

end Store

def compareAndSetOperatorCredential (expected : Option OperatorCredential) (next : OperatorCredential) :
    Durable Store KeystoneError Unit := do
  let store ← read
  require (store.operatorCred = expected) .credentialChanged
  if expected = some next then pure () else write (Store.putCredential next) .writingCredential

/-- `CreatePendingKeystoneTransition`: never over another unresolved event. -/
def createPendingKeystoneTransition (pending : PendingKeystoneTransition) : Durable Store KeystoneError Unit := do
  require (pending.audit.eventID ≠ "" ∧ pending.audit.timestamp ≠ 0)
    (.invalidPending "pending keystone transition requires an audit event id and timestamp")
  let store ← read
  match store.keystoneTransition with
  | some current =>
    require (current = pending) (.pendingConflict "an unresolved event would be replaced")
  | none => write (Store.putTransition (some pending)) .writingPending

/-- `DeletePendingKeystoneTransition`: never a newer unresolved event. -/
def deletePendingKeystoneTransition (eventID : String) : Durable Store KeystoneError Unit := do
  require (eventID ≠ "") (.invalidPending "pending keystone transition deletion requires an event id")
  let store ← read
  match store.keystoneTransition with
  | none => pure ()
  | some current => do
      require (current.audit.eventID = eventID)
        (.pendingConflict "cleanup event does not match the unresolved event")
      write (Store.putTransition none) .clearingPending

/-- The actor is `operator:` and a name. -/
def namesOperator (actor : String) : Bool :=
  "operator:".toList.isPrefixOf actor.toList && trimSpace (String.ofList (actor.toList.drop 9)) ≠ ""

def transitionAction (expected : Option OperatorCredential) : String :=
  if expected.isSome then "rotate-operator-credential" else "pin-operator-credential"

def validateKeystoneTransitionAudit (expected : Option OperatorCredential) (audit : Option AuditEntry) :
    Except KeystoneError AuditEntry :=
  match audit with
  | none => .error (.auditRequired "keystone transition audit is required")
  | some entry =>
    if entry.action ≠ transitionAction expected then
      .error (.auditRequired "keystone transition action is wrong")
    else if !namesOperator entry.actor then
      .error (.auditRequired "keystone transition actor must identify an operator")
    else if entry.timestamp ≠ 0 ∨ entry.eventID ≠ "" ∨ entry.nodeID ≠ "" then
      .error (.auditRequired "caller supplied reserved keystone audit identity fields")
    else .ok entry

def validatePendingKeystoneTransition (pending : PendingKeystoneTransition) : Except KeystoneError Unit :=
  if !isEventID pending.audit.eventID || pending.audit.timestamp = 0 then
    .error (.invalidPending "invalid pending keystone transition audit identity")
  else if pending.expected = some pending.next then
    .error (.invalidPending "invalid pending keystone transition is a no-op")
  else if pending.audit.action ≠ transitionAction pending.expected ∨ pending.audit.nodeID ≠ "" ∨
      !namesOperator pending.audit.actor then
    .error (.invalidPending "invalid pending keystone transition audit content")
  else .ok ()

/-- The loop of `findPendingKeystoneAudit`. The entries compared are whole: their place in the chain is
not part of them. -/
def findAudit (want : AuditEntry) : Bool → List AuditEntry → Except KeystoneError Bool
  | found, [] => .ok found
  | found, entry :: rest =>
    if entry.eventID ≠ want.eventID then findAudit want found rest
    else if found then .error (.duplicateEvent want.eventID)
    else if entry ≠ want then .error (.conflictingEvent want.eventID)
    else findAudit want true rest

def findPendingKeystoneAudit (store : Store) (want : AuditEntry) : Except KeystoneError Bool :=
  findAudit want false store.audit.entries

def appendPendingAudit (entry : AuditEntry) : Durable Store KeystoneError Unit := do
  let reported ← attempt (Store.appendAudit entry)
  let store ← read
  let found ← lift (findPendingKeystoneAudit store entry)
  require (found = true) (if reported then .auditNotObservable else .auditAppend)

def ensureAudit (entry : AuditEntry) : Durable Store KeystoneError Unit := do
  let store ← read
  let found ← lift (findPendingKeystoneAudit store entry)
  if found then pure () else appendPendingAudit entry

def ensurePendingKeystoneAudit (pending : PendingKeystoneTransition) : Durable Store KeystoneError Unit := do
  ensureAudit pending.audit
  deletePendingKeystoneTransition pending.audit.eventID

/-- `reconcilePendingKeystoneTransitionLocked`. -/
def reconcilePendingKeystoneTransition : Durable Store KeystoneError Unit := do
  let store ← read
  match store.keystoneTransition with
  | none => pure ()
  | some pending => do
      lift (validatePendingKeystoneTransition pending)
      if store.operatorCred = some pending.next then ensurePendingKeystoneAudit pending
      else if store.operatorCred = pending.expected then
        deletePendingKeystoneTransition pending.audit.eventID
      else fail (.pendingConflict "current credential matches neither expected nor next")

section

variable (entropy : Entropy)

/-- `newKeystoneAuditEventID` and `time.Now`: the next draw. -/
def drawEvent : Durable Store KeystoneError Nat := do
  let store ← read
  advance fun store => { store with draws := store.draws + 1 }
  pure store.draws

def pendingTransition (expected : Option OperatorCredential) (next : OperatorCredential)
    (audit : AuditEntry) (draw : Nat) : PendingKeystoneTransition :=
  { expected, next, audit := { audit with timestamp := entropy.now draw, eventID := entropy.eventID draw } }

/-- `CompareAndSetKeystoneCredential`. -/
def compareAndSetKeystoneCredential (expected : Option OperatorCredential) (next : OperatorCredential)
    (audit : Option AuditEntry) : Durable Store KeystoneError Unit := do
  reconcilePendingKeystoneTransition
  if expected = some next then do
    require (audit = none)
      (.auditRequired "an exact compare-only keystone check must not create an audit event")
    compareAndSetOperatorCredential expected next
  else do
    let entry ← lift (validateKeystoneTransitionAudit expected audit)
    let store ← read
    require (store.operatorCred = expected) .credentialChanged
    let draw ← drawEvent
    createPendingKeystoneTransition (pendingTransition entropy expected next entry draw)
    compareAndSetOperatorCredential expected next
    reconcilePendingKeystoneTransition

end

end Yaog.Controller
