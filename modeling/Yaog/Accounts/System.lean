import Yaog.Accounts.Handlers

/-!
# Requests under way at the same time

Any number of calls, each served one store request at a time in any order.
-/

namespace Yaog.Accounts

open Controller Data Handler
open Session (Obeys)

variable {username challenge : String} {op : Operator} {request : Request} {α : Type} {now : Int} {attempt : Attempt}
  {minted : Minted} {caller : Caller} {body : Option String}

inductive Call where
  | login (attempt : Attempt) (body : Option LoginRequest) (now : Int) (minted : Minted)
  | passkeyLoginBegin (attempt : Attempt) (body : Option String) (now : Int) (challenge : String)
  | passkeyLoginFinish (attempt : Attempt) (body : Option (String × Option Assertion)) (now : Int) (minted : Minted)
  | totpConfirm (caller : Caller) (body : Option TOTPConfirm) (now : Int)
  | totpDisable (caller : Caller) (body : Option String) (now : Int)
  | enrollmentBegin (caller : Caller) (body : Option String) (now : Int) (challenge : String)
  | passkeyRegister (caller : Caller) (body : Option PasskeyRegister) (proofAt now : Int)
  | passkeyDisable (caller : Caller) (body : Option (Option Assertion)) (now : Int) (challenge : String)
  deriving DecidableEq, Repr

def Call.session (platform : Platform) : Call → Handler Response
  | .login attempt body now minted => handleLogin platform attempt body now minted
  | .passkeyLoginBegin attempt body now challenge => handlePasskeyLoginBegin platform attempt body now challenge
  | .passkeyLoginFinish attempt body now minted => handlePasskeyLoginFinish platform attempt body now minted
  | .totpConfirm caller body now => handleTOTPConfirm platform caller body now
  | .totpDisable caller body now => handleTOTPDisable platform caller body now
  | .enrollmentBegin caller body now challenge => handleWebAuthnEnrollmentBegin platform caller body now challenge
  | .passkeyRegister caller body proofAt now => handlePasskeyRegister platform caller body proofAt now
  | .passkeyDisable caller body now challenge => handlePasskeyDisable platform caller body now challenge

/-- What a call has seen: the account it read, whether it was read just now, and the challenges that the
store let it consume, with their subjects. -/
structure Seen where
  read : Option Operator := none
  fresh : Bool := false
  consumed : List (String × String) := []

def Seen.after (seen : Seen) (fault : Bool) (store : Store) : Request → Seen
  | .getOperator username =>
    { seen with read := if fault then none else store.operators[username]?, fresh := true }
  | .consumeAssertionChallenge challengeHash subject now =>
    { seen with
      fresh := false
      consumed := if (store.serve fault (.consumeAssertionChallenge challengeHash subject now)).2 = .ok
        then (challengeHash, subject) :: seen.consumed else seen.consumed }
  | _ => { seen with fresh := false }

structure Thread where
  call : Call
  session : Handler Response
  seen : Seen := {}

/-- What happened to the TOTP state of an account; `stored` is the account before it. -/
inductive Entry where
  | accepted (username : String) (call : Call) (read : Option Operator) (stored : Operator) (step : Int)
  | totpSet (username : String) (call : Call) (stored : Operator) (next : TOTPState)
  deriving DecidableEq

structure System where
  store : Store
  threads : List Thread := []
  /-- The newest entry first. -/
  history : List Entry := []

def entryOf (store : Store) (fault : Bool) (thread : Thread) (request : Request) : Option Entry :=
  match request, (store.serve fault request).2 with
  | .advanceTOTPStep username step, .advanced true =>
    store.operators[username]?.map fun op => .accepted username thread.call thread.seen.read op step
  | .compareAndSetTOTPState username _ next, .ok =>
    store.operators[username]?.map fun op => .totpSet username thread.call op next
  | _, _ => none

inductive Event where
  | start (call : Call)
  | advance (index : Nat) (fault : Bool)

namespace System

variable (platform : Platform)

def advance (system : System) (index : Nat) (fault : Bool) : System :=
  match system.threads[index]? with
  | some ⟨call, .ask request next, seen⟩ =>
    let (store, reply) := system.store.serve fault request
    { store
      threads := system.threads.set index ⟨call, next reply, seen.after fault system.store request⟩
      history := (entryOf system.store fault ⟨call, .ask request next, seen⟩ request).toList ++ system.history }
  | _ => system

def step (system : System) : Event → System
  | .start call => { system with threads := system.threads ++ [{ call, session := call.session platform }] }
  | .advance index fault => system.advance index fault

def run (system : System) (events : List Event) : System := events.foldl (step platform) system

end System

/-- The accounts after a request and the entry it makes. -/
inductive Serves (store : Store) (thread : Thread) : Request → Store → Option Entry → Prop where
  | quiet {request : Request} {after : Store} (same : after.operators = store.operators) :
      Serves store thread request after none
  | burned {username : String} {op : Operator} {step : Int} {after : Store}
      (held : store.operators[username]? = some op) (later : op.totpLastUsedStep < step)
      (written : after.operators = store.operators.insert username { op with totpLastUsedStep := step }) :
      Serves store thread (.advanceTOTPStep username step) after
        (some (.accepted username thread.call thread.seen.read op step))
  | totpSet {username : String} {op : Operator} {next : TOTPState} {after : Store}
      (held : store.operators[username]? = some op)
      (written : after.operators = store.operators.insert username
        { op with totpSecret := next.secret, totpLastUsedStep := next.lastUsedStep }) :
      Serves store thread (.compareAndSetTOTPState username op.totp next) after
        (some (.totpSet username thread.call op next))
  | credentialSet {username : String} {op : Operator} {next : Option LoginCredential} {after : Store}
      (held : store.operators[username]? = some op)
      (written : after.operators = store.operators.insert username { op with loginCredential := next }) :
      Serves store thread (.compareAndSetLoginCredential username op.loginCredential next) after none

theorem entryOf_fault (store : Store) (thread : Thread) (request : Request) : entryOf store true thread request = none := by
  cases request <;> rfl

theorem serve_serves (store : Store) (fault : Bool) (thread : Thread) (request : Request) :
    Serves store thread request (store.serve fault request).1 (entryOf store fault thread request) := by
  cases fault with
  | true =>
    rw [entryOf_fault]
    exact .quiet rfl
  | false =>
    cases request with
    | advanceTOTPStep username step =>
      simp only [entryOf, Store.serve, Bool.false_eq_true, if_false, Store.advanceTOTPStep]
      cases held : store.operators[username]? with
      | none => exact .quiet rfl
      | some op =>
        by_cases stale : step ≤ op.totpLastUsedStep
        · simp only [if_pos stale]
          exact .quiet rfl
        · simp only [if_neg stale, held, Option.map_some]
          have later : op.totpLastUsedStep < step := by omega
          refine .burned held later ?_
          rfl
    | compareAndSetTOTPState username expected next =>
      simp only [entryOf, Store.serve, Bool.false_eq_true, if_false, Store.compareAndSetTOTPState]
      cases held : store.operators[username]? with
      | none => exact .quiet rfl
      | some op =>
        by_cases same : op.totp = expected
        · subst same
          simp only [ne_eq, not_true_eq_false, if_false, held, Option.map_some]
          refine .totpSet held ?_
          rfl
        · simp only [ne_eq, same, not_false_eq_true, if_true]
          exact .quiet rfl
    | compareAndSetLoginCredential username expected next =>
      simp only [Store.serve, Bool.false_eq_true, if_false, Store.compareAndSetLoginCredential]
      cases held : store.operators[username]? with
      | none => exact .quiet rfl
      | some op =>
        by_cases same : op.loginCredential = expected
        · subst same
          simp only [ne_eq, not_true_eq_false, if_false]
          refine .credentialSet held ?_
          rfl
        · simp only [ne_eq, same, not_false_eq_true, if_true]
          exact .quiet rfl
    | consumeAssertionChallenge challengeHash subject now =>
      refine .quiet ?_
      simp only [Store.serve, Bool.false_eq_true, if_false, Store.consumeAssertionChallenge]
      split
      · rfl
      · split_ifs <;> rfl
    | _ => exact .quiet rfl

def Call.LogsInWith (platform : Platform) (call : Call) (account : Operator) (step : Int) : Prop :=
  ∃ attempt req now minted, call = .login attempt (some req) now minted ∧
    verifyTOTP platform account.totpSecret (trimSpace req.totp) now account.totpLastUsedStep = some step

def Call.PresentsCode (platform : Platform) (call : Call) (account : Operator) (step : Int) : Prop :=
  ∃ caller code now, call = .totpDisable caller (some code) now ∧
    verifyTOTP platform account.totpSecret code now account.totpLastUsedStep = some step

/-- A request to disable the passkey that presents an assertion by it, over a challenge that the request
itself has consumed. -/
def Call.PresentsAssertion (platform : Platform) (call : Call) (seen : Seen) (username : String)
    (credential : LoginCredential) : Prop :=
  ∃ caller art now minted text challenge, call = .passkeyDisable caller (some (some art)) now minted ∧
    platform.assertionChallenge art = some text ∧ platform.decodeBase64URL text = some challenge ∧
    (platform.hashToken text, username) ∈ seen.consumed ∧ assertionHolds platform art credential challenge = true

def Seen.Account (seen : Seen) (username : String) (op : Operator) : Prop :=
  seen.read = some op ∧ op.username = username

def Call.May (platform : Platform) (call : Call) (seen : Seen) : Request → Prop
  | .advanceTOTPStep username step => seen.fresh = true ∧
      ∃ op, seen.Account username op ∧ call.LogsInWith platform op step
  | .compareAndSetTOTPState username expected next => ∃ op, seen.Account username op ∧ expected = op.totp ∧
      (next.secret = "" → op.totpSecret ≠ "" ∧ ∃ step, call.PresentsCode platform op step)
  | .compareAndSetLoginCredential username expected next => ∃ op, seen.Account username op ∧
      expected = op.loginCredential ∧
      (next = none → ∃ credential, op.loginCredential = some credential ∧
        call.PresentsAssertion platform seen username credential)
  | _ => True

def Store.Keyed (store : Store) : Prop :=
  ∀ (username : String) (op : Operator), store.operators[username]? = some op → op.username = username

def callProtocol (platform : Platform) (call : Call) : Protocol Bool Store Request Reply Seen where
  serve := Store.serve
  keeps := Store.Keyed
  allowed := call.May platform
  track := Seen.after

def Request.plain : Request → Bool
  | .createAssertionChallenge .. | .createSession .. | .appendAudit _ => true
  | _ => false

theorem Store.Keyed.insert {store after : Store} (keyed : store.Keyed)
    (written : after.operators = store.operators.insert username op) (named : op.username = username) :
    after.Keyed := by
  intro other found held
  rw [written, Records.getElem?_insert] at held
  split at held
  · next same =>
    cases held
    exact named.trans same
  · exact keyed other found held

theorem Serves.keyed {store after : Store} {thread : Thread} {entry : Option Entry}
    (serves : Serves store thread request after entry) (keyed : store.Keyed) : after.Keyed := by
  cases serves with
  | quiet same =>
    intro username op held
    rw [same] at held
    exact keyed username op held
  | burned held _ written =>
    have named := keyed _ _ held
    exact keyed.insert written named
  | totpSet held written =>
    have named := keyed _ _ held
    exact keyed.insert written named
  | credentialSet held written =>
    have named := keyed _ _ held
    exact keyed.insert written named

abbrev Abides (platform : Platform) (call : Call) (seen : Seen) (session : Handler α) : Prop :=
  Obeys (callProtocol platform call) seen session fun _ _ => True

section

variable {platform : Platform} {call : Call} {seen : Seen}

theorem plain_obeys (plain : request.plain = true) {next : Reply → Handler α}
    (onward : ∀ reply seen, Abides platform call seen (next reply)) :
    Abides platform call seen (.ask request next) := by
  refine ⟨?_, fun fault store _ => onward _ _⟩
  cases request <;> trivial

theorem auditAnd_obeys {actor action : String} {next : Handler α} (onward : ∀ seen, Abides platform call seen next) :
    Abides platform call seen (auditAnd actor action now next) :=
  plain_obeys rfl fun _ seen => onward seen

theorem auditLockout_obeys {next : Handler α} (onward : ∀ seen, Abides platform call seen next) :
    Abides platform call seen (auditLockout attempt username now next) := by
  unfold auditLockout
  split
  · exact auditAnd_obeys onward
  · exact onward seen

theorem mintSessionResponse_obeys : Abides platform call seen (mintSessionResponse platform op now minted) := by
  apply plain_obeys rfl
  intro reply seen
  cases reply with
  | ok => exact auditAnd_obeys fun _ => trivial
  | _ => trivial

theorem issueLoginChallenge_obeys {operator : String} {next : Unit → Handler α}
    (onward : ∀ seen, Abides platform call seen (next ())) :
    Abides platform call seen ((issueLoginChallenge platform operator now challenge).andThen next) := by
  apply plain_obeys rfl
  intro reply seen
  cases reply with
  | ok => exact onward seen
  | _ => trivial

theorem writePasskeyChallenge_obeys : Abides platform call seen (writePasskeyChallenge platform op now challenge) := by
  apply issueLoginChallenge_obeys
  intro seen
  split <;> trivial

theorem getOperator_obeys {next : Reply → Handler α}
    (found : ∀ op seen, seen.fresh = true → seen.read = some op → op.username = username →
      Abides platform call seen (next (.operator op)))
    (missing : ∀ seen, Abides platform call seen (next .notFound))
    (failed : ∀ seen, Abides platform call seen (next .storage)) :
    Abides platform call seen (.ask (.getOperator username) next) := by
  refine ⟨trivial, fun fault store keyed => ?_⟩
  cases fault with
  | true => exact failed _
  | false =>
    change Obeys _ { seen with read := store.operators[username]?, fresh := true }
      (next ((store.operators[username]?.map Reply.operator).getD .notFound)) _
    cases stored : store.operators[username]? with
    | none => exact missing _
    | some op => exact found op _ rfl rfl (keyed username op stored)

theorem currentOperatorAccount_obeys {next : Operator → Handler α}
    (found : ∀ op seen, seen.read = some op → Abides platform call seen (next op)) :
    Abides platform call seen ((currentOperatorAccount caller).andThen next) := by
  unfold currentOperatorAccount
  split
  · trivial
  · apply getOperator_obeys
    · exact fun op seen _ read _ => found op seen read
    · exact fun _ => trivial
    · exact fun _ => trivial

theorem replaceFactor_obeys {next : Unit → Handler α} (allowed : call.May platform seen request)
    (onward : ∀ seen, Abides platform call seen (next ())) :
    Abides platform call seen ((replaceFactor request).andThen next) := by
  refine ⟨allowed, fun fault store _ => ?_⟩
  generalize ((callProtocol platform call).serve fault store request).2 = reply
  cases reply with
  | ok => exact onward _
  | _ => trivial

theorem verifyLoginAssertion_obeys {art : Assertion} {next : Bool → Handler α}
    (failed : ∀ seen, Abides platform call seen (next false))
    (verified : ∀ after credential text challenge, after.read = seen.read → op.loginCredential = some credential →
      platform.assertionChallenge art = some text → platform.decodeBase64URL text = some challenge →
      (platform.hashToken text, op.username) ∈ after.consumed → assertionHolds platform art credential challenge = true →
      Abides platform call after (next true)) :
    Abides platform call seen ((verifyLoginAssertion platform op art now).bind next) := by
  unfold verifyLoginAssertion
  split
  · next credential text registered named =>
    split
    · exact failed seen
    · next challenge decoded =>
      refine ⟨trivial, fun fault store _ => ?_⟩
      generalize replied : ((callProtocol platform call).serve fault store
        (.consumeAssertionChallenge (platform.hashToken text) op.username now)).2 = reply
      cases reply with
      | ok =>
        cases holds : assertionHolds platform art credential challenge with
        | false => exact failed _
        | true =>
          refine verified _ credential text challenge rfl registered named decoded ?_ holds
          have granted : (store.serve fault
              (.consumeAssertionChallenge (platform.hashToken text) op.username now)).2 = .ok := replied
          simp only [callProtocol, Seen.after, if_pos granted]
          exact List.mem_cons_self ..
      | _ => exact failed _
  · exact failed seen

theorem handleLogin_obeys {body : Option LoginRequest} :
    Abides platform (.login attempt body now minted) seen
      (handleLogin platform attempt body now minted) := by
  unfold handleLogin
  split
  · trivial
  next req =>
  split
  · trivial
  apply getOperator_obeys
  · intro op seen fresh read named
    change Obeys _ seen (if !platform.verifyPassword op.passwordHash req.password then _ else _) _
    split
    · exact auditLockout_obeys fun _ => trivial
    split
    · simp only [loginPasskey]
      have demand (seen : Seen) : Abides platform (.login attempt (some req) now minted) seen
          (auditLockout attempt req.username now (writePasskeyChallenge platform op now minted.challenge)) :=
        auditLockout_obeys fun _ => writePasskeyChallenge_obeys
      split
      · exact demand seen
      · apply verifyLoginAssertion_obeys
        · exact demand
        · intros
          exact mintSessionResponse_obeys
    split
    · simp only [loginTOTP]
      have demand (seen : Seen) : Abides platform (.login attempt (some req) now minted) seen
          (auditLockout attempt req.username now (refuse .totpRequired : Handler Response)) :=
        auditLockout_obeys fun _ => trivial
      split
      · exact demand seen
      split
      · exact demand seen
      · next step verified =>
        refine ⟨⟨fresh, op, ⟨read, rfl⟩, attempt, req, now, minted, rfl, verified⟩, fun fault store _ => ?_⟩
        generalize ((callProtocol platform (.login attempt (some req) now minted)).serve fault store
          (.advanceTOTPStep op.username step)).2 = reply
        cases reply with
        | advanced won =>
          cases won with
          | true => exact mintSessionResponse_obeys
          | false => exact demand _
        | _ => trivial
    · exact mintSessionResponse_obeys
  · exact fun _ => auditLockout_obeys fun _ => trivial
  · exact fun _ => auditLockout_obeys fun _ => trivial

-- unfolded, the statement would run the handler
attribute [local irreducible] Obeys in
theorem handlePasskeyLoginBegin_obeys :
    Abides platform call seen (handlePasskeyLoginBegin platform attempt body now challenge) := by
  unfold handlePasskeyLoginBegin
  split
  · exact .done trivial
  refine .ite (fun _ => .done trivial) fun _ => ?_
  refine .ite (fun _ => .done trivial) fun _ => ?_
  apply getOperator_obeys
  · intro op seen _ _ _
    change Obeys _ seen (if op.loginCredential.isSome then _ else _) _
    split
    · exact issueLoginChallenge_obeys fun _ => .done trivial
    · exact .done trivial
  · exact fun _ => .done trivial
  · exact fun _ => .done trivial

theorem handlePasskeyLoginFinish_obeys {body : Option (String × Option Assertion)} :
    Abides platform call seen (handlePasskeyLoginFinish platform attempt body now minted) := by
  unfold handlePasskeyLoginFinish
  split
  · trivial
  next username passkey =>
  have deny (seen : Seen) : Abides platform call seen
      (auditLockout attempt username now (refuse .passkeyFailed : Handler Response)) :=
    auditLockout_obeys fun _ => trivial
  split
  · trivial
  apply getOperator_obeys
  · intro op seen _ _ _
    cases passkey with
    | none => exact deny seen
    | some art =>
      change Obeys _ seen (if op.loginCredential.isNone then _ else _) _
      split
      · exact deny seen
      · apply verifyLoginAssertion_obeys
        · exact deny
        · intros
          exact mintSessionResponse_obeys
  · exact deny
  · exact deny

-- unfolded, the statement would run the handler
attribute [local irreducible] Obeys in
theorem handleTOTPConfirm_obeys {body : Option TOTPConfirm} :
    Abides platform call seen (handleTOTPConfirm platform caller body now) := by
  apply currentOperatorAccount_obeys
  intro op seen read
  split
  · exact .done trivial
  next req =>
  refine .ite (fun _ => .done trivial) fun visible => ?_
  split
  · exact .done trivial
  · apply replaceFactor_obeys
    · refine ⟨op, ⟨read, rfl⟩, rfl, fun blank => ?_⟩
      have trimmed : trimSpace req.secret = "" := by
        have same : req.secret = "" := blank
        rw [same]
        rfl
      exact absurd trimmed visible
    · exact fun _ => auditAnd_obeys fun _ => .done trivial

theorem handleTOTPDisable_obeys :
    Abides platform (.totpDisable caller body now) seen
      (handleTOTPDisable platform caller body now) := by
  apply currentOperatorAccount_obeys
  intro op seen read
  split
  · trivial
  next enabled =>
  have enrolled : op.totpSecret ≠ "" := by simpa [Operator.totpEnabled] using enabled
  split
  · trivial
  next code =>
  split
  · trivial
  · next step verified =>
    apply replaceFactor_obeys
    · exact ⟨op, ⟨read, rfl⟩, rfl, fun _ => ⟨enrolled, step, caller, code, now, rfl, verified⟩⟩
    · exact fun _ => auditAnd_obeys fun _ => trivial

theorem handleWebAuthnEnrollmentBegin_obeys :
    Abides platform call seen (handleWebAuthnEnrollmentBegin platform caller body now challenge) := by
  unfold handleWebAuthnEnrollmentBegin
  split
  · trivial
  split
  · apply currentOperatorAccount_obeys
    intro op seen read
    apply plain_obeys rfl
    intro reply _
    cases reply <;> trivial
  split
  · apply plain_obeys rfl
    intro reply _
    cases reply <;> trivial
  · trivial

-- unfolded, the statement would run the handler
attribute [local irreducible] Obeys in
theorem handlePasskeyRegister_obeys {body : Option PasskeyRegister} {proofAt : Int} :
    Abides platform call seen (handlePasskeyRegister platform caller body proofAt now) := by
  apply currentOperatorAccount_obeys
  intro op seen read
  split
  · exact .done trivial
  next req =>
  refine .ite (fun _ => .done trivial) fun _ => ?_
  refine .ite (fun _ => .done trivial) fun _ => ?_
  refine .ite (fun _ => .done trivial) fun _ => ?_
  refine .ite (fun _ => .done trivial) fun _ => ?_
  split
  · exact .done trivial
  next pin parsed =>
  have register (after : Seen) (kept : after.read = seen.read) : Abides platform call after
      ((replaceFactor (.compareAndSetLoginCredential op.username op.loginCredential (some req.credential))).andThen
        fun _ => auditAnd op.username "passkey-registered" now (give (Response.passkeyStatus (some req.credential)))) := by
    apply replaceFactor_obeys
    · exact ⟨op, ⟨kept.trans read, rfl⟩, rfl, nofun⟩
    · exact fun _ => auditAnd_obeys fun _ => .done trivial
  unfold verifyWebAuthnEnrollmentProof
  split
  · exact .done trivial
  split
  · exact .done trivial
  next text challenge _ =>
  split
  · exact .done trivial
  refine .ask trivial fun fault store _ => ?_
  generalize ((callProtocol platform call).serve fault store (.consumeAssertionChallenge (platform.hashToken text)
    (webAuthnEnrollmentSubject caller.actor "login") proofAt)).2 = reply
  cases reply with
  | ok => exact register _ rfl
  | _ => exact .done trivial

theorem handlePasskeyDisable_obeys {body : Option (Option Assertion)} :
    Abides platform (.passkeyDisable caller body now challenge) seen
      (handlePasskeyDisable platform caller body now challenge) := by
  apply currentOperatorAccount_obeys
  intro op seen read
  split
  · trivial
  split
  · trivial
  · exact issueLoginChallenge_obeys fun _ => trivial
  · next art =>
    apply verifyLoginAssertion_obeys
    · exact fun _ => trivial
    · intro after credential text bytes kept registered named decoded consumed holds
      apply replaceFactor_obeys
      · refine ⟨op, ⟨kept.trans read, rfl⟩, rfl, fun _ => ⟨credential, registered, ?_⟩⟩
        exact ⟨caller, art, now, challenge, text, bytes, rfl, named, decoded, consumed, holds⟩
      · exact fun _ => auditAnd_obeys fun _ => trivial

attribute [local irreducible] Obeys in
theorem Call.session_obeys (call : Call) :
    Abides platform call seen (call.session platform) := by
  cases call with
  | login attempt body now minted => exact handleLogin_obeys
  | passkeyLoginBegin attempt body now challenge => exact handlePasskeyLoginBegin_obeys
  | passkeyLoginFinish attempt body now minted => exact handlePasskeyLoginFinish_obeys
  | totpConfirm caller body now => exact handleTOTPConfirm_obeys
  | totpDisable caller body now => exact handleTOTPDisable_obeys
  | enrollmentBegin caller body now challenge => exact handleWebAuthnEnrollmentBegin_obeys
  | passkeyRegister caller body proofAt now => exact handlePasskeyRegister_obeys
  | passkeyDisable caller body now challenge => exact handlePasskeyDisable_obeys

end

end Yaog.Accounts
