import Yaog.Accounts.Store

/-!
# Login and the second factors

The handlers that read or change an account, as sessions of atomic store requests.
-/

namespace Yaog.Accounts

open Controller Data

inductive ApiError where
  | invalidBody
  | rateLimited
  | credentialsInvalid
  | passkeyRequired (challenge credentialID rpid alg : String)
  | totpRequired
  | totpRequiresLogin
  | totpInvalidCode
  | totpStateChanged
  | loginCredentialChanged
  | passkeyVerifyFailed
  | passkeyFailed
  | enrollmentVerifyFailed
  | unsupportedAlg (alg : String)
  | fieldRequired (field : String)
  | fieldInvalid (field : String)
  | storage

inductive Response where
  | totpStatus (enabled : Bool)
  | passkeyStatus (credential : Option LoginCredential)
  | challenge (challenge : String) (allowed : Option LoginCredential)
  | enrollmentChallenge (challenge : String)
  | session (token operator : String) (expiresAt : Int)

/-- A handler, one store request at a time. -/
abbrev Handler (α : Type) := Session Request Reply (Except ApiError α)

namespace Handler

def give {α : Type} (value : α) : Handler α := .done (.ok value)

def refuse {α : Type} (reason : ApiError) : Handler α := .done (.error reason)

end Handler

open Handler

def auditAnd {α : Type} (actor action : String) (now : Int) (next : Handler α) : Handler α :=
  .ask (.appendAudit { timestamp := now.toNat, actor := "operator:" ++ actor, action }) fun _ => next

def loginChallengeTTL : Int := 5 * 60 * 1000000000

def webAuthnEnrollmentChallengeTTL : Int := 10 * 60 * 1000000000

section

variable (platform : Platform)

def pinFromLoginCredential (credential : LoginCredential) : Option PinnedCredential :=
  let pin (key : List UInt8) : PinnedCredential :=
    { credential with key }
  if credential.alg = "ed25519" ∨ credential.alg = "webauthn-eddsa" then
    (platform.parseEd25519PinPEM credential.publicKeyPEM).map pin
  else if credential.alg = "webauthn-es256" then (platform.parseES256Pin credential.publicKeyPEM).map pin
  else none

def assertionHolds (art : Assertion) (credential : LoginCredential) (challenge : List UInt8) : Bool :=
  match pinFromLoginCredential platform credential with
  | none => false
  | some pin => platform.verifyAssertion art pin challenge

/-- `verifyLoginAssertion`: the challenge is burned before the signature is checked. -/
def verifyLoginAssertion (op : Operator) (art : Assertion) (now : Int) : Session Request Reply Bool :=
  match op.loginCredential, platform.assertionChallenge art with
  | some credential, some text =>
    match platform.decodeBase64URL text with
    | none => .done false
    | some challenge =>
      .ask (.consumeAssertionChallenge (platform.hashToken text) op.username now) fun
        | .ok => .done (assertionHolds platform art credential challenge)
        | _ => .done false
  | _, _ => .done false

/-- `issueLoginChallenge`. -/
def issueLoginChallenge (operator : String) (now : Int) (challenge : String) : Handler Unit :=
  .ask (.createAssertionChallenge (platform.hashToken challenge) ⟨operator, now + loginChallengeTTL⟩ now false) fun
    | .ok => give ()
    | _ => refuse .storage

/-- `writePasskeyChallenge`. -/
def writePasskeyChallenge (op : Operator) (now : Int) (challenge : String) : Handler Response :=
  (issueLoginChallenge platform op.username now challenge).andThen fun _ =>
    match op.loginCredential with
    | none => refuse .storage
    | some credential =>
      refuse (.passkeyRequired challenge credential.credentialID credential.rpid credential.alg)

structure LoginRequest where
  username : String
  password : String
  totp : String := ""
  passkey : Option Assertion := none
  deriving DecidableEq, Repr

/-- What the login limiter says of an attempt. -/
structure Attempt where
  allowed : Bool := true
  justLocked : Bool := false
  deriving DecidableEq, Repr

/-- The random values of one login. -/
structure Minted where
  challenge : String
  sessionToken : String
  sessionTTL : Int
  deriving DecidableEq, Repr

def auditLockout {α : Type} (attempt : Attempt) (username : String) (now : Int) (next : Handler α) : Handler α :=
  if attempt.justLocked then auditAnd username "login-lockout" now next else next

def mintSessionResponse (op : Operator) (now : Int) (minted : Minted) : Handler Response :=
  .ask (.createSession (platform.hashToken minted.sessionToken) ⟨op.username, now, now + minted.sessionTTL⟩) fun
    | .ok => auditAnd op.username "login-success" now
        (give (.session minted.sessionToken op.username (now + minted.sessionTTL)))
    | _ => refuse .storage

def loginPasskey (attempt : Attempt) (req : LoginRequest) (op : Operator) (now : Int) (minted : Minted) :
    Handler Response :=
  let demand := auditLockout attempt req.username now (writePasskeyChallenge platform op now minted.challenge)
  match req.passkey with
  | none => demand
  | some art => (verifyLoginAssertion platform op art now).bind fun verified =>
    if verified then mintSessionResponse platform op now minted else demand

def loginTOTP (attempt : Attempt) (req : LoginRequest) (op : Operator) (now : Int) (minted : Minted) :
    Handler Response :=
  let demand := auditLockout attempt req.username now (refuse .totpRequired)
  let code := trimSpace req.totp
  if code = "" then demand
  else
    match verifyTOTP platform op.totpSecret code now op.totpLastUsedStep with
    | none => demand
    | some step =>
      .ask (.advanceTOTPStep op.username step) fun
        | .advanced true => mintSessionResponse platform op now minted
        | .advanced false => demand
        | _ => refuse .storage

def handleLogin (attempt : Attempt) (body : Option LoginRequest) (now : Int) (minted : Minted) : Handler Response :=
  match body with
  | none => refuse .invalidBody
  | some req =>
    let deny := auditLockout attempt req.username now (refuse .credentialsInvalid)
    if !attempt.allowed then refuse .rateLimited
    else
      .ask (.getOperator req.username) fun
        | .operator op =>
          if !platform.verifyPassword op.passwordHash req.password then deny
          else if op.loginCredential.isSome then loginPasskey platform attempt req op now minted
          else if op.totpEnabled then loginTOTP platform attempt req op now minted
          else mintSessionResponse platform op now minted
        | _ => deny

def handlePasskeyLoginBegin (attempt : Attempt) (body : Option String) (now : Int) (challenge : String) :
    Handler Response :=
  match body with
  | none => refuse .invalidBody
  | some username =>
    if trimSpace username = "" then refuse (.fieldRequired "username")
    else if !attempt.allowed then refuse .rateLimited
    else
      -- An unknown account, or one without a passkey, is answered with a challenge that is not stored.
      .ask (.getOperator username) fun
        | .operator op =>
          if op.loginCredential.isSome then
            (issueLoginChallenge platform op.username now challenge).andThen fun _ =>
              give (.challenge challenge op.loginCredential)
          else give (.challenge challenge none)
        | _ => give (.challenge challenge none)

def handlePasskeyLoginFinish (attempt : Attempt) (body : Option (String × Option Assertion)) (now : Int)
    (minted : Minted) : Handler Response :=
  match body with
  | none => refuse .invalidBody
  | some (username, passkey) =>
    let deny := auditLockout attempt username now (refuse .passkeyFailed)
    if !attempt.allowed then refuse .rateLimited
    else
      .ask (.getOperator username) fun
        | .operator op =>
          match passkey with
          | none => deny
          | some art =>
            if op.loginCredential.isNone then deny
            else (verifyLoginAssertion platform op art now).bind fun verified =>
              if verified then mintSessionResponse platform op now minted else deny
        | _ => deny

end

/-- Who calls, and whether by a session rather than the break-glass token. -/
structure Caller where
  actor : String
  session : Bool := true
  deriving DecidableEq, Repr

def currentOperatorAccount (caller : Caller) : Handler Operator :=
  if !caller.session then refuse .totpRequiresLogin
  else
    .ask (.getOperator caller.actor) fun
      | .operator op => give op
      | _ => refuse .totpRequiresLogin

def replaceFactor (request : Request) : Handler Unit :=
  .ask request fun
    | .ok => give ()
    | .totpStateChanged => refuse .totpStateChanged
    | .loginCredentialChanged => refuse .loginCredentialChanged
    | _ => refuse .storage

structure TOTPConfirm where
  secret : String
  code : String
  deriving DecidableEq, Repr

structure PasskeyRegister where
  credential : LoginCredential
  enrollmentProof : Option Assertion := none
  deriving DecidableEq, Repr

section

variable (platform : Platform)

/-- `HandleTOTPConfirm`: the code is checked under the secret it brings, whatever is stored. -/
def handleTOTPConfirm (caller : Caller) (body : Option TOTPConfirm) (now : Int) : Handler Response :=
  (currentOperatorAccount caller).andThen fun op =>
    match body with
    | none => refuse .invalidBody
    | some req =>
      if trimSpace req.secret = "" then refuse (.fieldRequired "secret")
      else
        match verifyTOTP platform req.secret req.code now 0 with
        | none => refuse .totpInvalidCode
        | some step =>
          (replaceFactor (.compareAndSetTOTPState op.username op.totp ⟨req.secret, step⟩)).andThen fun _ =>
            auditAnd op.username "totp-enabled" now (give (.totpStatus true))

/-- `HandleTOTPDisable`. -/
def handleTOTPDisable (caller : Caller) (body : Option String) (now : Int) : Handler Response :=
  (currentOperatorAccount caller).andThen fun op =>
    if !op.totpEnabled then give (.totpStatus false)
    else
      match body with
      | none => refuse .invalidBody
      | some code =>
        match verifyTOTP platform op.totpSecret code now op.totpLastUsedStep with
        | none => refuse .totpInvalidCode
        | some _ =>
          (replaceFactor (.compareAndSetTOTPState op.username op.totp {})).andThen fun _ =>
            auditAnd op.username "totp-disabled" now (give (.totpStatus false))

def webAuthnEnrollmentSubject (actor purpose : String) : String :=
  "webauthn-enrollment:" ++ purpose ++ ":" ++ actor

/-- `HandleWebAuthnEnrollmentBegin`. Only a login enrollment looks for an account. -/
def handleWebAuthnEnrollmentBegin (caller : Caller) (body : Option String) (now : Int) (challenge : String) :
    Handler Response :=
  let issue (purpose : String) : Handler Response :=
    .ask (.createAssertionChallenge (platform.hashToken challenge)
        ⟨webAuthnEnrollmentSubject caller.actor purpose, now + webAuthnEnrollmentChallengeTTL⟩ now true) fun
      | .ok => give (.enrollmentChallenge challenge)
      | _ => refuse .storage
  match body with
  | none => refuse .invalidBody
  | some purpose =>
    if purpose = "login" then (currentOperatorAccount caller).andThen fun _ => issue purpose
    else if purpose = "keystone" then issue purpose
    else refuse (.fieldInvalid "purpose")

/-- `verifyWebAuthnEnrollmentProof` for a login passkey: the challenge is burned after the check. -/
def verifyWebAuthnEnrollmentProof (actor : String) (proof : Option Assertion) (pin : PinnedCredential) (now : Int) :
    Handler Unit :=
  match proof with
  | none => refuse (.fieldRequired "enrollment_proof")
  | some art =>
    match (platform.assertionChallenge art).bind fun text => (platform.decodeBase64URL text).map (text, ·) with
    | none => refuse .enrollmentVerifyFailed
    | some (text, challenge) =>
      if challenge.length ≠ 32 ∨ !platform.verifyUserVerifiedAssertion art pin challenge then
        refuse .enrollmentVerifyFailed
      else
        .ask (.consumeAssertionChallenge (platform.hashToken text) (webAuthnEnrollmentSubject actor "login") now) fun
          | .ok => give ()
          | .challengeInvalid => refuse .enrollmentVerifyFailed
          | _ => refuse .storage

/-- `HandlePasskeyRegister`: the proof is by the new passkey, whatever is stored. -/
def handlePasskeyRegister (caller : Caller) (body : Option PasskeyRegister) (proofAt now : Int) : Handler Response :=
  (currentOperatorAccount caller).andThen fun op =>
    match body with
    | none => refuse .invalidBody
    | some req =>
      let candidate := req.credential
      if candidate.alg ≠ "webauthn-es256" ∧ candidate.alg ≠ "webauthn-eddsa" then
        refuse (.unsupportedAlg candidate.alg)
      else if trimSpace candidate.credentialID = "" then refuse (.fieldRequired "credential_id")
      else if trimSpace candidate.rpid = "" then refuse (.fieldRequired "rpid")
      else if trimSpace candidate.origin = "" then refuse (.fieldRequired "origin")
      else
        match pinFromLoginCredential platform candidate with
        | none => refuse (.fieldInvalid "public_key_pem")
        | some pin =>
          (verifyWebAuthnEnrollmentProof platform caller.actor req.enrollmentProof pin proofAt).andThen fun _ =>
          (replaceFactor (.compareAndSetLoginCredential op.username op.loginCredential (some candidate))).andThen
            fun _ => auditAnd op.username "passkey-registered" now (give (.passkeyStatus (some candidate)))

/-- `HandlePasskeyDisable`. A body without an assertion asks for a challenge. -/
def handlePasskeyDisable (caller : Caller) (body : Option (Option Assertion)) (now : Int) (challenge : String) :
    Handler Response :=
  (currentOperatorAccount caller).andThen fun op =>
    if op.loginCredential.isNone then give (.passkeyStatus none)
    else
      match body with
      | none => refuse .invalidBody
      | some none =>
        (issueLoginChallenge platform op.username now challenge).andThen fun _ =>
          give (.challenge challenge op.loginCredential)
      | some (some art) =>
        (verifyLoginAssertion platform op art now).bind fun verified =>
          if !verified then refuse .passkeyVerifyFailed
          else
            (replaceFactor (.compareAndSetLoginCredential op.username op.loginCredential none)).andThen fun _ =>
              auditAnd op.username "passkey-disabled" now (give (.passkeyStatus none))

end

end Yaog.Accounts
