import Yaog.Controller.StoreFacts
import Yaog.Data.Session

/-!
# Operator accounts

The records behind a panel login: accounts with their second factors, the single-use challenges of passkey ceremonies,
and sessions.
-/

namespace Yaog.Accounts

open Controller Data

/-- The public half of a login passkey. -/
structure LoginCredential where
  alg : String
  credentialID : String
  publicKeyPEM : String
  rpid : String
  origin : String
  deriving DecidableEq, Repr

structure TOTPState where
  secret : String := ""
  lastUsedStep : Int := 0
  deriving DecidableEq, Repr

/-- An account. Its two time stamps are not read by any call. -/
structure Operator where
  username : String
  passwordHash : String := ""
  totpSecret : String := ""
  totpLastUsedStep : Int := 0
  loginCredential : Option LoginCredential := none
  deriving DecidableEq, Repr

def Operator.totpEnabled (op : Operator) : Bool := op.totpSecret ≠ ""

def Operator.totp (op : Operator) : TOTPState := ⟨op.totpSecret, op.totpLastUsedStep⟩

structure AssertionChallenge where
  subject : String
  expiresAt : Int

structure LoginSession where
  operator : String
  createdAt : Int
  expiresAt : Int

/-- A WebAuthn assertion, in the shape of a signed trust list. -/
structure Assertion where
  alg : String
  credentialID : String
  publicKey : String
  signature : String
  authenticatorData : String
  clientDataJSON : String
  deriving DecidableEq, Repr

structure PinnedCredential where
  alg : String
  credentialID : String
  key : List UInt8
  rpid : String
  origin : String

/-- Hashes, encodings and signatures. -/
structure Platform where
  toUpper : String → String
  decodeBase32 : String → Option (List UInt8)
  hmacSHA1 : List UInt8 → List UInt8 → List UInt8
  verifyPassword : (hash password : String) → Bool
  hashToken : String → String
  /-- The challenge named by the client data of an assertion. -/
  assertionChallenge : Assertion → Option String
  decodeBase64URL : String → Option (List UInt8)
  parseEd25519PinPEM : String → Option (List UInt8)
  parseES256Pin : String → Option (List UInt8)
  verifyAssertion : Assertion → PinnedCredential → List UInt8 → Bool
  verifyUserVerifiedAssertion : Assertion → PinnedCredential → List UInt8 → Bool

def totpDigits : Nat := 6

def totpPeriod : Int := 30

def unixSeconds (now : Int) : Int := now / 1000000000

def stepBytes (step : Int) : List UInt8 :=
  (List.range 8).reverse.map fun i => UInt8.ofNat ((step % 2 ^ 64).toNat / 256 ^ i)

/-- `%06d`. -/
def paddedCode (value : Nat) : String :=
  let digits := Nat.toDigits 10 value
  String.ofList (List.replicate (totpDigits - digits.length) '0' ++ digits)

section

variable (platform : Platform)

def totpCodeForStep (secret : String) (step : Int) : Option String :=
  (platform.decodeBase32 (platform.toUpper (trimSpace secret))).map fun key =>
    let sum := platform.hmacSHA1 key (stepBytes step)
    let byte (i : Nat) : Nat := (sum.getD i 0).toNat
    let offset := byte (sum.length - 1) % 16
    let bin := byte offset % 128 * 2 ^ 24 + byte (offset + 1) * 2 ^ 16 + byte (offset + 2) * 2 ^ 8
      + byte (offset + 3)
    paddedCode (bin % 1000000)

/-- The loop of `VerifyTOTP` over the steps around the current one. -/
def matchStep (secret code : String) (lastStep : Int) : List Int → Option Int
  | [] => none
  | step :: rest =>
    if step ≤ lastStep then matchStep secret code lastStep rest
    else
      match totpCodeForStep platform secret step with
      | none => none
      | some want => if want = code then some step else matchStep secret code lastStep rest

/-- `VerifyTOTP`: the step of the code, if the code is valid and its step not used yet. -/
def verifyTOTP (secret code : String) (now lastStep : Int) : Option Int :=
  let code := trimSpace code
  if code.utf8ByteSize ≠ totpDigits then none
  else
    let current := (unixSeconds now).tdiv totpPeriod
    matchStep platform secret code lastStep [current - 1, current, current + 1]

end

theorem matchStep_unused {platform : Platform} {secret code : String} {lastStep step : Int} {steps : List Int}
    (matched : matchStep platform secret code lastStep steps = some step) : lastStep < step := by
  induction steps with
  | nil => cases matched
  | cons first rest ih =>
    unfold matchStep at matched
    split at matched
    · exact ih matched
    · next unused =>
      split at matched
      · cases matched
      · split at matched
        · cases matched
          omega
        · exact ih matched

theorem verifyTOTP_unused {platform : Platform} {secret code : String} {now lastStep step : Int}
    (verified : verifyTOTP platform secret code now lastStep = some step) : lastStep < step := by
  simp only [verifyTOTP] at verified
  split at verified
  · cases verified
  · exact matchStep_unused verified

structure Store where
  operators : Records Operator := ∅
  challenges : Records AssertionChallenge := ∅
  sessions : Records LoginSession := ∅
  audit : List AuditEntry := []

inductive Request where
  | getOperator (username : String)
  | advanceTOTPStep (username : String) (step : Int)
  | compareAndSetTOTPState (username : String) (expected next : TOTPState)
  | compareAndSetLoginCredential (username : String) (expected next : Option LoginCredential)
  | createAssertionChallenge (challengeHash : String) (challenge : AssertionChallenge) (now : Int)
      (replaceSubject : Bool)
  | consumeAssertionChallenge (challengeHash subject : String) (now : Int)
  | createSession (tokenHash : String) (session : LoginSession)
  | appendAudit (entry : AuditEntry)

inductive Reply where
  | ok
  | operator (op : Operator)
  | advanced (advanced : Bool)
  | notFound
  | totpStateChanged
  | loginCredentialChanged
  | challengeInvalid
  | storage
  deriving DecidableEq

namespace Store

def putOperator (store : Store) (username : String) (op : Operator) : Store :=
  { store with operators := store.operators.insert username op }

def advanceTOTPStep (store : Store) (username : String) (step : Int) : Store × Reply :=
  match store.operators[username]? with
  | none => (store, .notFound)
  | some op =>
    if step ≤ op.totpLastUsedStep then (store, .advanced false)
    else (store.putOperator username { op with totpLastUsedStep := step }, .advanced true)

def compareAndSetTOTPState (store : Store) (username : String) (expected next : TOTPState) : Store × Reply :=
  match store.operators[username]? with
  | none => (store, .notFound)
  | some op =>
    if op.totp ≠ expected then (store, .totpStateChanged)
    else
      (store.putOperator username { op with totpSecret := next.secret, totpLastUsedStep := next.lastUsedStep }, .ok)

def compareAndSetLoginCredential (store : Store) (username : String) (expected next : Option LoginCredential) :
    Store × Reply :=
  match store.operators[username]? with
  | none => (store, .notFound)
  | some op =>
    if op.loginCredential ≠ expected then (store, .loginCredentialChanged)
    else (store.putOperator username { op with loginCredential := next }, .ok)

def createAssertionChallenge (store : Store) (challengeHash : String) (challenge : AssertionChallenge) (now : Int)
    (replaceSubject : Bool) : Store :=
  let live := store.challenges.filter fun _ prior =>
    now < prior.expiresAt && !(replaceSubject && prior.subject = challenge.subject)
  { store with challenges := live.insert challengeHash challenge }

def consumeAssertionChallenge (store : Store) (challengeHash subject : String) (now : Int) : Store × Reply :=
  match store.challenges[challengeHash]? with
  | none => (store, .challengeInvalid)
  | some challenge =>
    let rest := { store with challenges := store.challenges.erase challengeHash }
    if challenge.expiresAt ≤ now then (rest, .challengeInvalid)
    else if challenge.subject ≠ subject then (store, .challengeInvalid)
    else (rest, .ok)

def serve (fault : Bool) (store : Store) (request : Request) : Store × Reply :=
  if fault then (store, .storage)
  else
    match request with
    | .getOperator username => (store, (store.operators[username]?.map Reply.operator).getD .notFound)
    | .advanceTOTPStep username step => store.advanceTOTPStep username step
    | .compareAndSetTOTPState username expected next => store.compareAndSetTOTPState username expected next
    | .compareAndSetLoginCredential username expected next =>
      store.compareAndSetLoginCredential username expected next
    | .createAssertionChallenge challengeHash challenge now replaceSubject =>
      (store.createAssertionChallenge challengeHash challenge now replaceSubject, .ok)
    | .consumeAssertionChallenge challengeHash subject now =>
      store.consumeAssertionChallenge challengeHash subject now
    | .createSession tokenHash session =>
      ({ store with sessions := store.sessions.insert tokenHash session }, .ok)
    | .appendAudit entry => ({ store with audit := store.audit ++ [entry] }, .ok)

end Store

end Yaog.Accounts
