import Yaog.Accounts.SingleUse

/-!
# Shedding a second factor

Disabling a factor asks for a proof by the factor itself. Confirming a TOTP secret and registering a
passkey ask for a proof by the new one only, and replace whatever is stored.
-/

namespace Yaog.Accounts

open Controller Data List Option

variable {call : Call} {seen : Seen} {username : String} {op old : Operator} {event : Event} {request : Request}

def System.acting (system : System) : Event → Option Thread
  | .start _ => none
  | .advance index _ => system.threads[index]?

/-- A factor that an account had before a step is still there after it, or the call that the step serves
has presented it: an unused code of the secret, or a fresh assertion by the passkey. -/
structure FactorsKept (platform : Platform) (system : System) (event : Event) (username : String)
    (old new : Operator) : Prop where
  totp : old.totpSecret ≠ "" → new.totpSecret ≠ old.totpSecret → ∃ thread step,
    system.acting event = some thread ∧ thread.call.PresentsCode platform old step ∧
      step ∉ stepsSince username system.history
  passkey : ∀ credential, old.loginCredential = some credential → new.loginCredential ≠ some credential →
    ∃ thread, system.acting event = some thread ∧
      thread.call.PresentsAssertion platform thread.seen username credential

/-- A secret is confirmed where none is stored, or the stored one is with no earlier step; a passkey is
registered where none is stored, or the stored one is. -/
def Request.guarded (store : Store) : Request → Bool
  | .compareAndSetTOTPState username expected next =>
    match store.operators[username]? with
    | none => true
    | some op => op.totp ≠ expected || next.secret = "" || op.totpSecret = ""
        || (next.secret = op.totpSecret && op.totpLastUsedStep ≤ next.lastUsedStep)
  | .compareAndSetLoginCredential username expected next =>
    match store.operators[username]? with
    | none => true
    | some op => op.loginCredential ≠ expected || next.isNone || op.loginCredential.isNone
        || next = op.loginCredential
  | _ => true

def Event.guarded (system : System) : Event → Bool
  | .advance index false =>
    match system.threads[index]? with
    | some ⟨_, .ask request _, _⟩ => request.guarded system.store
    | _ => true
  | _ => true

def guardedRun (platform : Platform) : System → List Event → Bool
  | _, [] => true
  | system, event :: rest => event.guarded system && guardedRun platform (system.step platform event) rest

structure System.Guarded (platform : Platform) (system : System) : Prop where
  ledger : Ledger system.store system.history
  obeys : ∀ thread ∈ system.threads,
    Session.Obeys (callProtocol platform thread.call) thread.seen thread.session fun _ _ => True

section

variable {platform : Platform} {system : System}

theorem Call.PresentsCode.of_totp {read stored : Operator} {step : Int}
    (presents : call.PresentsCode platform read step) (same : stored.totp = read.totp) :
    call.PresentsCode platform stored step := by
  obtain ⟨caller, code, now, named, verified⟩ := presents
  have secret : stored.totpSecret = read.totpSecret := congrArg TOTPState.secret same
  have last : stored.totpLastUsedStep = read.totpLastUsedStep := congrArg TOTPState.lastUsedStep same
  refine ⟨caller, code, now, named, ?_⟩
  rw [secret, last]
  exact verified

section

variable (stored : system.store.operators[username]? = some op) {next : TOTPState}

include stored

theorem totpSet_presents (allowed : call.May platform seen (.compareAndSetTOTPState username op.totp next))
    (guarded : Request.guarded system.store (.compareAndSetTOTPState username op.totp next) = true)
    (enrolled : op.totpSecret ≠ "") (changed : next.secret ≠ op.totpSecret) :
    ∃ step, call.PresentsCode platform op step := by
  have blank : next.secret = "" := by
    simpa [Request.guarded, stored, enrolled, changed] using guarded
  obtain ⟨read, -, same, proof⟩ := allowed
  obtain ⟨-, step, presents⟩ := proof blank
  exact ⟨step, presents.of_totp same⟩

theorem credentialSet_presents {next : Option LoginCredential} {credential : LoginCredential}
    (allowed : call.May platform seen (.compareAndSetLoginCredential username op.loginCredential next))
    (guarded : Request.guarded system.store (.compareAndSetLoginCredential username op.loginCredential next) = true)
    (registered : op.loginCredential = some credential) (changed : next ≠ some credential) :
    call.PresentsAssertion platform seen username credential := by
  have removed : next = none := by
    simpa [Request.guarded, stored, registered, changed] using guarded
  obtain ⟨read, -, same, proof⟩ := allowed
  obtain ⟨other, held, presents⟩ := proof removed
  obtain rfl : credential = other := some.inj (registered.symm.trans (same.trans held))
  exact presents

theorem totpSet_keepsWatermark (allowed : call.May platform seen (.compareAndSetTOTPState username op.totp next))
    (guarded : Request.guarded system.store (.compareAndSetTOTPState username op.totp next) = true)
    (kept : next.secret = op.totpSecret) : op.totpLastUsedStep ≤ next.lastUsedStep := by
  obtain ⟨read, -, same, proof⟩ := allowed
  have secret : op.totpSecret = read.totpSecret := congrArg TOTPState.secret same
  have visible : op.totpSecret ≠ "" := by
    intro blank
    exact (proof (kept.trans blank)).1 (secret.symm.trans blank)
  simpa [Request.guarded, stored, kept, visible] using guarded

end

theorem FactorsKept.of_same {new : Operator}
    (secret : new.totpSecret = old.totpSecret) (credential : new.loginCredential = old.loginCredential) :
    FactorsKept platform system event username old new :=
  ⟨fun _ changed => absurd secret changed, fun _ registered changed => absurd (credential.trans registered) changed⟩

theorem Serves.factorsKept {after : Store} {thread : Thread} {entry : Option Entry}
    (serves : Serves system.store thread request after entry) (ledger : Ledger system.store system.history)
    (acting : system.acting event = some thread) (allowed : thread.call.May platform thread.seen request)
    (guarded : request.guarded system.store = true) (held : system.store.operators[username]? = some old) :
    ∃ new, after.operators[username]? = some new ∧ FactorsKept platform system event username old new := by
  cases serves with
  | quiet same => exact ⟨old, same ▸ held, .of_same rfl rfl⟩
  | @burned owner op step _ stored later written =>
    rw [written, Records.getElem?_insert]
    split
    · next same =>
      subst same
      obtain rfl : old = op := mem_unique held stored
      exact ⟨_, rfl, .of_same rfl rfl⟩
    · exact ⟨old, held, .of_same rfl rfl⟩
  | @totpSet owner op next _ stored written =>
    rw [written, Records.getElem?_insert]
    split
    · next same =>
      subst same
      obtain rfl : old = op := mem_unique held stored
      refine ⟨_, rfl, fun enrolled changed => ?_, fun credential registered changed => absurd registered changed⟩
      obtain ⟨step, presents⟩ := totpSet_presents stored allowed guarded enrolled changed
      refine ⟨thread, step, acting, presents, fun used => ?_⟩
      obtain ⟨_, _, _, -, verified⟩ := presents
      have unused := verifyTOTP_unused verified
      have bound := ledger.bounded owner old held step used
      omega
    · exact ⟨old, held, .of_same rfl rfl⟩
  | @credentialSet owner op next _ stored written =>
    rw [written, Records.getElem?_insert]
    split
    · next same =>
      subst same
      obtain rfl : old = op := mem_unique held stored
      refine ⟨_, rfl, fun _ changed => absurd rfl changed, fun credential registered changed => ?_⟩
      exact ⟨thread, acting, credentialSet_presents stored allowed guarded registered changed⟩
    · exact ⟨old, held, .of_same rfl rfl⟩

theorem Event.guarded_request {index : Nat} {next : Reply → Handler Response}
    (found : system.threads[index]? = some ⟨call, .ask request next, seen⟩)
    (guarded : (Event.advance index false).guarded system = true) : request.guarded system.store = true := by
  simpa [Event.guarded, found] using guarded

section

variable (sound : system.Guarded platform)

include sound

theorem System.Guarded.factorsKept (guarded : event.guarded system = true)
    (held : system.store.operators[username]? = some old) :
    ∃ new, (system.step platform event).store.operators[username]? = some new ∧
      FactorsKept platform system event username old new := by
  cases event with
  | start call => exact ⟨old, held, .of_same rfl rfl⟩
  | advance index fault =>
    simp only [System.step, System.advance]
    split
    · next call request next seen found =>
      let thread : Thread := ⟨call, .ask request next, seen⟩
      cases fault with
      | true => exact ⟨old, held, .of_same rfl rfl⟩
      | false =>
        have allowed := (sound.obeys thread (mem_of_getElem? found)).1
        have serves := serve_serves system.store false thread request
        have acting : system.acting (.advance index false) = some thread := found
        exact serves.factorsKept sound.ledger acting allowed (Event.guarded_request found guarded) held
    · exact ⟨old, held, .of_same rfl rfl⟩

theorem System.Guarded.entry {index : Nat} {fault : Bool} {next : Reply → Handler Response}
    (found : system.threads[index]? = some ⟨call, .ask request next, seen⟩)
    (guarded : (Event.advance index fault).guarded system = true) {entry : Entry}
    (made : entryOf system.store fault ⟨call, .ask request next, seen⟩ request = some entry) :
    entry.KeepsWatermark := by
  cases fault with
  | true =>
    rw [entryOf_fault] at made
    cases made
  | false =>
    have allowed := (sound.obeys _ (mem_of_getElem? found)).1
    have admitted := Event.guarded_request found guarded
    have serves := serve_serves system.store false ⟨call, .ask request next, seen⟩ request
    rw [made] at serves
    cases serves with
    | burned => trivial
    | totpSet stored written => exact totpSet_keepsWatermark stored allowed admitted

theorem System.Guarded.step (guarded : event.guarded system = true) :
    (system.step platform event).Guarded platform := by
  cases event with
  | start call =>
    refine ⟨sound.ledger, fun thread member => ?_⟩
    rcases mem_append.mp member with old | new
    · exact sound.obeys thread old
    · obtain rfl := mem_singleton.mp new
      exact call.session_obeys
  | advance index fault =>
    simp only [System.step, System.advance]
    split
    · next call request next seen found =>
      let thread : Thread := ⟨call, .ask request next, seen⟩
      have onward := (sound.obeys thread (mem_of_getElem? found)).2
      have serves := serve_serves system.store fault thread request
      refine ⟨sound.ledger.serve serves fun made marked => sound.entry found guarded marked, fun other member => ?_⟩
      rcases mem_or_eq_of_mem_set member with old | rfl
      · exact sound.obeys other old
      · exact onward fault system.store sound.ledger.keyed
    · exact sound

theorem System.Guarded.run {events : List Event} (guarded : guardedRun platform system (events ++ [event]) = true) :
    (system.run platform events).Guarded platform ∧ event.guarded (system.run platform events) = true := by
  induction events generalizing system with
  | nil => exact ⟨sound, (Bool.and_eq_true_iff.mp guarded).1⟩
  | cons first rest ih =>
    obtain ⟨now, later⟩ := Bool.and_eq_true_iff.mp guarded
    exact ih (sound.step now) later

end

end

/-- In a guarded run a second factor leaves an account only through a request that has presented it. -/
theorem second_factor_kept (platform : Platform) (store : Store) (keyed : store.Keyed) (events : List Event)
    (event : Event) (guarded : guardedRun platform { store } (events ++ [event]) = true) (username : String)
    (old : Operator) (held : (System.run platform { store } events).store.operators[username]? = some old) :
    ∃ new, ((System.run platform { store } events).step platform event).store.operators[username]? = some new ∧
      FactorsKept platform (System.run platform { store } events) event username old new := by
  have start : System.Guarded platform { store } := ⟨.start keyed, forall_mem_nil _⟩
  obtain ⟨sound, last⟩ := start.run guarded
  exact sound.factorsKept last held

def samplePasskey : LoginCredential := ⟨"webauthn-es256", "k1", "pem", "rp", "https://panel"⟩

def sampleKeyholder : Operator := { sampleAccount with loginCredential := some samplePasskey }

def sampleKeyStore : Store := { operators := Std.ExtTreeMap.insert ∅ "ada" sampleKeyholder }

def sampleArt (credentialID challenge : String) : Assertion := ⟨"webauthn-es256", credentialID, "", "", "", challenge⟩

/-- The passkey is disabled with an assertion over a challenge that was asked for. -/
def sampleDisabled : List Event := [
  .start (.passkeyDisable { actor := "ada" } (some none) sampleNow "nonce"), .advance 0 false, .advance 0 false,
  .start (.passkeyDisable { actor := "ada" } (some (some (sampleArt "k1" "nonce"))) sampleNow "unused"),
  .advance 1 false, .advance 1 false]

theorem sampleDisabled_presented :
    let before := sampleAfter sampleKeyStore sampleDisabled
    let after := before.step samplePlatform (.advance 1 false)
    guardedRun samplePlatform { store := sampleKeyStore } (sampleDisabled ++ [.advance 1 false]) = true ∧
      (after.store.operators[("ada")]?.map (·.loginCredential)) = some none ∧
      ∃ new, after.store.operators[("ada")]? = some new ∧
        FactorsKept samplePlatform before (.advance 1 false) "ada" sampleKeyholder new :=
  ⟨by decide +kernel, by decide +kernel,
    second_factor_kept samplePlatform sampleKeyStore (keyed_single sampleKeyholder) sampleDisabled (.advance 1 false)
      (by decide +kernel) "ada" sampleKeyholder (by decide +kernel)⟩

/-- A session confirms a secret of its own over the stored one. -/
def sampleSwap : List Event := [
  .start (.totpConfirm { actor := "ada" } (some { secret := "B", code := "016996" }) sampleNow), .advance 0 false]

/-- A session registers a passkey of its own over the stored one. -/
def sampleRegistered : List Event := [
  .start (.enrollmentBegin { actor := "ada" } (some "login") sampleNow "0123456789abcdef0123456789abcdef"),
  .advance 0 false, .advance 0 false,
  .start (.passkeyRegister { actor := "ada" } (some ⟨{ samplePasskey with credentialID := "k2" },
    some (sampleArt "k2" "0123456789abcdef0123456789abcdef")⟩) sampleNow sampleNow),
  .advance 1 false, .advance 1 false]

theorem sampleSwap_sheds :
    let swaps := sampleAfter sampleStore sampleSwap
    let registers := sampleAfter sampleKeyStore sampleRegistered
    (∃ new, (swaps.step samplePlatform (.advance 0 false)).store.operators[("ada")]? = some new ∧
      new.totpSecret = "B" ∧ ¬FactorsKept samplePlatform swaps (.advance 0 false) "ada" sampleAccount new) ∧
      ∃ new, (registers.step samplePlatform (.advance 1 false)).store.operators[("ada")]? = some new ∧
        new.loginCredential = some { samplePasskey with credentialID := "k2" } ∧
        ¬FactorsKept samplePlatform registers (.advance 1 false) "ada" sampleKeyholder new := by
  constructor
  · refine ⟨{ sampleAccount with totpSecret := "B", totpLastUsedStep := 100 }, by decide +kernel, rfl, fun kept => ?_⟩
    obtain ⟨thread, step, acting, ⟨caller, code, now, named, -⟩, -⟩ := kept.totp (by decide) (by decide)
    have confirms : ((sampleAfter sampleStore sampleSwap).threads[0]?.map (·.call)) =
        some (.totpConfirm { actor := "ada" } (some { secret := "B", code := "016996" }) sampleNow) := by
      decide +kernel
    have found : (sampleAfter sampleStore sampleSwap).threads[0]? = some thread := acting
    rw [found, map_some, named] at confirms
    cases confirms
  · refine ⟨{ sampleKeyholder with loginCredential := some { samplePasskey with credentialID := "k2" } },
      by decide +kernel, rfl, fun kept => ?_⟩
    obtain ⟨thread, acting, caller, art, now, minted, text, challenge, named, -⟩ :=
      kept.passkey samplePasskey rfl (by decide)
    have registers : ((sampleAfter sampleKeyStore sampleRegistered).threads[1]?.map (·.call)) =
        some (.passkeyRegister { actor := "ada" } (some ⟨{ samplePasskey with credentialID := "k2" },
          some (sampleArt "k2" "0123456789abcdef0123456789abcdef")⟩) sampleNow sampleNow) := by
      decide +kernel
    have found : (sampleAfter sampleKeyStore sampleRegistered).threads[1]? = some thread := acting
    rw [found, map_some, named] at registers
    cases registers

variable (hash : String)

def Seen.consumptions (seen : Seen) : Nat := seen.consumed.countP (·.1 = hash)

def Store.outstanding (store : Store) : Nat := if hash ∈ store.challenges then 1 else 0

def Thread.issues (thread : Thread) : Nat :=
  match thread.session with
  | .ask (.createAssertionChallenge issued ..) _ => if issued = hash then 1 else 0
  | _ => 0

/-- How often a run asks to store it. -/
def issues (platform : Platform) : System → List Event → Nat
  | _, [] => 0
  | system, event :: rest =>
    (system.acting event).elim 0 (Thread.issues hash) + issues platform (system.step platform event) rest

theorem serve_consumes (store : Store) (fault : Bool) {next : Reply → Handler Response} :
    (seen.after fault store request).consumptions hash + (store.serve fault request).1.outstanding hash ≤
      seen.consumptions hash + store.outstanding hash + Thread.issues hash ⟨call, .ask request next, seen⟩ := by
  simp only [Seen.consumptions, Store.outstanding]
  cases fault with
  | true => cases request <;> simp [Seen.after, Store.serve]
  | false =>
    cases request <;>
      grind [Seen.after, Store.serve, Thread.issues, Store.createAssertionChallenge, Store.consumeAssertionChallenge,
        Store.advanceTOTPStep, Store.compareAndSetTOTPState, Store.compareAndSetLoginCredential, Store.putOperator]

/-- However the calls interleave, they consume a challenge at most as often as it was to be stored. -/
theorem challenges_consumed_once (platform : Platform) (system : System) (events : List Event) :
    ((system.run platform events).threads.map (·.seen.consumptions hash)).sum ≤
      (system.threads.map (·.seen.consumptions hash)).sum + system.store.outstanding hash
        + issues hash platform system events := by
  induction events generalizing system with
  | nil => exact Nat.le_add_right_of_le (Nat.le_add_right ..)
  | cons event rest ih =>
    refine (ih (system.step platform event)).trans ?_
    simp only [issues, ← Nat.add_assoc]
    apply Nat.add_le_add_right
    cases event with
    | start call => simp [System.step, System.acting, Seen.consumptions]
    | advance index fault =>
      simp only [System.step, System.advance, System.acting]
      cases held : system.threads[index]? with
      | none => simp
      | some thread =>
        obtain ⟨call, _ | ⟨request, next⟩, seen⟩ := thread
        · simp
        · have served := @serve_consumes call seen request hash system.store fault next
          obtain ⟨bound, here⟩ := List.getElem?_eq_some_iff.mp held
          obtain ⟨before, later, split, -, set⟩ := exists_of_set bound
          dsimp only
          rw [set, split, here]
          simp only [map_append, map_cons, sum_append, sum_cons, Option.elim_some]
          omega

end Yaog.Accounts
