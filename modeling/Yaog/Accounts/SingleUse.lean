import Yaog.Accounts.System

/-!
# Codes are used once

A login verifies its code against the account it has read and burns the step of the code by a later request, which looks
at the last used step only.
-/

namespace Yaog.Accounts

open Controller Data List Option

variable {store : Store} {fault : Bool} {request : Request} {thread : Thread}

def stepsSince (username : String) : List Entry → List Int
  | [] => []
  | .accepted owner _ _ _ step :: rest =>
    if owner = username then step :: stepsSince username rest else stepsSince username rest
  | .totpSet owner _ stored next :: rest =>
    if owner = username ∧ next.secret ≠ stored.totpSecret then [] else stepsSince username rest

/-- The last used step of an account bounds the accepted ones, and none is accepted twice. -/
structure Ledger (store : Store) (history : List Entry) : Prop where
  keyed : store.Keyed
  nodup : ∀ username, (stepsSince username history).Nodup
  bounded : ∀ username op, store.operators[username]? = some op →
    ∀ step ∈ stepsSince username history, step ≤ op.totpLastUsedStep

def Entry.KeepsWatermark : Entry → Prop
  | .accepted .. => True
  | .totpSet _ _ stored next => next.secret = stored.totpSecret → stored.totpLastUsedStep ≤ next.lastUsedStep

section

variable {store after : Store} {history : List Entry} {thread : Thread} {request : Request} {entry : Option Entry}

theorem Ledger.start (keyed : store.Keyed) : Ledger store [] :=
  ⟨keyed, fun _ => nodup_nil, nofun⟩

theorem Ledger.serve (ledger : Ledger store history) (serves : Serves store thread request after entry)
    (keeps : ∀ made, entry = some made → made.KeepsWatermark) : Ledger after (entry.toList ++ history) := by
  refine ⟨serves.keyed ledger.keyed, fun username => ?_, fun username op held step member => ?_⟩
  · cases serves with
    | quiet | credentialSet => exact ledger.nodup username
    | @burned owner op step _ stored later written =>
      change (if owner = username then step :: stepsSince username history else stepsSince username history).Nodup
      split
      · next same =>
        refine nodup_cons.mpr ⟨fun old => ?_, ledger.nodup username⟩
        have bound := ledger.bounded username op (same ▸ stored) step old
        omega
      · exact ledger.nodup username
    | @totpSet owner op next _ stored written =>
      change (if owner = username ∧ next.secret ≠ op.totpSecret then [] else stepsSince username history).Nodup
      split
      · exact nodup_nil
      · exact ledger.nodup username
  · cases serves with
    | quiet same =>
      rw [same] at held
      exact ledger.bounded username op held step member
    | @credentialSet owner old next _ stored written =>
      rw [written, Records.getElem?_insert] at held
      split at held
      · next same =>
        cases held
        exact ledger.bounded username old (same ▸ stored) step member
      · exact ledger.bounded username op held step member
    | @burned owner old burnt _ stored later written =>
      rw [written, Records.getElem?_insert] at held
      change step ∈ (if owner = username then burnt :: stepsSince username history else stepsSince username history)
        at member
      split at held
      · next same =>
        cases held
        rw [if_pos same] at member
        change step ≤ burnt
        rcases mem_cons.mp member with rfl | earlier
        · exact le_refl step
        · have bound := ledger.bounded username old (same ▸ stored) step earlier
          omega
      · next other =>
        rw [if_neg other] at member
        exact ledger.bounded username op held step member
    | @totpSet owner old next _ stored written =>
      rw [written, Records.getElem?_insert] at held
      change step ∈ (if owner = username ∧ next.secret ≠ old.totpSecret then [] else stepsSince username history)
        at member
      split at member
      · exact absurd member not_mem_nil
      next unchanged =>
      split at held
      · next same =>
        cases held
        have secret : next.secret = old.totpSecret := by
          by_contra apart
          exact unchanged ⟨same, apart⟩
        have raised : old.totpLastUsedStep ≤ next.lastUsedStep := keeps _ rfl secret
        have bound := ledger.bounded username old (same ▸ stored) step member
        change step ≤ next.lastUsedStep
        omega
      · exact ledger.bounded username op held step member

end

def Thread.burns (username : String) (thread : Thread) : Bool :=
  match thread.session with
  | .ask (.advanceTOTPStep owner _) _ => owner = username
  | _ => false

/-- A secret is replaced while no login is about to burn a step, and one that is confirmed again does not
set the last used step back. -/
def Request.orderly (system : System) : Request → Bool
  | .compareAndSetTOTPState username expected next =>
    match system.store.operators[username]? with
    | none => true
    | some op => op.totp ≠ expected ||
        if next.secret = op.totpSecret then op.totpLastUsedStep ≤ next.lastUsedStep
        else !system.threads.any (Thread.burns username)
  | _ => true

def Event.orderly (system : System) : Event → Bool
  | .advance index false =>
    match system.threads[index]? with
    | some ⟨_, .ask request _, _⟩ => request.orderly system
    | _ => true
  | _ => true

def orderlyRun (platform : Platform) : System → List Event → Bool
  | _, [] => true
  | system, event :: rest => event.orderly system && orderlyRun platform (system.step platform event) rest

def Thread.Armed (store : Store) (thread : Thread) : Prop :=
  ∀ username step next, thread.session = .ask (.advanceTOTPStep username step) next →
    ∃ account, thread.seen.read = some account ∧
      ∀ op, store.operators[username]? = some op → account.totpSecret = op.totpSecret

def Entry.Verified (platform : Platform) : Entry → Prop
  | .accepted _ call read stored step => ∃ account, read = some account ∧
      account.totpSecret = stored.totpSecret ∧ call.LogsInWith platform account step
  | .totpSet .. => True

structure System.Orderly (platform : Platform) (system : System) : Prop where
  ledger : Ledger system.store system.history
  obeys : ∀ thread ∈ system.threads,
    Session.Obeys (callProtocol platform thread.call) thread.seen thread.session fun _ _ => True
  armed : ∀ thread ∈ system.threads, thread.Armed system.store
  verified : ∀ entry ∈ system.history, entry.Verified platform

section

variable {platform : Platform} {system : System} {seen : Seen} {index : Nat} {after : Store} {entry : Option Entry}
  {waiting : Thread}

theorem Seen.after_fresh (fresh : (seen.after fault store request).fresh = true) :
    ∃ username, request = .getOperator username ∧
      (seen.after fault store request).read = if fault then none else store.operators[username]? := by
  cases request with
  | getOperator username => exact ⟨username, rfl, rfl⟩
  | _ => cases fresh

def Entry.Idle (system : System) : Entry → Prop
  | .accepted .. => True
  | .totpSet username _ stored next => next.secret ≠ stored.totpSecret →
      ∀ thread ∈ system.threads, thread.burns username = false

theorem Event.orderly_entry
    {next : Reply → Handler Response} (orderly : (Event.advance index fault).orderly system = true)
    (found : system.threads[index]? = some thread) (asks : thread.session = .ask request next) {entry : Entry}
    (made : entryOf system.store fault thread request = some entry) :
    entry.KeepsWatermark ∧ entry.Idle system := by
  obtain ⟨call, session, seen⟩ := thread
  subst asks
  cases fault with
  | true =>
    rw [entryOf_fault] at made
    cases made
  | false =>
    have admitted : request.orderly system = true := by
      simpa [Event.orderly, found] using orderly
    have serves := serve_serves system.store false ⟨call, .ask request next, seen⟩ request
    rw [made] at serves
    cases serves with
    | burned => exact ⟨trivial, trivial⟩
    | @totpSet owner old state _ stored written =>
      by_cases same : state.secret = old.totpSecret
      · have raised : old.totpLastUsedStep ≤ state.lastUsedStep := by
          simpa [Request.orderly, stored, same] using admitted
        exact ⟨fun _ => raised, fun apart => absurd same apart⟩
      · have idle : ∀ thread ∈ system.threads, thread.burns owner = false := by
          simpa [Request.orderly, stored, same] using admitted
        exact ⟨fun equal => absurd equal same, fun _ => idle⟩

theorem Serves.secret (serves : Serves system.store thread request after entry)
    (idle : ∀ made, entry = some made → made.Idle system) (member : waiting ∈ system.threads) {username : String}
    (burns : waiting.burns username = true) {op : Operator} (held : after.operators[username]? = some op) :
    ∃ old, system.store.operators[username]? = some old ∧ old.totpSecret = op.totpSecret := by
  cases serves with
  | quiet same =>
    rw [same] at held
    exact ⟨op, held, rfl⟩
  | @credentialSet owner old next _ stored written =>
    rw [written, Records.getElem?_insert] at held
    split at held
    · next same =>
      cases held
      exact ⟨old, same ▸ stored, rfl⟩
    · exact ⟨op, held, rfl⟩
  | @burned owner old step _ stored later written =>
    rw [written, Records.getElem?_insert] at held
    split at held
    · next same =>
      cases held
      exact ⟨old, same ▸ stored, rfl⟩
    · exact ⟨op, held, rfl⟩
  | @totpSet owner old next _ stored written =>
    rw [written, Records.getElem?_insert] at held
    split at held
    · next same =>
      cases held
      subst same
      refine ⟨old, stored, ?_⟩
      by_contra apart
      have quiet := idle _ rfl (fun equal => apart equal.symm) waiting member
      exact absurd burns (by simp [quiet])
    · exact ⟨op, held, rfl⟩

theorem Thread.Armed.kept (armed : waiting.Armed system.store) (member : waiting ∈ system.threads)
    (serves : Serves system.store thread request after entry) (idle : ∀ made, entry = some made → made.Idle system) :
    waiting.Armed after := by
  intro username step next asks
  obtain ⟨account, read, same⟩ := armed username step next asks
  have burns : waiting.burns username = true := by simp [Thread.burns, asks]
  refine ⟨account, read, fun op held => ?_⟩
  obtain ⟨old, stored, kept⟩ := serves.secret idle member burns held
  exact (same old stored).trans kept

theorem armed_of_obeys {call : Call} {session : Handler Response} (keyed : store.Keyed)
    (obeys : Session.Obeys (callProtocol platform call) (seen.after fault store request) session fun _ _ => True) :
    Thread.Armed (store.serve fault request).1 ⟨call, session, seen.after fault store request⟩ := by
  intro username step next asks
  subst asks
  obtain ⟨⟨fresh, account, ⟨read, named⟩, -⟩, -⟩ := obeys
  refine ⟨account, read, fun op held => ?_⟩
  obtain ⟨looked, rfl, known⟩ := Seen.after_fresh fresh
  rw [read] at known
  cases fault with
  | true => cases known
  | false =>
    have stored : store.operators[looked]? = some account := known.symm
    have own : looked = username := (keyed looked account stored).symm.trans named
    have same : store.operators[username]? = some op := held
    rw [← own, stored] at same
    exact congrArg Operator.totpSecret (some.inj same)

theorem System.Orderly.advance (sound : system.Orderly platform)
    (orderly : (Event.advance index fault).orderly system = true) : (system.advance index fault).Orderly platform := by
  unfold System.advance
  split
  · next call request next seen found =>
    let thread : Thread := ⟨call, .ask request next, seen⟩
    have listed : thread ∈ system.threads := mem_of_getElem? found
    obtain ⟨allowed, onward⟩ := sound.obeys thread listed
    have serves := serve_serves system.store fault thread request
    have served := onward fault system.store sound.ledger.keyed
    have admitted (made : Entry) (marked : entryOf system.store fault thread request = some made) :=
      Event.orderly_entry orderly found rfl marked
    refine ⟨sound.ledger.serve serves fun made marked => (admitted made marked).1, fun other member => ?_,
      fun other member => ?_, fun entry member => ?_⟩
    · rcases mem_or_eq_of_mem_set member with old | rfl
      · exact sound.obeys other old
      · exact served
    · rcases mem_or_eq_of_mem_set member with old | rfl
      · exact (sound.armed other old).kept old serves fun made marked => (admitted made marked).2
      · exact armed_of_obeys sound.ledger.keyed served
    · rcases mem_append.mp member with new | old
      · have marked : entryOf system.store fault thread request = some entry := mem_toList.mp new
        rw [marked] at serves
        cases serves with
        | totpSet => trivial
        | @burned owner op step _ stored later written =>
          obtain ⟨account, read, same⟩ := sound.armed thread listed owner step next rfl
          obtain ⟨-, other, ⟨readToo, -⟩, logsIn⟩ := allowed
          obtain rfl : account = other := mem_unique read readToo
          exact ⟨account, read, same op stored, logsIn⟩
      · exact sound.verified entry old
  · exact sound

theorem System.Orderly.step (sound : system.Orderly platform) {event : Event} (orderly : event.orderly system = true) :
    (system.step platform event).Orderly platform := by
  cases event with
  | start call =>
    refine ⟨sound.ledger, fun thread member => ?_, fun thread member => ?_, sound.verified⟩
    · rcases mem_append.mp member with old | new
      · exact sound.obeys thread old
      · obtain rfl := mem_singleton.mp new
        exact call.session_obeys
    · rcases mem_append.mp member with old | new
      · exact sound.armed thread old
      · obtain rfl := mem_singleton.mp new
        intro username step next asks
        have obeys : Session.Obeys (callProtocol platform call) {} (call.session platform) fun _ _ => True :=
          call.session_obeys
        change call.session platform = _ at asks
        rw [asks] at obeys
        cases obeys.1.1
  | advance index fault => exact sound.advance orderly

theorem System.Orderly.run (sound : system.Orderly platform) {events : List Event}
    (orderly : orderlyRun platform system events = true) : (system.run platform events).Orderly platform := by
  induction events generalizing system with
  | nil => exact sound
  | cons event rest ih =>
    obtain ⟨first, later⟩ := Bool.and_eq_true_iff.mp orderly
    exact ih (sound.step first) later

end

/-- In an orderly run every accepted code was verified against the secret stored when its step was burned,
and no step is accepted twice under one secret. -/
theorem totp_codes_single_use (platform : Platform) (store : Store) (keyed : store.Keyed) (events : List Event)
    (orderly : orderlyRun platform { store } events = true) :
    (∀ username call read stored step,
      .accepted username call read stored step ∈ (System.run platform { store } events).history →
      ∃ account, read = some account ∧ account.totpSecret = stored.totpSecret ∧
        call.LogsInWith platform account step) ∧
      ∀ username, (stepsSince username (System.run platform { store } events).history).Nodup := by
  have start : System.Orderly platform { store } :=
    ⟨.start keyed, forall_mem_nil _, forall_mem_nil _, forall_mem_nil _⟩
  have sound := start.run orderly
  exact ⟨fun username call read stored step member => sound.verified _ member, sound.ledger.nodup⟩

def sampleBytes (text : String) : List UInt8 := text.toList.map fun char => UInt8.ofNat char.toNat

/-- The code of a step is made of the first byte of the secret and the last byte of the step. -/
def samplePlatform : Platform where
  toUpper := id
  decodeBase32 text := some (sampleBytes text)
  hmacSHA1 key message := [0, 0, key.headD 0, message.getLastD 0] ++ List.replicate 16 0
  verifyPassword hash password := hash = password
  hashToken := id
  assertionChallenge art := some art.clientDataJSON
  decodeBase64URL text := some (sampleBytes text)
  parseEd25519PinPEM text := some (sampleBytes text)
  parseES256Pin text := some (sampleBytes text)
  verifyAssertion art pin _ := art.credentialID = pin.credentialID
  verifyUserVerifiedAssertion art pin _ := art.credentialID = pin.credentialID

def sampleNow : Int := 3000 * 1000000000

def sampleAccount : Operator := { username := "ada", passwordHash := "pw", totpSecret := "A" }

def sampleStore : Store := { operators := Std.ExtTreeMap.insert ∅ "ada" sampleAccount }

theorem keyed_single (op : Operator) :
    Store.Keyed { operators := Std.ExtTreeMap.insert ∅ op.username op } := by
  have none : Store.Keyed {} := by
    intro username found held
    simp at held
  exact none.insert rfl rfl

def sampleLogin (code : String) : Call :=
  .login {} (some { username := "ada", password := "pw", totp := code }) sampleNow
    { challenge := "c", sessionToken := "t", sessionTTL := 1 }

/-- Two logins one after the other, and a new secret between them. -/
def sampleTidy : List Event := [
  .start (sampleLogin "016740"), .advance 0 false, .advance 0 false,
  .start (.totpConfirm { actor := "ada" } (some { secret := "B", code := "016996" }) sampleNow),
  .advance 1 false, .advance 1 false,
  .start (sampleLogin "016997"), .advance 2 false, .advance 2 false]

def sampleAfter (store : Store) (events : List Event) : System := System.run samplePlatform { store } events

theorem sampleTidy_single_use :
    orderlyRun samplePlatform { store := sampleStore } sampleTidy = true ∧
      (sampleAfter sampleStore sampleTidy).history.length = 3 ∧
      ∀ username, (stepsSince username (sampleAfter sampleStore sampleTidy).history).Nodup :=
  ⟨by decide +kernel, by decide +kernel,
    (totp_codes_single_use samplePlatform sampleStore (keyed_single sampleAccount) sampleTidy (by decide +kernel)).2⟩

/-- A login reads the account, TOTP is disabled, and the login burns its step. -/
def sampleLate : List Event := [
  .start (sampleLogin "016740"), .advance 0 false,
  .start (.totpDisable { actor := "ada" } (some "016740") sampleNow), .advance 1 false, .advance 1 false,
  .advance 0 false]

/-- A code of the next step is used, the secret is confirmed again with a code of the current one, and the
first code is used once more. -/
def sampleReconfirmed : List Event := [
  .start (sampleLogin "016741"), .advance 0 false, .advance 0 false,
  .start (.totpConfirm { actor := "ada" } (some { secret := "A", code := "016740" }) sampleNow),
  .advance 1 false, .advance 1 false,
  .start (sampleLogin "016741"), .advance 2 false, .advance 2 false]

theorem sampleCodes_reused :
    (∃ username call read stored step,
      .accepted username call read stored step ∈ (sampleAfter sampleStore sampleLate).history ∧
      ¬∃ account, read = some account ∧ account.totpSecret = stored.totpSecret ∧
        call.LogsInWith samplePlatform account step) ∧
      ¬(stepsSince "ada" (sampleAfter sampleStore sampleReconfirmed).history).Nodup := by
  refine ⟨⟨"ada", sampleLogin "016740", some sampleAccount, { sampleAccount with totpSecret := "" }, 100, ?_, ?_⟩, ?_⟩
  · decide +kernel
  · intro ⟨account, read, same, _⟩
    cases read
    exact absurd same (by decide)
  · decide +kernel

end Yaog.Accounts
