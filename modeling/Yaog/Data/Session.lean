import Mathlib.Tactic

/-!
# Programs that talk to a shared store

A session makes one request at a time and goes on with the reply, so that other sessions may be served in between.
-/

namespace Yaog.Data

inductive Session (Req Rep α : Type) where
  | done (value : α)
  | ask (request : Req) (next : Rep → Session Req Rep α)

namespace Session

variable {Req Rep α β χ σ φ ε : Type} {first : Session Req Rep α}

protected def bind : Session Req Rep α → (α → Session Req Rep β) → Session Req Rep β
  | .done value, next => next value
  | .ask request rest, next => .ask request fun reply => (rest reply).bind next

def andThen (first : Session Req Rep (Except ε α)) (next : α → Session Req Rep (Except ε β)) :
    Session Req Rep (Except ε β) :=
  first.bind fun
    | .ok value => next value
    | .error reason => .done (.error reason)

def alone (serve : σ → Req → σ × Rep) : σ → Session Req Rep α → σ × α
  | state, .done value => (state, value)
  | state, .ask request next =>
    let (after, reply) := serve state request
    alone serve after (next reply)

def Leaves (serve : σ → Req → σ × Rep) (state : σ) (session : Session Req Rep α) (ends : α → σ → Prop) : Prop :=
  ends (alone serve state session).2 (alone serve state session).1

section

variable {serve : σ → Req → σ × Rep} {state : σ} {ends : α → σ → Prop}

theorem Leaves.mono {session : Session Req Rep α} {ends' : α → σ → Prop}
    (leaves : Leaves serve state session ends) (weaker : ∀ value last, ends value last → ends' value last) :
    Leaves serve state session ends' :=
  weaker _ _ leaves

theorem Leaves.ask {request : Req} {next : Rep → Session Req Rep α}
    (leaves : Leaves serve (serve state request).1 (next (serve state request).2) ends) :
    Leaves serve state (.ask request next) ends :=
  leaves

theorem Leaves.bind {next : α → Session Req Rep β} {ends : β → σ → Prop}
    (leaves : Leaves serve state first fun value last => Leaves serve last (next value) ends) :
    Leaves serve state (first.bind next) ends := by
  induction first generalizing state with
  | done value => exact leaves
  | ask request rest ih => exact ih _ leaves

theorem Leaves.andThen {first : Session Req Rep (Except ε α)} {next : α → Session Req Rep (Except ε β)}
    {ends : Except ε β → σ → Prop}
    (leaves : Leaves serve state first fun result last =>
      match result with
      | .ok value => Leaves serve last (next value) ends
      | .error reason => ends (.error reason) last) :
    Leaves serve state (first.andThen next) ends := by
  apply Leaves.bind
  apply leaves.mono
  intro result last holds
  cases result with
  | ok value => exact holds
  | error reason => exact holds

end

end Session

/-- `serve` answers a request, with some choice left open; `keeps` holds of the store at all times. -/
structure Protocol (χ σ Req Rep φ : Type) where
  serve : χ → σ → Req → σ × Rep
  keeps : σ → Prop
  allowed : φ → Req → Prop
  track : φ → χ → σ → Req → φ

namespace Session

variable {Req Rep α β χ σ φ ε : Type} {protocol : Protocol χ σ Req Rep φ} {first : Session Req Rep α}
  {ends : α → φ → Prop} {tracked : φ}

def Obeys (protocol : Protocol χ σ Req Rep φ) : φ → Session Req Rep α → (α → φ → Prop) → Prop
  | tracked, .done value, ends => ends value tracked
  | tracked, .ask request next, ends => protocol.allowed tracked request ∧
      ∀ choice state, protocol.keeps state → Obeys protocol (protocol.track tracked choice state request)
        (next (protocol.serve choice state request).2) ends

theorem Obeys.done {value : α} (holds : ends value tracked) :
    Obeys protocol tracked (.done value : Session Req Rep α) ends := holds

theorem Obeys.ask {request : Req} {next : Rep → Session Req Rep α}
    (allowed : protocol.allowed tracked request)
    (onward : ∀ choice state, protocol.keeps state → Obeys protocol (protocol.track tracked choice state request)
      (next (protocol.serve choice state request).2) ends) :
    Obeys protocol tracked (.ask request next) ends := ⟨allowed, onward⟩

theorem Obeys.ite {condition : Prop} [Decidable condition] {second : Session Req Rep α}
    (holds : condition → Obeys protocol tracked first ends) (fails : ¬ condition → Obeys protocol tracked second ends) :
    Obeys protocol tracked (if condition then first else second) ends := by
  split
  case isTrue met => exact holds met
  case isFalse unmet => exact fails unmet

theorem Obeys.mono {session : Session Req Rep α} {ends' : α → φ → Prop}
    (obeys : Obeys protocol tracked session ends) (weaker : ∀ value last, ends value last → ends' value last) :
    Obeys protocol tracked session ends' := by
  induction session generalizing tracked with
  | done value => exact weaker value tracked obeys
  | ask request next ih =>
    exact ⟨obeys.1, fun choice state kept => ih _ (obeys.2 choice state kept)⟩

theorem Obeys.bind {next : α → Session Req Rep β} {ends : β → φ → Prop}
    (obeys : Obeys protocol tracked first fun value last => Obeys protocol last (next value) ends) :
    Obeys protocol tracked (first.bind next) ends := by
  induction first generalizing tracked with
  | done value => exact obeys
  | ask request rest ih =>
    exact ⟨obeys.1, fun choice state kept => ih _ (obeys.2 choice state kept)⟩

theorem Obeys.andThen {first : Session Req Rep (Except ε α)}
    {next : α → Session Req Rep (Except ε β)} {ends : Except ε β → φ → Prop}
    (obeys : Obeys protocol tracked first fun result last =>
      match result with
      | .ok value => Obeys protocol last (next value) ends
      | .error reason => ends (.error reason) last) :
    Obeys protocol tracked (first.andThen next) ends := by
  apply Obeys.bind
  apply obeys.mono
  intro result last holds
  cases result with
  | ok value => exact holds
  | error reason => exact holds

end Session

end Yaog.Data
