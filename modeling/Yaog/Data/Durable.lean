import Mathlib.Logic.Relation
import Mathlib.Tactic

/-!
# Programs over durable records

A program reads a state and changes it by atomic writes. A plan of faults decides what happens at each write: it takes
effect, it reports an error with or without having taken effect, or the process dies before it.
-/

namespace Yaog.Data

/-- What happens at one write. -/
inductive Fault where
  | applied | refused | unreported | halted

inductive Outcome (ε α : Type) where
  | done (value : α)
  | failed (reason : ε)
  | halted
  deriving DecidableEq, Repr

def Outcome.value? {ε α : Type} : Outcome ε α → Option α
  | .done value => some value
  | .failed _ | .halted => none

theorem Outcome.eq_done {ε α : Type} {outcome : Outcome ε α} {value : α} (ended : outcome.value? = some value) :
    outcome = .done value := by
  cases outcome with
  | done other => exact congrArg Outcome.done (Option.some.inj ended)
  | failed reason => cases ended
  | halted => cases ended

section

variable {α β ε δ : Type} {result : Except ε α}

theorem bind_ok {first : Except ε α} {next : α → Except ε β} {result : β}
    (returns : (first >>= next) = .ok result) : ∃ value, first = .ok value ∧ next value = .ok result := by
  cases first with
  | error reason => cases returns
  | ok value => exact ⟨value, rfl, returns⟩

theorem mapError_eq_ok {wrap : ε → δ} {value : α} (good : result.mapError wrap = .ok value) :
    result = .ok value := by
  cases result with
  | error reason => cases good
  | ok found => exact congrArg Except.ok (Except.ok.inj good)

theorem map_eq_ok {change : α → β} {value : β} (good : result.map change = .ok value) :
    ∃ found, result = .ok found ∧ change found = value := by
  cases result with
  | error reason => cases good
  | ok found => exact ⟨found, rfl, Except.ok.inj good⟩

end

/-- How a program left off: its outcome, the state, and the rest of the plan. -/
structure Ended (σ ε α : Type) where
  outcome : Outcome ε α
  state : σ
  plan : List Fault

def Durable (σ ε α : Type) := σ → List Fault → Ended σ ε α

namespace Durable

variable {σ ε α β : Type}

protected def pure (value : α) : Durable σ ε α := fun state plan => ⟨.done value, state, plan⟩

protected def bind (first : Durable σ ε α) (next : α → Durable σ ε β) : Durable σ ε β :=
  fun state plan =>
    match first state plan with
    | ⟨.done value, after, rest⟩ => next value after rest
    | ⟨.failed reason, after, rest⟩ => ⟨.failed reason, after, rest⟩
    | ⟨.halted, after, rest⟩ => ⟨.halted, after, rest⟩

instance : Monad (Durable σ ε) where
  pure := Durable.pure
  bind := Durable.bind

def fail (reason : ε) : Durable σ ε α := fun state plan => ⟨.failed reason, state, plan⟩

def read : Durable σ ε σ := fun state plan => ⟨.done state, state, plan⟩

/-- One atomic write; the result says whether it reported success. A plan that has run out lets
every write take effect. -/
def attempt (change : σ → σ) : Durable σ ε Bool := fun state plan =>
  match plan with
  | [] => ⟨.done true, change state, []⟩
  | .applied :: rest => ⟨.done true, change state, rest⟩
  | .refused :: rest => ⟨.done false, state, rest⟩
  | .unreported :: rest => ⟨.done false, change state, rest⟩
  | .halted :: rest => ⟨.halted, state, rest⟩

def require (condition : Prop) [Decidable condition] (reason : ε) : Durable σ ε Unit :=
  if condition then pure () else fail reason

def lift : Except ε α → Durable σ ε α
  | .ok value => pure value
  | .error reason => fail reason

def write (change : σ → σ) (reason : ε) : Durable σ ε Unit := do
  let reported ← attempt change
  require (reported = true) reason

def tryWrite (change : σ → σ) : Durable σ ε Unit := do
  let _ ← attempt change
  pure ()

def attemptExact (change : σ → σ) : Durable σ ε Bool := fun state plan =>
  match plan with
  | [] => ⟨.done true, change state, []⟩
  | .applied :: rest | .unreported :: rest => ⟨.done true, change state, rest⟩
  | .refused :: rest => ⟨.done false, state, rest⟩
  | .halted :: rest => ⟨.halted, state, rest⟩

def advance (change : σ → σ) : Durable σ ε Unit := fun state plan => ⟨.done (), change state, plan⟩

def observe {δ : Type} (program : Durable σ ε α) : Durable σ δ (Except ε α) := fun state plan =>
  match program state plan with
  | ⟨.done value, after, rest⟩ => ⟨.done (.ok value), after, rest⟩
  | ⟨.failed reason, after, rest⟩ => ⟨.done (.error reason), after, rest⟩
  | ⟨.halted, after, rest⟩ => ⟨.halted, after, rest⟩

def mapFail {δ : Type} (wrap : ε → δ) (program : Durable σ ε α) : Durable σ δ α := do
  let result ← observe program
  lift (result.mapError wrap)

/-- Under every plan the program ends in a state of `ends` when it returns and of `stops` when it
fails or the process dies. -/
def Ensures (state : σ) (program : Durable σ ε α) (stops : σ → Prop) (ends : α → σ → Prop) : Prop :=
  ∀ plan,
    match program state plan with
    | ⟨.done value, after, _⟩ => ends value after
    | ⟨_, after, _⟩ => stops after

/-- However the program ends, it leaves a state of `holds`. -/
abbrev Keeps (state : σ) (program : Durable σ ε α) (holds : σ → Prop) : Prop :=
  Ensures state program holds fun _ => holds

/-- Failures told from deaths. -/
def Meets (state : σ) (program : Durable σ ε α) (halts fails : σ → Prop) (ends : α → σ → Prop) : Prop :=
  ∀ plan,
    match program state plan with
    | ⟨.done value, after, _⟩ => ends value after
    | ⟨.failed _, after, _⟩ => fails after
    | ⟨.halted, after, _⟩ => halts after

variable {δ : Type} {state : σ} {stops stops' halts halts' fails fails' : σ → Prop} {ends ends' : α → σ → Prop}
  {reason : ε} {first program : Durable σ ε α} {next : α → Durable σ ε β} {change : σ → σ} {condition : Prop}
  {result : Except ε α} {items : List β} {body : β → Durable σ ε Unit} {told : Except ε α → σ → Prop} {value : α}
  {wrap : ε → δ} {keeps : σ → Prop}

theorem Meets.mono (holds : Meets state program halts fails ends)
    (halted : ∀ after, halts after → halts' after) (failed : ∀ after, fails after → fails' after)
    (ended : ∀ value after, ends value after → ends' value after) : Meets state program halts' fails' ends' := by
  intro plan
  have run := holds plan
  cases left : program state plan with
  | mk outcome after rest =>
    rw [left] at run
    cases outcome with
    | done value => exact ended value after run
    | failed reason => exact failed after run
    | halted => exact halted after run

theorem Meets.bind {ends : β → σ → Prop}
    (holds : Meets state first halts fails fun value after => Meets after (next value) halts fails ends) :
    Meets state (first >>= next) halts fails ends := by
  intro plan
  change match Durable.bind first next state plan with
    | ⟨.done value, after, _⟩ => ends value after
    | ⟨.failed _, after, _⟩ => fails after
    | ⟨.halted, after, _⟩ => halts after
  have run := holds plan
  unfold Durable.bind
  cases left : first state plan with
  | mk outcome after rest =>
    rw [left] at run
    cases outcome with
    | done value => exact run rest
    | failed reason => exact run
    | halted => exact run

theorem Meets.observe (holds : Meets state program halts fails' fun value => told (.ok value))
    (failed : ∀ reason after, fails' after → told (.error reason) after) :
    Meets state (observe program : Durable σ δ (Except ε α)) halts fails told := by
  intro plan
  have run := holds plan
  unfold Durable.observe
  cases left : program state plan with
  | mk outcome after rest =>
    rw [left] at run
    cases outcome with
    | done value => exact run
    | failed reason => exact failed reason after run
    | halted => exact run

theorem ensures_iff : Ensures state program stops ends ↔ Meets state program stops stops ends := by
  apply forall_congr'
  intro plan
  cases program state plan with
  | mk outcome after rest => cases outcome <;> rfl

theorem Ensures.pure (holds : ends value state) :
    Ensures state (pure value : Durable σ ε α) stops ends :=
  fun _ => holds

theorem Ensures.fail (holds : stops state) : Ensures state (fail reason : Durable σ ε α) stops ends :=
  fun _ => holds

theorem Ensures.read {ends : σ → σ → Prop} (holds : ends state state) :
    Ensures state (read : Durable σ ε σ) stops ends :=
  fun _ => holds

theorem Ensures.bind {ends : β → σ → Prop}
    (holds : Ensures state first stops fun value after => Ensures after (next value) stops ends) :
    Ensures state (first >>= next) stops ends := by
  simp only [ensures_iff] at holds ⊢
  exact .bind holds

theorem Ensures.meets (holds : Ensures state program stops ends)
    (halted : ∀ after, stops after → halts after) (failed : ∀ after, stops after → fails after) :
    Meets state program halts fails ends :=
  (ensures_iff.mp holds).mono halted failed fun _ _ ended => ended

theorem Ensures.mono (holds : Ensures state program stops ends) (stopped : ∀ after, stops after → stops' after)
    (ended : ∀ value after, ends value after → ends' value after) :
    Ensures state program stops' ends' :=
  ensures_iff.mpr ((ensures_iff.mp holds).mono stopped stopped ended)

theorem Ensures.weaken (holds : Ensures state program stops ends)
    (ended : ∀ value after, ends value after → ends' value after) : Ensures state program stops ends' :=
  holds.mono (fun _ stopped => stopped) ended

theorem Ensures.trivial : Ensures state program (fun _ => True) fun _ _ => True := by
  intro plan
  cases program state plan with
  | mk outcome after rest => cases outcome <;> exact True.intro

theorem Ensures.and (first : Ensures state program stops ends) (second : Ensures state program stops' ends') :
    Ensures state program (fun after => stops after ∧ stops' after)
      fun value after => ends value after ∧ ends' value after := by
  intro plan
  have one := first plan
  have two := second plan
  cases left : program state plan with
  | mk outcome after rest =>
    rw [left] at one two
    cases outcome <;> exact ⟨one, two⟩

theorem Ensures.attempt {ends : Bool → σ → Prop} (before : stops state) (refused : ends false state)
    (unreported : ends false (change state)) (applied : ends true (change state)) :
    Ensures state (attempt change : Durable σ ε Bool) stops ends := by
  intro plan
  cases plan with
  | nil => exact applied
  | cons fault rest =>
    cases fault with
    | applied => exact applied
    | refused => exact refused
    | unreported => exact unreported
    | halted => exact before

theorem Ensures.attemptExact {ends : Bool → σ → Prop}
    (before : stops state) (refused : ends false state) (applied : ends true (change state)) :
    Ensures state (attemptExact change : Durable σ ε Bool) stops ends := by
  intro plan
  cases plan with
  | nil => exact applied
  | cons fault rest =>
    cases fault with
    | applied => exact applied
    | refused => exact refused
    | unreported => exact applied
    | halted => exact before

theorem Ensures.require [Decidable condition] {ends : Unit → σ → Prop}
    (otherwise : ¬condition → stops state) (holds : condition → ends () state) :
    Ensures state (require condition reason) stops ends := by
  unfold Durable.require
  split
  · next met => exact .pure (holds met)
  · next unmet => exact .fail (otherwise unmet)

theorem Ensures.lift (otherwise : ∀ reason, result = .error reason → stops state)
    (holds : ∀ value, result = .ok value → ends value state) :
    Ensures state (lift result) stops ends := by
  cases result with
  | ok value => exact .pure (holds value rfl)
  | error reason => exact .fail (otherwise reason rfl)

section

variable {ends : β → σ → Prop}

theorem Ensures.trivial_bind (holds : ∀ value after, Ensures after (next value) (fun _ => True) ends) :
    Ensures state (first >>= next) (fun _ => True) ends :=
  .bind (trivial.weaken fun value after _ => holds value after)

theorem Ensures.read_bind {next : σ → Durable σ ε β} (holds : Ensures state (next state) stops ends) :
    Ensures state (Durable.read >>= next) stops ends :=
  .bind (.read holds)

theorem Ensures.require_bind [Decidable condition] {next : Unit → Durable σ ε β}
    (otherwise : ¬condition → stops state) (holds : condition → Ensures state (next ()) stops ends) :
    Ensures state (Durable.require condition reason >>= next) stops ends :=
  .bind (.require otherwise holds)

theorem Ensures.lift_bind (otherwise : ∀ reason, result = .error reason → stops state)
    (holds : ∀ value, result = .ok value → Ensures state (next value) stops ends) :
    Ensures state (Durable.lift result >>= next) stops ends :=
  .bind (.lift otherwise holds)

end

theorem Ensures.advance {ends : Unit → σ → Prop} (holds : ends () (change state)) :
    Ensures state (advance change : Durable σ ε Unit) stops ends :=
  fun _ => holds

theorem Ensures.observe (holds : Ensures state program stops fun value => told (.ok value))
    (failed : ∀ reason after, stops after → told (.error reason) after) :
    Ensures state (observe program : Durable σ δ (Except ε α)) stops told :=
  ensures_iff.mpr (.observe (ensures_iff.mp holds) failed)

theorem Ensures.mapFail
    (holds : Ensures state program stops ends) : Ensures state (mapFail wrap program) stops ends := by
  refine .bind ?_
  apply Ensures.observe
  · exact holds.weaken fun value after ended => .pure ended
  · exact fun reason after stopped => .fail stopped

theorem Ensures.write {ends : Unit → σ → Prop}
    (before : stops state) (after : stops (change state)) (applied : ends () (change state)) :
    Ensures state (write change reason) stops ends := by
  refine .bind ?_
  apply Ensures.attempt
  · exact before
  · exact .require (fun _ => before) nofun
  · exact .require (fun _ => after) nofun
  · exact .require (fun absurd => (absurd rfl).elim) (fun _ => applied)

theorem Ensures.tryWrite {ends : Unit → σ → Prop} (before : stops state)
    (skipped : ends () state) (applied : ends () (change state)) :
    Ensures state (tryWrite change : Durable σ ε Unit) stops ends := by
  refine .bind ?_
  apply Ensures.attempt
  · exact before
  · exact .pure skipped
  · exact .pure applied
  · exact .pure applied

/-- A loop keeps what each round keeps; `round` is told which items the rounds before have served. -/
theorem Ensures.forM (kept : List β → σ → Prop) (start : kept [] state)
    (round : ∀ served item rest after, items = served ++ item :: rest → kept served after →
      Ensures after (body item) stops fun _ => kept (served ++ [item])) :
    Ensures state (items.forM body) stops fun _ => kept items := by
  suffices general : ∀ (rest served : List β) (after : σ), items = served ++ rest → kept served after →
      Ensures after (rest.forM body) stops fun _ => kept items from general items [] state rfl start
  intro rest
  induction rest with
  | nil =>
    intro served after split held
    rw [List.append_nil] at split
    exact .pure (split ▸ held)
  | cons item rest ih =>
    intro served after split held
    refine .bind ?_
    apply (round served item rest after split held).weaken
    intro _ next served'
    exact ih (served ++ [item]) next (by simp [split]) served'

theorem Meets.pure (holds : ends value state) :
    Meets state (Pure.pure value : Durable σ ε α) halts fails ends := fun _ => holds

theorem Meets.weaken (holds : Meets state program halts fails ends)
    (ended : ∀ value after, ends value after → ends' value after) : Meets state program halts fails ends' :=
  holds.mono (fun _ halted => halted) (fun _ failed => failed) ended

theorem Ensures.meets_observe (holds : Ensures state program stops fun value => told (.ok value))
    (halted : ∀ after, stops after → halts after) (failed : ∀ reason after, stops after → told (.error reason) after) :
    Meets state (Durable.observe program : Durable σ δ (Except ε α)) halts fails told :=
  .observe (holds.meets halted fun _ stopped => stopped) failed

theorem Meets.tryWrite {ends : Unit → σ → Prop} (before : halts state)
    (skipped : ends () state) (applied : ends () (change state)) :
    Meets state (tryWrite change : Durable σ ε Unit) halts fails ends := by
  intro plan
  cases plan with
  | nil => exact applied
  | cons fault rest =>
    cases fault with
    | applied => exact applied
    | refused => exact skipped
    | unreported => exact applied
    | halted => exact before

def left (program : Durable σ ε α) (state : σ) (plan : List Fault) : σ := (program state plan).state

theorem Ensures.left (holds : Ensures state program keeps fun _ => keeps) (plan : List Fault) :
    keeps (program.left state plan) := by
  have run := holds plan
  unfold Durable.left
  cases ended : program state plan with
  | mk outcome after rest =>
    rw [ended] at run
    cases outcome <;> exact run

theorem Ensures.done {plan rest : List Fault} {after : σ}
    (holds : Ensures state program stops ends) (ended : program state plan = ⟨.done value, after, rest⟩) :
    ends value after := by
  have run := holds plan
  rw [ended] at run
  exact run

theorem Ensures.outcome_done {plan : List Fault}
    (holds : Ensures state program stops ends) (ended : (program state plan).outcome = .done value) :
    ends value (program.left state plan) := by
  have run := holds plan
  unfold Durable.left
  cases last : program state plan with
  | mk outcome after rest =>
    rw [last] at ended run
    cases ended
    exact run

section

variable {plan rest : List Fault} {after : σ}

theorem Meets.done {value : α} (holds : Meets state program halts fails ends)
    (ended : program state plan = ⟨.done value, after, rest⟩) : ends value after := by
  have run := holds plan
  rw [ended] at run
  exact run

theorem Meets.failed (holds : Meets state program halts fails ends)
    (ended : program state plan = ⟨.failed reason, after, rest⟩) : fails after := by
  have run := holds plan
  rw [ended] at run
  exact run

theorem Meets.halted (holds : Meets state program halts fails ends)
    (ended : program state plan = ⟨.halted, after, rest⟩) : halts after := by
  have run := holds plan
  rw [ended] at run
  exact run

end

theorem returns_or_left_bind (first : Durable σ ε α) (next : α → Durable σ ε β) (state : σ) (plan : List Fault) :
    (∃ value after rest, first state plan = ⟨.done value, after, rest⟩) ∨
      (∀ value, (first state plan).outcome ≠ .done value) ∧ (first >>= next).left state plan = first.left state plan := by
  change _ ∨ _ ∧ (Durable.bind first next state plan).state = _
  unfold Durable.bind Durable.left
  cases ended : first state plan with
  | mk outcome after rest =>
    cases outcome with
    | done value => exact .inl ⟨value, after, rest, rfl⟩
    | failed reason => exact .inr ⟨nofun, rfl⟩
    | halted => exact .inr ⟨nofun, rfl⟩

theorem returns_or_left_mapFail_bind (wrap : ε → δ) (first : Durable σ ε α) (next : α → Durable σ δ β)
    (state : σ) (plan : List Fault) :
    (∃ value after rest, first state plan = ⟨.done value, after, rest⟩) ∨
      (∀ value, (first state plan).outcome ≠ .done value) ∧
        (mapFail wrap first >>= next).left state plan = first.left state plan := by
  change _ ∨ _ ∧ (Durable.bind (Durable.bind (observe first) _) next state plan).state = _
  unfold Durable.bind Durable.observe Durable.left
  cases ended : first state plan with
  | mk outcome after rest =>
    cases outcome with
    | done value => exact .inl ⟨value, after, rest, rfl⟩
    | failed reason => exact .inr ⟨nofun, rfl⟩
    | halted => exact .inr ⟨nofun, rfl⟩

def Completes (state : σ) (program : Durable σ ε α) (ends : α → σ → Prop) : Prop :=
  ∃ value after, program state [] = ⟨.done value, after, []⟩ ∧ ends value after

theorem Completes.pure (holds : ends value state) :
    Completes state (pure value : Durable σ ε α) ends :=
  ⟨value, state, rfl, holds⟩

theorem Completes.read {ends : σ → σ → Prop} (holds : ends state state) :
    Completes state (read : Durable σ ε σ) ends :=
  ⟨state, state, rfl, holds⟩

theorem Completes.advance {ends : Unit → σ → Prop} (holds : ends () (change state)) :
    Completes state (advance change : Durable σ ε Unit) ends :=
  ⟨(), _, rfl, holds⟩

theorem Completes.bind {ends : β → σ → Prop}
    (holds : Completes state first fun value after => Completes after (next value) ends) :
    Completes state (first >>= next) ends := by
  obtain ⟨value, after, ended, last, final, rest, holds⟩ := holds
  refine ⟨last, final, ?_, holds⟩
  change Durable.bind first next state [] = _
  rw [Durable.bind, ended]
  exact rest

theorem Completes.mono (holds : Completes state program ends)
    (ended : ∀ value after, ends value after → ends' value after) : Completes state program ends' := by
  obtain ⟨value, after, returned, holds⟩ := holds
  exact ⟨value, after, returned, ended value after holds⟩

theorem Completes.lift (known : result = .ok value) (holds : ends value state) :
    Completes state (lift result) ends := by
  rw [known]
  exact .pure holds

theorem Completes.require [Decidable condition] {ends : Unit → σ → Prop}
    (met : condition) (holds : ends () state) : Completes state (require condition reason) ends := by
  rw [Durable.require, if_pos met]
  exact .pure holds

theorem Completes.read_bind {next : σ → Durable σ ε β} {ends : β → σ → Prop}
    (holds : Completes state (next state) ends) : Completes state (Durable.read >>= next) ends :=
  .bind (.read holds)

theorem Completes.lift_bind {ends : β → σ → Prop} (known : result = .ok value)
    (holds : Completes state (next value) ends) : Completes state (Durable.lift result >>= next) ends :=
  .bind (.lift known holds)

theorem Completes.require_bind [Decidable condition] {next : Unit → Durable σ ε β} {ends : β → σ → Prop}
    (met : condition) (holds : Completes state (next ()) ends) :
    Completes state (Durable.require condition reason >>= next) ends :=
  .bind (.require met holds)

theorem Completes.attempt {ends : Bool → σ → Prop} (holds : ends true (change state)) :
    Completes state (attempt change : Durable σ ε Bool) ends :=
  ⟨true, _, rfl, holds⟩

theorem Completes.write {ends : Unit → σ → Prop} (holds : ends () (change state)) :
    Completes state (write change reason) ends :=
  ⟨(), _, rfl, holds⟩

theorem Completes.tryWrite {ends : Unit → σ → Prop} (holds : ends () (change state)) :
    Completes state (tryWrite change : Durable σ ε Unit) ends :=
  ⟨(), _, rfl, holds⟩

theorem Completes.forM (kept : σ → Prop) (start : kept state)
    (round : ∀ item ∈ items, ∀ after, kept after → Completes after (body item) fun _ => kept) :
    Completes state (items.forM body) fun _ => kept := by
  induction items generalizing state with
  | nil => exact .pure start
  | cons item rest ih =>
    apply Completes.bind
    apply (round item (List.mem_cons_self ..) state start).mono
    exact fun _ after held => ih held fun other member => round other (List.mem_cons_of_mem _ member)

theorem Completes.mapFail (holds : Completes state program ends) : Completes state (mapFail wrap program) ends := by
  obtain ⟨value, after, ended, holds⟩ := holds
  refine ⟨value, after, ?_, holds⟩
  change Durable.bind (observe program) _ state [] = _
  rw [Durable.bind, observe, ended]
  rfl

theorem Completes.ensured (returns : Completes state program fun _ _ => True)
    (ensures : Ensures state program stops ends) : Completes state program ends := by
  obtain ⟨value, after, ended, -⟩ := returns
  exact ⟨value, after, ended, ensures.done ended⟩

theorem Completes.left (holds : Completes state program fun _ => keeps) : keeps (program.left state []) := by
  obtain ⟨value, after, ended, holds⟩ := holds
  rw [Durable.left, ended]
  exact holds

end Durable

end Yaog.Data
