import Yaog.Agent.Custody
import Yaog.Agent.Cycle

/-!
# Bundles after a rotated key

A daemon that has rotated its key resumes after the generation that woke it.
-/

namespace Yaog.Agent

open Data Controller List Option

section

variable {runtime : Runtime} {node : Node} {process : Binary} {input : CycleInput} {delivered : Bool}

theorem poll_changed {after polled : Int} {generation : Option Int} (changed : poll after generation = .changed polled) :
    after < polled := by
  unfold poll at changed
  split at changed
  · cases changed
  · split at changed
    · next past =>
      obtain rfl := PollReply.changed.inj changed
      exact past
    · cases changed

/-- The bundles that a cycle starts, and where it resumes. -/
inductive CycleShape (runtime : Runtime) (node : Node) (input : CycleInput) : Node × CycleEnd → Prop
  | stayed (after : Node) (ended : CycleEnd) (executed : after.executed = node.executed)
      (cursor : after.cursor = node.cursor) (stays : ended.cursor node.cursor = node.cursor) :
      CycleShape runtime node input (after, ended)
  | woke (after : Node) (ended : CycleEnd) (executed : after.executed = node.executed)
      (cursor : after.cursor = node.cursor) (resumes : node.cursor < ended.cursor node.cursor) :
      CycleShape runtime node input (after, ended)
  | applied (after : Node) (ended : CycleEnd) (first : ConfigResponse) (files : Bundle) (generation : Int) (count : Nat)
      (served : input.config = some first) (decoded : first.files = some files)
      (fresh : first.generation ≤ node.cursor → alreadyApplied runtime node.system.host.state files = false)
      (refetched : generation = first.generation ∨ ∃ second, input.refetched = some second ∧ generation = second.generation)
      (executed : after.executed = node.executed ++ List.replicate count generation)
      (cursor : after.cursor = node.cursor)
      (resumes : ended.cursor node.cursor = node.cursor ∨ ended.cursor node.cursor = generation) :
      CycleShape runtime node input (after, ended)

theorem rekeyCycle_shape {client : ControllerClient} {polled : Int} (past : node.cursor < polled) :
    CycleShape runtime node input (rekeyCycle node client polled input) := by
  unfold rekeyCycle
  split
  · exact .stayed _ _ rfl rfl rfl
  · split
    · exact .stayed _ _ rfl rfl rfl
    · refine .woke _ _ rfl rfl ?_
      split
      · next later => exact past.trans later
      · exact past

theorem applyCycle_shape {first : ConfigResponse} {files : Bundle} (served : input.config = some first)
    (decoded : first.files = some files)
    (fresh : first.generation ≤ node.cursor → alreadyApplied runtime node.system.host.state files = false) :
    CycleShape runtime node input (applyCycle runtime node (node.client.fetch (some first)).1 process input delivered) := by
  unfold applyCycle
  have refetched : ∀ client files, ({ (node.client.fetch (some first)).1 with priorGen := node.cursor }.fetch
      input.refetched) = (client, files) → client.lastFetchedGen = first.generation ∨
        ∃ second, input.refetched = some second ∧ client.lastFetchedGen = second.generation := by
    intro client files fetched
    cases reply : input.refetched with
    | none =>
      rw [reply] at fetched
      exact .inl ((Prod.mk.inj fetched).1 ▸ rfl)
    | some second =>
      rw [reply] at fetched
      exact .inr ⟨second, rfl, (Prod.mk.inj fetched).1 ▸ rfl⟩
  split
  next client bundle fetched =>
  have generation := refetched client bundle fetched
  dsimp only
  split
  · exact .applied _ _ first files _ _ served decoded fresh generation rfl rfl (.inr rfl)
  · exact .applied _ _ first files _ _ served decoded fresh generation rfl rfl (.inl rfl)
  · exact .applied _ _ first files _ _ served decoded fresh generation rfl rfl (.inl rfl)
  · exact .applied _ _ first files _ _ served decoded fresh generation rfl rfl (.inl rfl)

theorem runControllerCycle_shape :
    CycleShape runtime node input (runControllerCycle runtime node process input delivered) := by
  unfold runControllerCycle
  split
  · exact .stayed _ _ rfl rfl rfl
  · exact .stayed _ _ rfl rfl rfl
  · next polled changed =>
    have past := poll_changed changed
    cases served : input.config with
    | none => exact .stayed _ _ rfl rfl rfl
    | some first =>
      cases decoded : first.files with
      | none =>
        simp only [ControllerClient.fetch, decoded]
        exact .stayed _ _ rfl rfl rfl
      | some files =>
        simp only [ControllerClient.fetch, decoded]
        split
        · exact .stayed _ _ rfl rfl rfl
        · split
          · exact rekeyCycle_shape past
          · split
            · exact .woke _ _ rfl rfl past
            · next unapplied =>
              refine applyCycle_shape served decoded fun below => ?_
              simpa [below] using unapplied

variable {step : StepInput} {resume : Int}

theorem Node.retry_keeps (runtime : Runtime) (node : Node) (retry : Option RetryInput) :
    (node.retry runtime retry).executed = node.executed ∧ (node.retry runtime retry).cursor = node.cursor := by
  cases retry <;> exact ⟨rfl, rfl⟩

theorem Node.finalise_keeps (runtime : Runtime) (node : Node) (plan : List Fault) :
    (node.finalise runtime plan).executed = node.executed ∧ (node.finalise runtime plan).cursor = node.cursor := by
  unfold Node.finalise
  split <;> exact ⟨rfl, rfl⟩

theorem Node.loop_keeps (runtime : Runtime) (node : Node) (process : Binary) (step : StepInput) :
    (node.loop runtime process step).executed =
        (runControllerCycle runtime node process step.cycle step.delivered).1.executed ∧
      (node.loop runtime process step).cursor =
        (runControllerCycle runtime node process step.cycle step.delivered).2.cursor
          (runControllerCycle runtime node process step.cycle step.delivered).1.cursor := by
  unfold Node.loop
  obtain ⟨executed, cursor⟩ := Node.finalise_keeps runtime
    (runControllerCycle runtime node process step.cycle step.delivered).1 step.finalise
  dsimp only
  split
  · rw [(Node.retry_keeps _ _ _).1, (Node.retry_keeps _ _ _).2]
    exact ⟨executed, by rw [cursor]⟩
  · exact ⟨executed, by rw [cursor]⟩

/-- Every bundle that is served from now on is newer than the generation, or the node has applied it already;
and no bundle is served after a newer one. -/
structure StepInput.Settled (runtime : Runtime) (resume : Int) (state : State) (input : StepInput) : Prop where
  applied : ∀ first files, input.cycle.config = some first → first.files = some files → first.generation ≤ resume →
    alreadyApplied runtime state files = true
  ordered : ∀ first second, input.cycle.config = some first → input.cycle.refetched = some second →
    first.generation ≤ second.generation

def Node.Settled (runtime : Runtime) (resume : Int) : Node → List StepInput → Prop
  | _, [] => True
  | node, input :: rest =>
    input.Settled runtime resume node.system.host.state ∧ (node.step runtime (.step input)).Settled runtime resume rest

theorem Node.step_past (past : resume ≤ node.cursor) (settled : step.Settled runtime resume node.system.host.state) :
    resume ≤ (node.step runtime (.step step)).cursor ∧
      ∃ later, (node.step runtime (.step step)).executed = node.executed ++ later ∧
        ∀ generation ∈ later, resume < generation := by
  cases running : node.system.process with
  | none =>
    simp only [Node.step, running]
    exact ⟨past, [], (append_nil _).symm, nofun⟩
  | some process =>
    simp only [Node.step, running]
    obtain ⟨executed, cursor⟩ := Node.loop_keeps runtime node process step
    rw [executed, cursor]
    have shape : CycleShape runtime node step.cycle
        (runControllerCycle runtime node process step.cycle step.delivered) := runControllerCycle_shape
    generalize runControllerCycle runtime node process step.cycle step.delivered = result at shape ⊢
    cases shape with
    | stayed after ended same kept stays =>
      rw [kept, stays, same]
      exact ⟨past, [], (append_nil _).symm, nofun⟩
    | woke after ended same kept resumes =>
      rw [kept, same]
      exact ⟨past.trans resumes.le, [], (append_nil _).symm, nofun⟩
    | applied after ended first files generation count served decoded fresh refetched started kept resumes =>
      have newer : resume < first.generation := by
        by_contra old
        have old := Int.not_lt.mp old
        have known := settled.applied first files served decoded old
        rw [fresh (old.trans past)] at known
        cases known
      have reached : resume < generation := by
        rcases refetched with same | ⟨second, reply, same⟩
        · exact same ▸ newer
        · exact same ▸ newer.trans_le (settled.ordered first second served reply)
      rw [kept, started]
      refine ⟨?_, _, rfl, fun other member => ?_⟩
      · rcases resumes with same | same
        · rw [same]
          exact past
        · rw [same]
          exact reached.le
      · rw [eq_of_mem_replicate member]
        exact reached

theorem Node.after_past {rest : List StepInput} (past : resume ≤ node.cursor)
    (settled : node.Settled runtime resume rest) :
    ∃ later, (node.after runtime (rest.map .step)).executed = node.executed ++ later ∧
      ∀ generation ∈ later, resume < generation := by
  induction rest generalizing node with
  | nil => exact ⟨[], (append_nil _).symm, nofun⟩
  | cons step rest ih =>
    obtain ⟨past, first, executed, newer⟩ := Node.step_past past settled.1
    obtain ⟨second, executedToo, newerToo⟩ := ih past settled.2
    refine ⟨first ++ second, ?_, fun generation member => ?_⟩
    · rw [← append_assoc, ← executed]
      exact executedToo
    · rcases mem_append.mp member with earlier | later
      · exact newer generation earlier
      · exact newerToo generation later

end

/-- After a cycle that rotated the key and resumed from a generation, no later cycle of the process starts the script
of a bundle of that generation or before, as long as every bundle served since is newer or has been applied. -/
theorem rekeyed_applies_newer (runtime : Runtime) (node : Node) (process : Binary) (input : StepInput) (resume : Int)
    (rest : List StepInput) (running : node.system.process = some process)
    (rekeyed : (runControllerCycle runtime node process input.cycle input.delivered).2 = .rekeyed resume)
    (settled : (node.step runtime (.step input)).Settled runtime resume rest) :
    ∃ later, ((node.step runtime (.step input)).after runtime (rest.map .step)).executed =
        (node.step runtime (.step input)).executed ++ later ∧
      ∀ generation ∈ later, resume < generation := by
  refine Node.after_past ?_ settled
  simp only [Node.step, running]
  rw [(Node.loop_keeps runtime node process input).2, rekeyed]
  exact Int.le_refl _

def sampleServed (generation : Int) (compiledAt : String) (rekeyRequested : Bool) : ConfigResponse where
  generation
  files := some (sampleBundle compiledAt)
  rekeyRequested

/-- A cycle that finds the tenant at a generation and the same bundle in both fetches. -/
def sampleCycle (tenant generation : Int) (compiledAt : String) (rekeyRequested : Bool) : StepInput where
  cycle := {
    generation := some tenant
    config := some (sampleServed generation compiledAt rekeyRequested)
    refetched := some (sampleServed generation compiledAt rekeyRequested)
    request := sampleApply true true }

/-- The node has applied its first bundle, and rotates its key before it has seen the second. -/
def sampleRotated : Node :=
  (Node.start sampleBinary).after sampleRuntime
    [.boot 0 [], .step (sampleCycle 1 1 sampleTime false)]

theorem sampleRotated_newer :
    let rekeyed := sampleRotated.step sampleRuntime (.step (sampleCycle 3 1 sampleTime true))
    let later := [sampleCycle 4 1 sampleTime false, sampleCycle 5 5 sampleNextDay false].map NodeEvent.step
    (rekeyed.after sampleRuntime later).executed = [1, 5] ∧
    ∃ newer, (rekeyed.after sampleRuntime later).executed = rekeyed.executed ++ newer ∧
      ∀ generation ∈ newer, 3 < generation := by
  refine ⟨by decide +kernel, rekeyed_applies_newer sampleRuntime sampleRotated sampleBinary
    (sampleCycle 3 1 sampleTime true) 3 _ (by decide +kernel) (by decide +kernel) ?_⟩
  refine ⟨⟨?_, ?_⟩, ⟨?_, ?_⟩, trivial⟩
  · intro first files served decoded old
    cases served
    cases decoded
    decide +kernel
  · intro first second served reply
    cases served
    cases reply
    exact Int.le_refl _
  · intro first files served decoded old
    cases served
    exact absurd old (by decide)
  · intro first second served reply
    cases served
    cases reply
    exact Int.le_refl _

/-- The second bundle was promoted before the rotation, at generation 2. The tenant's generation rises for other
nodes, and the node that resumed from 3 starts it. -/
theorem sampleRotated_stale :
    (runControllerCycle sampleRuntime sampleRotated sampleBinary
      (sampleCycle 3 2 sampleNextDay true).cycle true).2 = .rekeyed 3 ∧
    (sampleRotated.after sampleRuntime [.step (sampleCycle 3 2 sampleNextDay true),
      .step (sampleCycle 4 2 sampleNextDay false)]).executed = [1, 2] := by
  decide +kernel

end Yaog.Agent
