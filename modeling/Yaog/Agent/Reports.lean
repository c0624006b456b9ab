import Yaog.Agent.RekeySafety

/-!
# Reported generations

A report carries the generation that was fetched, if the apply went well, and the cursor of the loop if it did not.
-/

namespace Yaog.Agent

open Data Durable Controller List

section

variable {runtime : Runtime} {base host : Host} {process : Binary} {input : RunInput}

attribute [local irreducible] Ensures Meets

/-- Nothing was reported, or the failure of a run whose script has not succeeded. -/
def Untold (input : RunInput) (base host : Host) : Prop :=
  host.reports = base.reports ∨
    (∃ payload, host.reports = base.reports ++ [payload] ∧ payload.lastResult ≠ .ok) ∧ input.applied base host = false

def Applied (input : RunInput) (base host : Host) : Prop :=
  (∃ payload, host.reports = base.reports ++ [payload] ∧ payload.lastResult = .ok) ∧ input.applied base host = true

def Tells (input : RunInput) (base host : Host) : Prop := Untold input base host ∨ Applied input base host

theorem Applied.of_silent {after : Host} (applied : Applied input base host) (silent : Silent host after) :
    Applied input base after := by
  unfold Applied RunInput.applied
  rw [silent.reports, silent.executions]
  exact applied

theorem RunInput.applied_of_same (same : host.executions = base.executions) : input.applied base host = false := by
  simp [RunInput.applied, same]

theorem Untold.of_unapplied (sent : Unapplied base.reports host.reports) (unapplied : input.applied base host = false) :
    Untold input base host :=
  sent.imp_right fun failed => ⟨failed, unapplied⟩

theorem Told.untold (told : Told base host) : Untold input base host :=
  .of_unapplied told.reports (RunInput.applied_of_same told.executions)

theorem run_tells :
    Meets host (run runtime process input) (Tells input host) (Untold input host)
      fun ending after => Tells input host after ∧ (ending = .continues → Applied input host after) := by
  refine Meets.run (fun _ untold => .inl untold)
    (@fun _ after (quiet : after.reports = host.reports ∧ input.applied host after = false) => .inl quiet.1)
    (fun ⟨quiet, unapplied⟩ sent => .of_unapplied (quiet ▸ sent) unapplied)
    ⟨rfl, RunInput.applied_of_same rfl⟩ fun candidate _ _ _ catalog => ⟨?_, fun intent _ => ?_⟩
  · refine (forcedUpdate_told (.refl host) (.refl _)).meets (fun _ told => .inl told.untold) (fun _ told => told.untold)
      |>.weaken fun ending after told => ⟨.inl told.2.untold, fun continues => ?_⟩
    exact nomatch told.1.symm.trans continues
  · refine ⟨⟨rfl, RunInput.applied_of_same rfl⟩, fun unsuccessful => ⟨rfl, by simp [RunInput.applied, unsuccessful]⟩,
      fun installed => ⟨.inl rfl, fun policy => ⟨.inl rfl,
        (deferredUpdate_silent (.refl _)).mono ?_ (fun _ => False.elim) ?_⟩⟩⟩
    all_goals
      have applied : Applied input host { committed input candidate host intent policy with
          reports := host.reports ++ [(committed input candidate host intent policy).state] } :=
        ⟨⟨_, rfl, rfl⟩, by simp [RunInput.applied, installed, committed, executed, saved]⟩
    · exact fun _ silent => .inr (applied.of_silent silent)
    · exact fun _ _ silent => ⟨.inr (applied.of_silent silent), fun _ => applied.of_silent silent⟩

end

/-- Every report said what it should have, and the cursor of a running daemon is the last applied generation. -/
structure Node.Honest (node : Node) : Prop where
  cursor : node.system.process ≠ none → node.cursor = node.lastApplied
  reports : ∀ report ∈ node.reports, report.1 = report.2

def Registers (before after : Node) : Prop := after.registry = before.registry ∨ after.registry = after.lastApplied

section

variable {runtime : Runtime} {node : Node} {process : Binary} {input : CycleInput} {client : ControllerClient}
  {host : Host} {request : RunInput} (delivered : Bool)

theorem Node.note_told (tells : Tells request node.system.host host) (prior : client.priorGen = node.lastApplied) :
    ∀ payload ∈ host.reports.drop node.system.host.reports.length,
      client.reportGeneration payload = (node.note client host request delivered).lastApplied := by
  intro payload member
  rcases tells with (quiet | ⟨⟨only, told, failed⟩, unapplied⟩) | ⟨⟨only, told, success⟩, applied⟩
  · rw [quiet, drop_length] at member
    exact absurd member not_mem_nil
  · rw [told, drop_left, mem_singleton] at member
    simp only [Node.note, unapplied]
    rw [member, ControllerClient.reportGeneration, if_neg failed, prior]
    rfl
  · rw [told, drop_left, mem_singleton] at member
    simp only [Node.note, applied, if_true]
    rw [member, ControllerClient.reportGeneration, if_pos success]

theorem Node.note_honest (honest : ∀ report ∈ node.reports, report.1 = report.2)
    (tells : Tells request node.system.host host) (prior : client.priorGen = node.lastApplied) :
    (∀ report ∈ (node.note client host request delivered).reports, report.1 = report.2) ∧
      Registers node (node.note client host request delivered) := by
  have generation : ∀ payload ∈ host.reports.drop node.system.host.reports.length,
      client.reportGeneration payload = (node.note client host request delivered).lastApplied :=
    Node.note_told delivered tells prior
  constructor
  · intro report member
    rcases mem_append.mp member with earlier | later
    · exact honest report earlier
    · obtain ⟨told, among, rfl⟩ := mem_map.mp later
      obtain ⟨payload, present, rfl⟩ := mem_map.mp among
      exact generation payload present
  · cases delivered with
    | false => exact .inl rfl
    | true =>
      cases last : ((host.reports.drop node.system.host.reports.length).map client.reportGeneration).getLast? with
      | none => exact .inl (by simp only [Node.note, last]; rfl)
      | some told =>
        obtain ⟨payload, present, rfl⟩ := mem_map.mp (mem_of_getLast? last)
        exact .inr (by rw [← generation payload present]; simp only [Node.note, last]; rfl)

/-- What holds after a cycle, before its cursor is taken over. -/
structure CycleHonest (before : Node) (result : Node × CycleEnd) : Prop where
  reports : ∀ report ∈ result.1.reports, report.1 = report.2
  registers : Registers before result.1
  cursor : result.1.system.process ≠ none → result.2.cursor result.1.cursor = result.1.lastApplied

/-- If the process goes on after a script that succeeded, the success was saved and reported. -/
def CycleInput.settles (runtime : Runtime) (node : Node) (input : CycleInput) (process : Binary) : Bool :=
  let ended := run runtime process { input.request with fetched := input.refetched.bind (·.files) } node.system.host
    input.plan
  !goesOn ended.outcome || !input.request.applied node.system.host ended.state ||
    node.system.host.reports.length < ended.state.reports.length

theorem applyCycle_honest (honest : node.Honest) (running : node.system.process = some process)
    (settles : input.settles runtime node process = true) :
    CycleHonest node (applyCycle runtime node client process input delivered) := by
  have cursor : node.cursor = node.lastApplied := honest.cursor (by rw [running]; exact Option.some_ne_none _)
  unfold applyCycle
  split
  next fetched files reply =>
  obtain ⟨prior, again⟩ : fetched.priorGen = node.lastApplied ∧ files = input.refetched.bind (·.files) := by
    rw [← cursor]
    cases served : input.refetched with
    | none =>
      rw [served] at reply
      exact ⟨(Prod.mk.inj reply).1 ▸ rfl, (Prod.mk.inj reply).2.symm⟩
    | some second =>
      rw [served] at reply
      exact ⟨(Prod.mk.inj reply).1 ▸ rfl, (Prod.mk.inj reply).2.symm⟩
  unfold CycleInput.settles at settles
  rw [← again] at settles
  cases ended : run runtime process { input.request with fetched := files } node.system.host input.plan with
  | mk outcome after rest =>
    rw [ended] at settles
    cases outcome with
    | failed reason =>
      have untold := run_tells.failed ended
      obtain ⟨reports, registers⟩ := Node.note_honest delivered honest.reports (.inl untold) prior
      have unapplied : input.request.applied node.system.host after = false := by
        rcases untold with quiet | ⟨-, unapplied⟩
        · simpa [goesOn, quiet] using settles
        · exact unapplied
      refine ⟨reports, registers, fun _ => ?_⟩
      simp only [CycleEnd.cursor, Node.note, unapplied]
      exact cursor
    | halted =>
      obtain ⟨reports, registers⟩ := Node.note_honest delivered honest.reports (run_tells.halted ended) prior
      exact ⟨reports, registers, fun alive => absurd rfl alive⟩
    | done ending =>
      obtain ⟨tells, applied⟩ := run_tells.done ended
      obtain ⟨reports, registers⟩ := Node.note_honest delivered honest.reports tells prior
      cases ending with
      | replaced => exact ⟨reports, registers, fun alive => absurd rfl alive⟩
      | continues =>
        have installed : input.request.applied node.system.host after = true := (applied rfl).2
        refine ⟨reports, registers, fun _ => ?_⟩
        simp only [CycleEnd.cursor, Node.note, installed, if_true]

def CycleInput.Applies (runtime : Runtime) (node : Node) (input : CycleInput) : Prop :=
  ∀ polled first files, poll node.cursor input.generation = .changed polled → input.config = some first →
    first.files = some files → first.rekeyRequested = false ∧
      (first.generation ≤ node.cursor → alreadyApplied runtime node.system.host.state files = false) ∧
      (input.leased = true → node.system.process.all (input.settles runtime node))

theorem runControllerCycle_honest (honest : node.Honest) (running : node.system.process = some process)
    (applies : input.Applies runtime node) :
    CycleHonest node (runControllerCycle runtime node process input delivered) := by
  have stays : ∀ client, CycleHonest node ({ node with client }, .failed) := fun _ =>
    ⟨honest.reports, .inl rfl, honest.cursor⟩
  unfold runControllerCycle
  split
  · exact stays _
  · exact ⟨honest.reports, .inl rfl, honest.cursor⟩
  · next polled changed =>
    cases served : input.config with
    | none => exact stays _
    | some first =>
      cases decoded : first.files with
      | none =>
        simp only [ControllerClient.fetch, decoded]
        exact stays _
      | some files =>
        obtain ⟨asked, fresh, settles⟩ := applies polled first files changed served decoded
        simp only [ControllerClient.fetch, decoded, asked]
        split
        · exact stays _
        · next leased =>
          rw [if_neg Bool.false_ne_true]
          split
          · next known =>
            rw [Bool.and_eq_true, decide_eq_true_eq] at known
            rw [fresh known.1] at known
            exact absurd known.2 Bool.false_ne_true
          · have settled := settles (by simpa using leased)
            rw [running] at settled
            exact applyCycle_honest delivered honest running settled

def NodeEvent.Aligned (runtime : Runtime) (node : Node) : NodeEvent → Prop
  | .boot after _ => after = node.lastApplied
  | .step input => input.cycle.Applies runtime node
  | .promote _ _ | .stop => True

def Node.Aligned (runtime : Runtime) : Node → List NodeEvent → Prop
  | _, [] => True
  | node, event :: rest => event.Aligned runtime node ∧ (node.step runtime event).Aligned runtime rest

theorem System.step_running {system : System} {event : Event} (started : ∀ plan, event ≠ .boot plan)
    (running : (system.step runtime event).process ≠ none) : system.process ≠ none := by
  intro absent
  apply running
  cases event with
  | boot plan => exact absurd rfl (started plan)
  | run | retry | promote | finalise => simp only [System.step, absent]
  | stop => rfl

/-- The node with its cursor and what it has reported, and its process or none. -/
structure Node.Same (before after : Node) : Prop where
  cursor : after.cursor = before.cursor
  lastApplied : after.lastApplied = before.lastApplied
  reports : after.reports = before.reports
  registry : after.registry = before.registry
  process : after.system.process ≠ none → before.system.process ≠ none

theorem Node.finalise_same (plan : List Fault) : node.Same (node.finalise runtime plan) := by
  unfold Node.finalise
  split
  · exact ⟨rfl, rfl, rfl, rfl, id⟩
  · exact ⟨rfl, rfl, rfl, rfl, System.step_running nofun⟩

theorem Node.retry_same (retry : Option RetryInput) : node.Same (node.retry runtime retry) := by
  cases retry with
  | none => exact ⟨rfl, rfl, rfl, rfl, id⟩
  | some retry => exact ⟨rfl, rfl, rfl, rfl, System.step_running nofun⟩

theorem Node.Honest.same {after : Node} (honest : node.Honest) (same : node.Same after) : after.Honest := by
  constructor
  · intro running
    rw [same.cursor, same.lastApplied]
    exact honest.cursor (same.process running)
  · rw [same.reports]
    exact honest.reports

theorem Registers.same {before after : Node} (registers : Registers before node) (same : node.Same after) :
    Registers before after := by
  unfold Registers
  rw [same.registry, same.lastApplied]
  exact registers

theorem Node.loop_honest {step : StepInput} (honest : node.Honest) (running : node.system.process = some process)
    (applies : step.cycle.Applies runtime node) :
    (node.loop runtime process step).Honest ∧ Registers node (node.loop runtime process step) := by
  have cycle := runControllerCycle_honest step.delivered honest running applies
  unfold Node.loop
  generalize runControllerCycle runtime node process step.cycle step.delivered = result at cycle ⊢
  obtain ⟨after, ended⟩ := result
  dsimp only
  have final : after.Same (after.finalise runtime step.finalise) := Node.finalise_same step.finalise
  generalize after.finalise runtime step.finalise = finalised at final ⊢
  have resumed : ({ finalised with cursor := ended.cursor finalised.cursor } : Node).Honest := by
    constructor
    · intro alive
      rw [final.lastApplied, ← cycle.cursor (final.process alive), ← final.cursor]
    · exact (final.reports ▸ cycle.reports :)
  have registers : Registers node { finalised with cursor := ended.cursor finalised.cursor } :=
    (cycle.registers.same final : Registers node finalised)
  split
  · exact ⟨resumed.same (Node.retry_same step.retry), registers.same (Node.retry_same step.retry)⟩
  · exact ⟨resumed, registers⟩

theorem Node.step_honest {event : NodeEvent} (honest : node.Honest) (aligned : event.Aligned runtime node) :
    (node.step runtime event).Honest ∧ Registers node (node.step runtime event) := by
  cases event with
  | boot after plan => exact ⟨⟨fun _ => aligned, honest.reports⟩, .inl rfl⟩
  | promote healthy plan =>
    exact ⟨⟨fun alive => honest.cursor (System.step_running (fun _ same => Event.noConfusion same) alive),
      honest.reports⟩, .inl rfl⟩
  | stop => exact ⟨⟨fun alive => absurd rfl alive, honest.reports⟩, .inl rfl⟩
  | step input =>
    cases running : node.system.process with
    | none =>
      simp only [Node.step, running]
      exact ⟨honest, .inl rfl⟩
    | some process =>
      simp only [Node.step, running]
      exact Node.loop_honest honest running aligned

theorem Node.after_honest {events : List NodeEvent} (honest : node.Honest) (aligned : node.Aligned runtime events) :
    (node.after runtime events).Honest := by
  induction events generalizing node with
  | nil => exact honest
  | cons event rest ih => exact ih (Node.step_honest honest aligned.1).1 aligned.2

theorem Node.Aligned.split {earlier later : List NodeEvent} (aligned : node.Aligned runtime (earlier ++ later)) :
    node.Aligned runtime earlier ∧ (node.after runtime earlier).Aligned runtime later := by
  induction earlier generalizing node with
  | nil => exact ⟨trivial, aligned⟩
  | cons event rest ih => exact ⟨⟨aligned.1, (ih aligned.2).1⟩, (ih aligned.2).2⟩

theorem Node.start_honest (binary : Binary) : (Node.start binary).Honest :=
  ⟨fun _ => rfl, nofun⟩

section

variable (told : node.reports.length = node.system.host.reports.length)

include told

theorem applyCycle_reported :
    (applyCycle runtime node client process input delivered).1.reports.length =
      (applyCycle runtime node client process input delivered).1.system.host.reports.length := by
  have grown : ∀ client host, Tells input.request node.system.host host →
      (node.note client host input.request delivered).reports.length = host.reports.length := by
    intro client host tells
    obtain ⟨later, appended⟩ : ∃ later, host.reports = node.system.host.reports ++ later := by
      rcases tells with (quiet | ⟨⟨payload, sent, -⟩, -⟩) | ⟨⟨payload, sent, -⟩, -⟩
      · exact ⟨[], quiet.trans (append_nil _).symm⟩
      · exact ⟨_, sent⟩
      · exact ⟨_, sent⟩
    simp only [Node.note, appended, drop_left, length_append, length_map, told]
  unfold applyCycle
  split
  next fetched files reply =>
  cases ended : run runtime process { input.request with fetched := files } node.system.host input.plan with
  | mk outcome after rest =>
    cases outcome with
    | failed reason =>
      have untold := run_tells.failed ended
      exact grown fetched after (.inl untold)
    | halted =>
      have tells := run_tells.halted ended
      exact grown fetched after tells
    | done ending =>
      have tells := (run_tells.done ended).1
      cases ending <;> exact grown fetched after tells

theorem Node.step_reported {event : NodeEvent} :
    (node.step runtime event).reports.length = (node.step runtime event).system.host.reports.length := by
  have cycle : ∀ process input delivered, (runControllerCycle runtime node process input delivered).1.reports.length =
      (runControllerCycle runtime node process input delivered).1.system.host.reports.length := by
    intro process input delivered
    unfold runControllerCycle
    split
    · exact told
    · exact told
    · split
      split
      · exact told
      · split
        · exact told
        · split
          · unfold rekeyCycle
            split
            · exact told
            · split <;> exact told
          · split
            · exact told
            · exact applyCycle_reported delivered told
  cases event with
  | boot after plan => exact told.trans (congrArg List.length (System.step_silent (by simp)).reports.symm)
  | promote healthy plan => exact told.trans (congrArg List.length (System.step_silent (by simp)).reports.symm)
  | stop => exact told
  | step input =>
    simp only [Node.step]
    split
    · exact told
    · next process running =>
      unfold Node.loop
      have ran := cycle process input.cycle input.delivered
      generalize runControllerCycle runtime node process input.cycle input.delivered = result at ran ⊢
      obtain ⟨after, ended⟩ := result
      dsimp only
      have final : (after.finalise runtime input.finalise).reports.length =
          (after.finalise runtime input.finalise).system.host.reports.length := by
        unfold Node.finalise
        split
        · exact ran
        · exact ran.trans (congrArg List.length (System.step_silent (by simp)).reports.symm)
      split
      · cases input.retry with
        | none => exact final
        | some retry => exact final.trans (congrArg List.length (System.step_silent (by simp)).reports.symm)
      · exact final

theorem Node.after_reported {events : List NodeEvent} :
    (node.after runtime events).reports.length = (node.after runtime events).system.host.reports.length := by
  induction events generalizing node with
  | nil => exact told
  | cons event rest ih => exact ih (Node.step_reported told)

end

end

/-- In every life of a node whose processes start from the last applied generation and whose wakes apply: every
report it sent carried the generation of the last bundle it had applied, and no step moved the registry to
another. -/
theorem reports_last_applied (runtime : Runtime) (binary : Binary) (events : List NodeEvent)
    (aligned : (Node.start binary).Aligned runtime events) :
    ((Node.start binary).after runtime events).reports.length =
      ((Node.start binary).after runtime events).system.host.reports.length ∧
    (∀ report ∈ ((Node.start binary).after runtime events).reports, report.1 = report.2) ∧
    ∀ earlier event later, events = earlier ++ event :: later →
      Registers ((Node.start binary).after runtime earlier) ((Node.start binary).after runtime (earlier ++ [event])) := by
  refine ⟨Node.after_reported rfl, (Node.after_honest (Node.start_honest binary) aligned).reports, ?_⟩
  intro earlier event later parts
  rw [parts] at aligned
  obtain ⟨before, next⟩ := aligned.split
  have honest := Node.after_honest (Node.start_honest binary) before
  have step := (Node.step_honest honest next.1).2
  rw [Node.after, Node.after, foldl_append]
  exact step

/-- A cycle whose apply cannot fetch its bundle again. -/
def sampleLost (tenant generation : Int) (compiledAt : String) : StepInput where
  cycle := { (sampleCycle tenant generation compiledAt false).cycle with refetched := none }

def sampleNode (events : List NodeEvent) : Node :=
  (Node.start sampleBinary).after sampleRuntime events

def sampleHonest : List NodeEvent :=
  [.boot 0 [], .step (sampleCycle 5 5 sampleTime false), .step (sampleLost 6 6 sampleNextDay),
    .boot 5 [], .step (sampleLost 6 6 sampleNextDay)]

/-- The process that goes on reports the generation it has applied, and so does one that restarts from it. -/
theorem sampleNode_honest :
    (sampleNode sampleHonest).reports = [(5, 5), (5, 5), (5, 5)] ∧
      ∀ report ∈ (sampleNode sampleHonest).reports, report.1 = report.2 := by
  have wakes : ∀ (node : Node) (input : StepInput) (served : ConfigResponse), input.cycle.config = some served →
      served.rekeyRequested = false → node.cursor < served.generation →
      node.system.process.all (input.cycle.settles sampleRuntime node) → input.cycle.Applies sampleRuntime node := by
    intro node input served config asked newer settles polled first files _ reply _
    obtain rfl := Option.mem_unique config reply
    exact ⟨asked, fun old => absurd newer (Int.not_lt.mpr old), fun _ => settles⟩
  refine ⟨by decide +kernel, (reports_last_applied sampleRuntime sampleBinary sampleHonest ?_).2.1⟩
  refine ⟨rfl, wakes _ _ _ rfl rfl ?_ ?_, wakes _ _ _ rfl rfl ?_ ?_, ?_, wakes _ _ _ rfl rfl ?_ ?_, trivial⟩
  · decide +kernel
  · decide +kernel
  · decide +kernel
  · decide +kernel
  · unfold NodeEvent.Aligned
    decide +kernel
  · decide +kernel
  · decide +kernel

/-- The script of generation 5 succeeds, and the save of the success takes effect but reports an error. -/
def sampleUnreported : StepInput where
  cycle := { (sampleCycle 5 5 sampleTime false).cycle with plan := [.applied, .unreported] }

/-- After a restart the failed apply reports generation 0, which takes the registry back; after a wake with
nothing to apply it reports a generation that the node never had; and after a success that could not be saved
it reports the generation before. -/
theorem sampleNode_dishonest :
    ((sampleNode [.boot 0 [], .step (sampleCycle 5 5 sampleTime false)]).registry = 5 ∧
      (sampleNode [.boot 0 [], .step (sampleCycle 5 5 sampleTime false), .boot 0 [],
        .step (sampleLost 5 5 sampleTime)]).reports = [(5, 5), (0, 5)] ∧
      (sampleNode [.boot 0 [], .step (sampleCycle 5 5 sampleTime false), .boot 0 [],
        .step (sampleLost 5 5 sampleTime)]).registry = 0) ∧
    (sampleNode [.boot 0 [], .step (sampleCycle 5 5 sampleTime false),
      .step (sampleCycle 7 5 sampleTime false),
      .step (sampleLost 8 8 sampleNextDay)]).reports = [(5, 5), (7, 5)] ∧
    (sampleNode [.boot 0 [], .step sampleUnreported, .step (sampleLost 6 6 sampleNextDay)]).reports =
      [(0, 5)] := by
  decide +kernel

end Yaog.Agent
