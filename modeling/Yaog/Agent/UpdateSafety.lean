import Yaog.Agent.Boots
import Yaog.Agent.ManifestBinding

/-!
# Self-updates of a node

What holds of the binary, of its boots and of the version floor after every sequence of events.
-/

namespace Yaog.Agent

open Data Durable Std

section

variable {runtime : Runtime} {initial process : Binary} {host : Host} {system : System}

structure System.Sound (initial : Binary) (system : System) : Prop where
  rollout : Rollout initial system.host
  running : ∀ process, system.process = some process → Runs process system.host system.host.state.pendingUpdate

theorem System.Sound.serving (sound : system.Sound initial) (running : system.process = some process) :
    Serving initial process system.host :=
  ⟨sound.rollout, sound.running process running⟩

theorem Serving.sound (serving : Serving initial process host) (goesOn : Prop) [Decidable goesOn] :
    System.Sound initial { host, process := if goesOn then some process else none } := by
  refine ⟨serving.rollout, fun other running => ?_⟩
  by_cases yes : goesOn
  · rw [← Option.some.inj ((if_pos yes).symm.trans running)]
    exact serving.runs
  · exact nomatch (if_neg yes).symm.trans running

theorem Rollout.stopped (rollout : Rollout initial host) : System.Sound initial { host } := ⟨rollout, nofun⟩

theorem sound_of_ensures {program : Program Ending}
    (holds : Proceeds initial process host program) (plan : List Fault) :
    System.Sound initial { host := (program host plan).state
                           process := if goesOn (program host plan).outcome then some process else none } := by
  have run := holds plan
  cases ended : program host plan with
  | mk outcome after rest =>
    rw [ended] at run
    cases outcome with
    | failed reason => exact run.sound True
    | halted => exact run.rollout.stopped
    | done ending =>
      cases ending with
      | continues => exact (Serving.mk run.rollout (run.runs rfl)).sound True
      | replaced => exact run.rollout.stopped

theorem Rollout.live_ne_torn (rollout : Rollout initial host) : host.live ≠ .torn := by
  intro torn
  cases rollout.phase with
  | fresh _ live => exact nomatch torn.symm.trans live
  | source _ _ _ live => exact nomatch torn.symm.trans live
  | swapped _ _ _ _ live => exact nomatch torn.symm.trans live
  | final _ _ _ live => exact nomatch torn.symm.trans live

theorem Rollout.countBoot (rollout : Rollout initial host) (trial : Bool) : Rollout initial (countBoot trial host) := by
  cases trial with
  | false => exact rollout
  | true => exact rollout.congr ⟨⟨rfl, rfl, rfl⟩, rfl, rfl, rfl, rfl, rfl, rfl, rfl, id⟩

theorem Booted.countCompleted {trial : Bool} {ending : Ending} {plan : List Fault}
    (booted : Booted initial process trial ending host) :
    Left initial process ending (countCompleted trial ⟨.done ending, host, plan⟩) := by
  cases trial with
  | false => exact booted.toLeft
  | true => exact ⟨booted.counted rfl, booted.runs⟩

theorem onTrial_countBoot (trial : Bool) : (countBoot trial host).onTrial process = host.onTrial process := by
  cases trial <;> rfl

theorem live_countBoot (trial : Bool) : (countBoot trial host).live = host.live := by
  cases trial <;> rfl

theorem sound_boot (runtime : Runtime) (rollout : Rollout initial host) (live : host.live = .complete process)
    (plan : List Fault) : System.Sound initial ((System.mk host none).step runtime (.boot plan)) := by
  have held := (live_countBoot (host.onTrial process)).trans live
  have run := reconcileSelfUpdateEarly_keeps (rollout.countBoot (host.onTrial process)) held plan
  rw [onTrial_countBoot] at run
  simp only [System.step, live]
  cases ended : reconcileSelfUpdateEarly process (countBoot (host.onTrial process) host) plan with
  | mk outcome after rest =>
    rw [ended] at run
    cases outcome with
    | failed reason => exact run.stopped
    | halted => exact run.stopped
    | done ending =>
      obtain ⟨counted, runs⟩ := run.countCompleted
      cases ending with
      | continues => exact (Serving.mk counted (runs rfl)).sound True
      | replaced => exact counted.stopped

attribute [local irreducible] Ensures in
theorem System.Sound.step (sound : system.Sound initial) (event : Event) :
    System.Sound initial (system.step runtime event) := by
  obtain ⟨host, running⟩ := system
  cases event with
  | stop => exact sound.rollout.stopped
  | boot plan =>
    cases live : host.live with
    | torn => exact absurd live sound.rollout.live_ne_torn
    | complete binary =>
      have booted := sound_boot runtime sound.rollout live plan
      exact booted
  | run input plan =>
    cases running with
    | none => exact sound
    | some process => exact sound_of_ensures (run_keeps (sound.serving rfl)) plan
  | retry input plan =>
    cases running with
    | none => exact sound
    | some process => exact sound_of_ensures (retryDeferredSelfUpdate_keeps (sound.serving rfl)) plan
  | promote healthy plan =>
    cases running with
    | none => exact sound
    | some process => exact ((reconcileSelfUpdatePromote_keeps (sound.serving rfl)).left plan).sound _
  | finalise plan =>
    cases running with
    | none => exact sound
    | some process =>
      have served : Serving initial process (finalizeSelfUpdate process host plan).state :=
        (finalizeSelfUpdate_keeps (sound.serving rfl)).left plan
      simpa only [System.step, ite_not] using
        served.sound ((finalizeSelfUpdate process host plan).outcome ≠ .halted)

theorem System.Sound.after (sound : system.Sound initial) (events : List Event) :
    System.Sound initial (system.after runtime events) := by
  induction events generalizing system with
  | nil => exact sound
  | cons event rest ih => exact ih (sound.step event)

end

/-- Decoders that take the manifest for the time and the catalog for the version. -/
def sampleRuntime : Runtime where
  toPlatform := samplePlatform
  publicKeyDER := some
  decodeManifest data := some { nodeID := "alpha", compiledAt := asText data, checksum := asText data }
  decodeCatalog data := some {
    version := asText data
    minVersion := ""
    releaseURL := ""
    bins := [("linux-amd64", { asset := "agent", sha256 := utf8 "digest" })] }
  canonicalPolicy _ := some
where
  asText (data : Bytes) : String := String.ofList (data.map fun byte => Char.ofNat byte.toNat)

abbrev sampleTime : String := "2026-01-02T03:04:05Z"

abbrev sampleNextDay : String := "2026-01-03T03:04:05Z"

abbrev sampleBinary : Binary := { version := "1.0.0", sha256 := [] }

theorem sampleTime_parses : (parseTime sampleTime).isSome = true := by
  decide +kernel

end Yaog.Agent
