import Yaog.Agent.Chronicle
import Yaog.Agent.Rules

/-!
# Self-updates across boots

Where an update stands: the source binary is live, or its target under a backup of the source, or the target for good.
-/

namespace Yaog.Agent

open Data Durable Std Option

variable {transition : Transition} {catalog : AgentCatalog} {binary : Binary} {version nodeID : String}

/-- The breadcrumb belongs to the transition. -/
structure Awaits (transition : Transition) (pending : PendingUpdate) (marks : List Mark) : Prop where
  armed : ∃ earlier, marks = .armed pending.target :: earlier
  source : pending.source = transition.running.version
  target : compareVersions transition.target.version pending.target = .eq
  above : compareVersions pending.target transition.source.version = .gt

/-- Every boot of the target has been counted in the breadcrumb, and the cap was not exceeded. -/
structure Trying (pending : PendingUpdate) (boots : Nat) : Prop where
  counted : boots ≤ pending.attempts
  capped : boots ≤ maxSelfUpdateAttempts

inductive Phase (initial : Binary) (host : Host) : Prop
  | fresh (transition : host.transition = none) (live : host.live = .complete initial)
      (idle : host.state.pendingUpdate = none)
  | source (transition : Transition) (current : host.transition = some transition)
      (distinct : transition.source ≠ transition.target) (live : host.live = .complete transition.source)
      (awaits : ∀ pending, host.state.pendingUpdate = some pending → Awaits transition pending host.marks)
  | swapped (transition : Transition) (pending : PendingUpdate) (current : host.transition = some transition)
      (distinct : transition.source ≠ transition.target) (live : host.live = .complete transition.target)
      (backup : host.backup = some (.complete transition.source)) (waiting : host.state.pendingUpdate = some pending)
      (awaits : Awaits transition pending host.marks)
      (trying : host.restoreFailed = false → Trying pending host.completedBoots)
  | final (transition : Transition) (current : host.transition = some transition)
      (distinct : transition.source ≠ transition.target) (live : host.live = .complete transition.target)
      (idle : host.state.pendingUpdate = none)
      (stays : (∃ version earlier, host.marks = .finalised version :: earlier) ∨ host.restoreFailed = true)

structure Rollout (initial : Binary) (host : Host) : Prop where
  chronicle : Chronicle host.marks
  floor : host.state.agentVersionFloor = (finalisedVersions host.marks).head?.getD ""
  abandoned : host.state.abandonedAgentVersion = abandonedVersion host.marks
  restored : host.restored = true → ∃ transition, host.transition = some transition ∧
    host.live = .complete transition.source
  bounded : host.restoreFailed = false → host.completedBoots ≤ maxSelfUpdateAttempts + 1
  labelled : host.stranded = false → ∀ transition, host.transition = some transition →
    transition.running = transition.source
  phase : Phase initial host

/-- What is live while a process runs: its own binary, an older one that it restored and could not start, or the target
of the pending update, which it could not start. -/
def Runs (process : Binary) (host : Host) (pending : Option PendingUpdate) : Prop :=
  ∃ binary, host.live = .complete binary ∧
    (binary = process ∨ host.stranded = true ∧ compareVersions binary.version process.version = .lt ∨
      ∃ update, pending = some update ∧ compareVersions process.version update.target = .lt)

/-- The states agree on everything that an update reads. -/
structure SameUpdate (first second : State) : Prop where
  floor : first.agentVersionFloor = second.agentVersionFloor
  pending : first.pendingUpdate = second.pendingUpdate
  abandoned : first.abandonedAgentVersion = second.abandonedAgentVersion

section

variable {initial process : Binary} {host : Host} {prev state : State} {after : Host} {release : Release}
  {source : Binary}

/-- The hosts agree on everything that an update reads. -/
structure SameRollout (first second : Host) : Prop where
  update : SameUpdate first.state second.state
  live : first.live = second.live
  backup : first.backup = second.backup
  transition : first.transition = second.transition
  marks : first.marks = second.marks
  completedBoots : first.completedBoots = second.completedBoots
  restored : first.restored = second.restored
  restoreFailed : first.restoreFailed = second.restoreFailed
  stranded : second.stranded = false → first.stranded = false

theorem Phase.congr (phase : Phase initial host) (same : SameRollout host after) :
    Phase initial after := by
  have pending := same.update.pending
  obtain ⟨-, live, backup, transition, marks, boots, -, failed, -⟩ := same
  cases phase with
  | fresh absent held idle => exact .fresh (transition ▸ absent) (live ▸ held) (pending ▸ idle)
  | source current found distinct held awaits =>
    exact .source current (transition ▸ found) distinct (live ▸ held) (pending ▸ marks ▸ awaits)
  | swapped current update found distinct held restored waiting awaits trying =>
    exact .swapped current update (transition ▸ found) distinct (live ▸ held) (backup ▸ restored)
      (pending ▸ waiting) (marks ▸ awaits) (boots ▸ failed ▸ trying)
  | final current found distinct held idle stays =>
    exact .final current (transition ▸ found) distinct (live ▸ held) (pending ▸ idle) (marks ▸ failed ▸ stays)

section

variable (rollout : Rollout initial host)

include rollout

theorem Rollout.congr (same : SameRollout host after) :
    Rollout initial after where
  chronicle := same.marks ▸ rollout.chronicle
  floor := by rw [← same.update.floor, ← same.marks, rollout.floor]
  abandoned := by rw [← same.update.abandoned, ← same.marks, rollout.abandoned]
  restored := by
    rw [← same.restored, ← same.transition, ← same.live]
    exact rollout.restored
  bounded := same.completedBoots ▸ same.restoreFailed ▸ rollout.bounded
  labelled := fun kept => same.transition ▸ rollout.labelled (same.stranded kept)
  phase := rollout.phase.congr same

theorem Rollout.saved (same : SameUpdate host.state state) :
    Rollout initial (saved state host) :=
  rollout.congr ⟨same, rfl, rfl, rfl, rfl, rfl, rfl, rfl, id⟩

theorem Rollout.stranded (ending : Ending) :
    Rollout initial (noteStranded ending host) := by
  refine rollout.congr ⟨⟨rfl, rfl, rfl⟩, rfl, rfl, rfl, rfl, rfl, rfl, rfl, fun unstranded => ?_⟩
  exact (Bool.or_eq_false_iff.mp unstranded).1

theorem Rollout.setBackup
    (unswapped : ∀ transition, host.transition = some transition → host.state.pendingUpdate ≠ none →
      host.live ≠ .complete transition.target) (backup : Option Image) :
    Rollout initial { host with backup } := by
  refine { rollout with phase := ?_ }
  cases rollout.phase with
  | fresh transition live idle => exact .fresh transition live idle
  | source transition current distinct live awaits => exact .source transition current distinct live awaits
  | swapped transition pending current _ live _ waiting =>
    exact absurd live (unswapped transition current (by rw [waiting]; exact some_ne_none _))
  | final transition current distinct live idle stays => exact .final transition current distinct live idle stays

end

/-- Between the load of a state and the writes that derive from it. The breadcrumb may have been
written in between, but not the swap. -/
structure Kept (initial process : Binary) (prev : State) (host : Host) : Prop where
  rollout : Rollout initial host
  runs : Runs process host prev.pendingUpdate
  floor : host.state.agentVersionFloor = prev.agentVersionFloor
  abandoned : host.state.abandonedAgentVersion = prev.abandonedAgentVersion
  pending : host.state.pendingUpdate = prev.pendingUpdate ∨
    prev.pendingUpdate = none ∧ ∃ transition, host.transition = some transition ∧
      host.live = .complete transition.source

/-- Where a process that runs stands. -/
structure Serving (initial process : Binary) (host : Host) : Prop where
  rollout : Rollout initial host
  runs : Runs process host host.state.pendingUpdate

/-- How a program leaves the host. -/
structure Left (initial process : Binary) (ending : Ending) (host : Host) : Prop where
  rollout : Rollout initial host
  runs : ending = .continues → Runs process host host.state.pendingUpdate

theorem Runs.own {pending : Option PendingUpdate} (live : host.live = .complete process) : Runs process host pending :=
  ⟨process, live, .inl rfl⟩

theorem Serving.kept (serving : Serving initial process host) : Kept initial process host.state host :=
  ⟨serving.rollout, serving.runs, rfl, rfl, .inl rfl⟩

theorem Serving.left (serving : Serving initial process host) {ending : Ending} : Left initial process ending host :=
  ⟨serving.rollout, fun _ => serving.runs⟩

theorem Kept.serving (kept : Kept initial process prev host) : Serving initial process host := by
  refine ⟨kept.rollout, ?_⟩
  rcases kept.pending with same | ⟨idle, -⟩
  · exact same ▸ kept.runs
  · obtain ⟨binary, live, own | restored | ⟨update, waiting, -⟩⟩ := kept.runs
    · exact ⟨binary, live, .inl own⟩
    · exact ⟨binary, live, .inr (.inl restored)⟩
    · exact nomatch idle.symm.trans waiting

theorem Rollout.withdraw (rollout : Rollout initial host) (current : host.transition = some transition)
    (live : host.live = .complete transition.source) (floor : host.state.agentVersionFloor = state.agentVersionFloor)
    (abandoned : host.state.abandonedAgentVersion = state.abandonedAgentVersion) (idle : state.pendingUpdate = none) :
    Rollout initial (Agent.saved state host) where
  chronicle := rollout.chronicle
  floor := floor.symm.trans rollout.floor
  abandoned := abandoned.symm.trans rollout.abandoned
  restored := rollout.restored
  bounded := rollout.bounded
  labelled := rollout.labelled
  phase := by
    have distinct : transition.source ≠ transition.target := by
      cases rollout.phase with
      | fresh absent => rw [absent] at current; cases current
      | source other found distinct => rwa [mem_unique current found]
      | swapped other _ found distinct => rwa [mem_unique current found]
      | final other found distinct => rwa [mem_unique current found]
    exact .source transition current distinct live fun pending found => nomatch idle.symm.trans found

theorem Kept.save (kept : Kept initial process prev host) (same : SameUpdate prev state) :
    Kept initial process prev (Agent.saved state host) where
  rollout := by
    have floor := kept.floor.trans same.floor
    have abandoned := kept.abandoned.trans same.abandoned
    rcases kept.pending with held | ⟨idle, transition, current, live⟩
    · exact kept.rollout.saved ⟨floor, held.trans same.pending, abandoned⟩
    · exact kept.rollout.withdraw current live floor abandoned (same.pending.symm.trans idle)
  runs := kept.runs
  floor := same.floor.symm
  abandoned := same.abandoned.symm
  pending := .inl same.pending.symm

/-- What the decision to update has checked against the loaded state. -/
structure Armable (state : State) (process : Binary) (version : String) : Prop where
  nonempty : version ≠ ""
  above : compareVersions version process.version = .gt
  floor : state.agentVersionFloor ≠ "" → compareVersions version state.agentVersionFloor ≠ .lt
  fresh : state.abandonedAgentVersion ≠ "" → compareVersions version state.abandonedAgentVersion ≠ .eq

theorem decideSelfUpdate_armable {decision : UpdateDecision}
    (decided : decideSelfUpdate (some catalog) process.version state.agentVersionFloor state.abandonedAgentVersion
      = decision) (arms : decision = .forced ∨ decision = .afterApply) :
    Armable state process catalog.version := by
  subst decided
  simp only [decideSelfUpdate] at arms
  split at arms
  · simp at arms
  next named =>
  split at arms
  · simp at arms
  next moves =>
  split at arms
  · simp at arms
  next fresh =>
  split at arms
  · simp at arms
  next forward =>
  split at arms
  · simp at arms
  next floor =>
  refine ⟨?_, ?_, fun held below => floor ⟨held, below⟩, fun held same => fresh ⟨held, same⟩⟩
  · intro empty
    rw [empty] at named
    exact named rfl
  · -- not below the running version; and equal to it only when forced, which the minimum excludes
    cases order : compareVersions catalog.version process.version with
    | gt => rfl
    | lt => exact absurd order forward
    | eq =>
      split at arms
      · next forced =>
        split at arms
        · simp at arms
        · next reaches =>
          have behind : compareVersions process.version catalog.minVersion = .lt := by
            simp only [isForced, Bool.and_eq_true, decide_eq_true_eq] at forced
            exact forced.2
          exact absurd (TransCmp.lt_of_eq_of_lt order behind) reaches
      · next free => exact absurd ⟨order, by simpa using free⟩ moves

theorem fetchBinary_version (fetched : fetchBinary catalog release = .ok binary) :
    compareVersions binary.version catalog.version = .eq := by
  unfold fetchBinary at fetched
  split at fetched
  · cases fetched
  · split at fetched
    · cases fetched
    · split at fetched
      · cases fetched
      · split at fetched
        · cases fetched
        · split at fetched
          · cases fetched
          · next tested =>
            cases fetched
            by_contra other
            exact tested (.inr other)

theorem distinct_of_above (above : compareVersions version source.version = .gt)
    (tested : compareVersions binary.version version = .eq) : source ≠ binary := by
  intro same
  rw [same, OrientedCmp.gt_iff_lt, tested] at above
  cases above

/-- A process that may arm an update runs the live binary, or restored it: no update is pending. -/
theorem Kept.armable (kept : Kept initial process prev host) (idle : host.state.pendingUpdate = none)
    (armable : Armable prev process version) :
    prev.pendingUpdate = none ∧ ∃ source, host.live = .complete source ∧
      compareVersions version source.version = .gt ∧ (host.stranded = false → process = source) := by
  have none : prev.pendingUpdate = none := by
    rcases kept.pending with held | ⟨none, -⟩
    · exact held.symm.trans idle
    · exact none
  refine ⟨none, ?_⟩
  obtain ⟨source, live, rfl | ⟨stranded, older⟩ | ⟨update, waiting, -⟩⟩ := kept.runs
  · exact ⟨source, live, armable.above, fun _ => rfl⟩
  · refine ⟨source, live, TransCmp.gt_trans armable.above (OrientedCmp.gt_iff_lt.mpr older), fun kept => ?_⟩
    exact nomatch stranded.symm.trans kept
  · exact nomatch none.symm.trans waiting

theorem Kept.armed (kept : Kept initial process prev host) (none : prev.pendingUpdate = none)
    (live : host.live = .complete source) (above : compareVersions version source.version = .gt)
    (own : host.stranded = false → process = source) (armable : Armable prev process version)
    (tested : compareVersions binary.version version = .eq) :
    Kept initial process prev (armed nodeID process binary version host.state host) := by
  have current : (Agent.armed nodeID process binary version host.state host).transition =
      some { source, target := binary, running := process } := by
    simp only [Agent.armed, live, Image.getD]
  refine {
    runs := kept.runs, floor := kept.floor, abandoned := kept.abandoned,
    pending := .inr ⟨none, _, current, live⟩, rollout := {
      chronicle := ?_, floor := kept.rollout.floor, abandoned := kept.rollout.abandoned, restored := nofun,
      bounded := fun _ => Nat.zero_le _, labelled := ?_, phase := ?_ } }
  · refine .armed kept.rollout.chronicle armable.nonempty ?_ ?_
    · intro floor newest
      have held : prev.agentVersionFloor = floor := by
        rw [← kept.floor, kept.rollout.floor, mem_def.mp newest]
        rfl
      by_cases empty : floor = ""
      · subst empty
        have least : compareVersions "" version ≠ .gt := by
          rw [compareVersions_eq]
          cases versionParts version <;> exact nofun
        cases order : compareVersions "" version <;> simp_all
      · have above := armable.floor (held ▸ empty)
        rw [held] at above
        refine Ordering.isLE_iff_ne_gt.mpr fun below => above (OrientedCmp.gt_iff_lt.mp below)
    · rw [← kept.rollout.abandoned, kept.abandoned]
      exact armable.fresh
  · intro unstranded transition found
    rw [← mem_unique current found]
    exact own unstranded
  · refine .source _ current (distinct_of_above above tested) live ?_
    intro pending found
    cases found
    exact ⟨⟨_, rfl⟩, rfl, tested, above⟩

theorem Kept.setBackup (kept : Kept initial process prev host) (current : host.transition = some transition)
    (live : host.live = .complete source) (distinct : source ≠ transition.target) (backup : Option Image) :
    Kept initial process prev { host with backup } := by
  refine { kept with rollout := kept.rollout.setBackup (fun other found _ held => ?_) backup }
  obtain rfl := mem_unique current found
  exact distinct (Image.complete.inj (live.symm.trans held))

theorem copyFile_ensures {stops : Host → Prop} {ends : Unit → Host → Prop}
    (any : ∀ backup, stops { host with backup }) (done : ends () { host with backup := some host.live }) :
    Ensures host copyFile stops ends := by
  refine .bind ?_
  apply Ensures.attempt
  · exact any host.backup
  · exact .bind (Ensures.orCleanUp nofun fun _ => .pure (any host.backup))
  · exact .bind (Ensures.orCleanUp nofun fun _ => .pure (any _))
  · refine .bind ?_
    refine .orCleanUp (fun _ => ?_) nofun
    refine .bind ?_
    apply Ensures.attempt
    · exact any _
    · exact .orCleanUp nofun fun _ => Ensures.dropBackup (any _) (any _) (any _)
    · exact .orCleanUp nofun fun _ => Ensures.dropBackup (any _) (any _) (any _)
    · exact .orCleanUp (fun _ => done) nofun

theorem Kept.swapped (kept : Kept initial process prev (Agent.armed nodeID process binary version state host))
    (live : host.live = .complete source) (above : compareVersions version source.version = .gt)
    (armable : Armable prev process version) (tested : compareVersions binary.version version = .eq) :
    Serving initial process { Agent.armed nodeID process binary version state host with
      backup := some (.complete source), live := .complete binary } := by
  have current : (Agent.armed nodeID process binary version state host).transition =
      some { source, target := binary, running := process } := by
    simp only [Agent.armed, live, Image.getD]
  refine ⟨{ kept.rollout with restored := nofun, phase := ?_ }, binary, rfl, .inr (.inr ⟨_, rfl, ?_⟩)⟩
  · exact .swapped _ _ current (distinct_of_above above tested) rfl rfl rfl ⟨⟨_, rfl⟩, rfl, tested, above⟩
      fun _ => ⟨Nat.zero_le _, Nat.zero_le _⟩
  · exact OrientedCmp.gt_iff_lt.mp armable.above

theorem swapBinary_keeps (kept : Kept initial process prev host) (armable : Armable prev process catalog.version) :
    Ensures host (swapBinary nodeID process catalog release) (Kept initial process prev)
      fun _ => Serving initial process := by
  refine .require_bind (fun _ => kept) fun _ => ?_
  apply Ensures.loadState_bind
  refine .require_bind (fun _ => kept) fun idle => ?_
  refine .lift_bind (fun _ _ => kept) fun binary fetched => ?_
  apply Ensures.loadState_bind
  refine .require_bind (fun _ => kept) fun _ => ?_
  have tested := fetchBinary_version fetched
  obtain ⟨none, source, live, above, own⟩ := kept.armable idle armable
  have armed : Kept initial process prev (armed nodeID process binary catalog.version host.state host) :=
    kept.armed none live above own armable tested
  have any := armed.setBackup rfl live (distinct_of_above above tested)
  refine .bind ?_
  refine .write kept armed ?_
  refine .bind ?_
  refine copyFile_ensures any ?_
  refine .bind ?_
  apply Ensures.attemptExact
  · exact any _
  · exact .orCleanUp nofun fun _ => Ensures.dropBackup (any _) (any _) (any _)
  · refine .orCleanUp (fun _ => ?_) nofun
    have swapped := armed.swapped live above armable tested
    rw [← live] at swapped
    exact swapped

/-- A failure is one before the swap. -/
theorem performSelfUpdate_keeps
    (kept : Kept initial process prev host) (armable : Armable prev process catalog.version) :
    Meets host (performSelfUpdate nodeID process catalog release) (Serving initial process) (Kept initial process prev)
      (Left initial process) := by
  refine .bind ?_
  refine (swapBinary_keeps kept armable).meets (fun _ kept => kept.serving) (fun _ kept => kept) |>.weaken ?_
  exact fun _ _ serving => Meets.reExec serving serving.left serving.left

variable {pending : PendingUpdate}

section

variable {marks : List Mark} (awaits : Awaits transition pending marks)

include awaits

theorem Awaits.distinct : transition.source ≠ transition.target := distinct_of_above awaits.above awaits.target

theorem Awaits.chronicle {mark : Mark} (chronicle : Chronicle marks)
    (next : ∀ {earlier}, Chronicle (.armed pending.target :: earlier) →
      Chronicle (mark :: .armed pending.target :: earlier)) : Chronicle (mark :: marks) := by
  obtain ⟨earlier, rfl⟩ := awaits.armed
  exact next chronicle

theorem Awaits.source_differs : sameVersion transition.source.version pending.target = false := by
  have below : compareVersions transition.source.version pending.target = .lt :=
    OrientedCmp.gt_iff_lt.mp awaits.above
  rw [sameVersion, below]
  rfl

end

section

variable (rollout : Rollout initial host) {count : Nat}

include rollout

theorem Rollout.pending_cases (live : host.live = .complete process)
    (waiting : host.state.pendingUpdate = some pending) :
    ∃ transition, host.transition = some transition ∧ Awaits transition pending host.marks ∧
      (process = transition.source ∨ process = transition.target ∧ host.backup = some (.complete transition.source) ∧
        (host.restoreFailed = false → Trying pending host.completedBoots)) := by
  cases rollout.phase with
  | fresh _ _ idle => exact nomatch idle.symm.trans waiting
  | source transition current _ held awaits =>
    exact ⟨transition, current, awaits pending waiting, .inl (Image.complete.inj (live.symm.trans held))⟩
  | swapped transition update current _ held backup found awaits trying =>
    obtain rfl := mem_unique found waiting
    exact ⟨transition, current, awaits, .inr ⟨Image.complete.inj (live.symm.trans held), backup, trying⟩⟩
  | final _ _ _ _ idle => exact nomatch idle.symm.trans waiting

theorem Rollout.note (waiting : host.state.pendingUpdate = some pending)
    (noted : PendingUpdate) (source : noted.source = pending.source) (target : noted.target = pending.target)
    (attempts : pending.attempts ≤ noted.attempts)
    (next : SameUpdate { host.state with pendingUpdate := some noted } state) :
    Rollout initial (Agent.saved state host) := by
  have held : (Agent.saved state host).state.pendingUpdate = some noted := next.pending.symm
  refine { chronicle := rollout.chronicle, floor := next.floor.symm.trans rollout.floor,
           abandoned := next.abandoned.symm.trans rollout.abandoned, restored := rollout.restored,
           bounded := rollout.bounded, labelled := rollout.labelled, phase := ?_ }
  have renamed {transition : Transition} (awaits : Awaits transition pending host.marks) :
      Awaits transition noted host.marks :=
    ⟨target ▸ awaits.armed, source.trans awaits.source, target ▸ awaits.target, target ▸ awaits.above⟩
  cases rollout.phase with
  | fresh _ _ idle => exact nomatch idle.symm.trans waiting
  | source transition current distinct live awaits =>
    refine .source transition current distinct live fun found same => ?_
    obtain rfl := mem_unique held same
    exact renamed (awaits pending waiting)
  | swapped transition update current distinct live backup found awaits trying =>
    obtain rfl := mem_unique found waiting
    exact .swapped transition noted current distinct live backup held (renamed awaits) fun restorable =>
      ⟨Nat.le_trans (trying restorable).counted attempts, (trying restorable).capped⟩
  | final _ _ _ _ idle => exact nomatch idle.symm.trans waiting

section

variable (current : host.transition = some transition) (awaits : Awaits transition pending host.marks)

include current awaits

theorem Rollout.abandon
    (live : host.live = .complete transition.source ∨
      host.live = .complete transition.target ∧ host.restoreFailed = true) :
    Rollout initial (abandonedUpdate pending host.state host) where
  chronicle := awaits.chronicle rollout.chronicle .abandoned
  floor := rollout.floor
  abandoned := rfl
  restored := rollout.restored
  bounded := rollout.bounded
  labelled := rollout.labelled
  phase := by
    rcases live with source | ⟨target, failed⟩
    · exact .source transition current awaits.distinct source nofun
    · exact .final transition current awaits.distinct target rfl (.inr failed)

theorem Rollout.finalise (live : host.live = .complete transition.source ∨ host.live = .complete transition.target) :
    Rollout initial (finalisedUpdate pending host.state host) where
  chronicle := awaits.chronicle rollout.chronicle .finalised
  floor := rfl
  abandoned := rfl
  restored := rollout.restored
  bounded := rollout.bounded
  labelled := rollout.labelled
  phase := by
    rcases live with source | target
    · exact .source transition current awaits.distinct source nofun
    · exact .final transition current awaits.distinct target rfl (.inl ⟨_, _, rfl⟩)

theorem Rollout.restore (waiting : host.state.pendingUpdate = some pending) :
    Rollout initial { host with live := .complete transition.source, backup := none, restored := true } :=
  { rollout with
    restored := fun _ => ⟨transition, current, rfl⟩
    phase := .source transition current awaits.distinct rfl fun _ found => mem_unique waiting found ▸ awaits }

end

theorem Rollout.unrestored (count : Nat) :
    Rollout initial { host with completedBoots := count, restoreFailed := true } := by
  refine { rollout with bounded := nofun, phase := ?_ }
  cases rollout.phase with
  | fresh absent live idle => exact .fresh absent live idle
  | source transition current distinct live awaits => exact .source transition current distinct live awaits
  | swapped transition pending current distinct live backup waiting awaits =>
    exact .swapped transition pending current distinct live backup waiting awaits nofun
  | final transition current distinct live idle => exact .final transition current distinct live idle (.inr rfl)

theorem Rollout.recount_unrestored (failed : host.restoreFailed = true) (count : Nat) :
    Rollout initial { host with completedBoots := count } := by
  have unrestored := rollout.unrestored count
  rwa [← failed] at unrestored

theorem Rollout.recount (current : host.transition = some transition) (live : host.live = .complete transition.source)
    (bounded : host.restoreFailed = false → count ≤ maxSelfUpdateAttempts + 1) :
    Rollout initial { host with completedBoots := count } := by
  refine { rollout with bounded, phase := ?_ }
  cases rollout.phase with
  | fresh absent => exact nomatch absent.symm.trans current
  | source other found distinct held awaits => exact .source other found distinct held awaits
  | swapped other _ found distinct held =>
    obtain rfl := mem_unique found current
    exact absurd (Image.complete.inj (live.symm.trans held)) distinct
  | final other found distinct held =>
    obtain rfl := mem_unique found current
    exact absurd (Image.complete.inj (live.symm.trans held)) distinct

theorem Rollout.countAttempt (current : host.transition = some transition)
    (live : host.live = .complete transition.target)
    (backup : host.backup = some (.complete transition.source)) (waiting : host.state.pendingUpdate = some pending)
    (awaits : Awaits transition pending host.marks) (trying : host.restoreFailed = false → Trying pending count) :
    Rollout initial { host with completedBoots := count } :=
  { rollout with
    bounded := fun restorable => Nat.le_succ_of_le (trying restorable).capped
    phase := .swapped transition pending current awaits.distinct live backup waiting awaits trying }

theorem Rollout.onTrial_target (live : host.live = .complete process) (trial : host.onTrial process = true) :
    (∃ transition, host.transition = some transition ∧ process = transition.target) ∧
      (host.state.pendingUpdate ≠ none ∨ host.restoreFailed = true) := by
  unfold Host.onTrial at trial
  split at trial
  · cases trial
  · next _ transition current unresolved =>
    have same : process = transition.target := of_decide_eq_true trial
    refine ⟨⟨transition, current, same⟩, ?_⟩
    cases rollout.phase with
    | fresh absent => exact nomatch absent.symm.trans current
    | source other found distinct held =>
      obtain rfl := mem_unique found current
      exact absurd (same ▸ (Image.complete.inj (live.symm.trans held)).symm) distinct
    | swapped _ _ _ _ _ _ waiting => exact .inl fun idle => nomatch idle.symm.trans waiting
    | final other found _ _ _ stays =>
      rcases stays with ⟨version, earlier, marks⟩ | failed
      · exact absurd (by rw [marks]; rfl) (unresolved version)
      · exact .inr failed
  · cases trial

theorem Rollout.onTrial_iff (live : host.live = .complete process) (waiting : host.state.pendingUpdate = some pending) :
    host.onTrial process = true ↔
      ∃ transition, host.transition = some transition ∧ process = transition.target := by
  refine ⟨fun trial => (rollout.onTrial_target live trial).1, fun ⟨transition, current, same⟩ => ?_⟩
  obtain ⟨_, _, awaits, -⟩ := rollout.pending_cases live waiting
  obtain ⟨earlier, marks⟩ := awaits.armed
  simp [Host.onTrial, current, marks, same]

end

end

end Yaog.Agent
