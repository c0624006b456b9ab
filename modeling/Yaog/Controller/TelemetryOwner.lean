import Yaog.Controller.StoreFacts
import Yaog.Controller.Telemetry

/-!
# Whose capabilities are live

The boot that owns the overlay is decided by sequence and sample time, and the live metrics are replaced by receipt
time.
-/

namespace Yaog.Controller

open Data List

namespace TelemetryCall

def source : TelemetryCall → Option Source
  | .heartbeat _ _ _ _ _ => some .heartbeat
  | .sequenced _ sample => some sample.source
  | .touch _ _ | .report _ _ _ => none

def metrics : TelemetryCall → Metrics
  | .heartbeat _ _ metrics _ _ => metrics
  | .sequenced _ sample => sample.metrics
  | .touch _ _ | .report _ _ _ => ∅

end TelemetryCall

def ClaimKept (before after : Metrics) : Prop :=
  ∀ claim : List UInt8, after[agentCapabilitiesKey]? = some claim → before[agentCapabilitiesKey]? = some claim

theorem ClaimKept.refl (metrics : Metrics) : ClaimKept metrics metrics := fun _ held => held

theorem ClaimKept.of_eq {before after : Metrics} (same : after = before) : ClaimKept before after := same ▸ .refl _

theorem ClaimKept.erase (metrics : Metrics) : ClaimKept metrics (metrics.erase agentCapabilitiesKey) := by
  intro claim held
  rw [Records.getElem?_erase] at held
  split at held
  · cases held
  · exact held

theorem ClaimKept.live (metrics : Metrics) : ClaimKept metrics (cloneLiveMetrics metrics) := by
  intro claim held
  rw [cloneLiveMetrics, Std.ExtTreeMap.getElem?_filter, Option.pfilter_eq_some_iff] at held
  exact held.1

theorem ClaimKept.trans {first second third : Metrics} (earlier : ClaimKept first second) (later : ClaimKept second third) :
    ClaimKept first third :=
  fun claim held => earlier claim (later claim held)

/-- The ways in which a call leaves the owner of the overlay and the live metrics. -/
inductive LiveChange (node : NodeTelemetry) (call : TelemetryCall) (after : NodeTelemetry) : Prop
  /-- Nothing was written, and the owner is the same. -/
  | kept (writer : after.writer = node.writer) (claim : ClaimKept node.telemetry after.telemetry)
      (active : after.activeBootID = node.activeBootID) (activated : after.activated = node.activated)
  /-- Another boot owns the overlay, and has written nothing. -/
  | overtook (lookup : NodeLookup) (sample : SequencedSample) (same : call = .sequenced lookup sample)
      (other : sample.bootID ≠ node.activeBootID) (stale : sample.receivedAt < node.writtenAt)
      (writer : after.writer = node.writer) (claim : ClaimKept node.telemetry after.telemetry)
  /-- The sample was written, and its boot is the owner. -/
  | wrote (lookup : NodeLookup) (sample : SequencedSample) (same : call = .sequenced lookup sample)
      (writer : after.writer = some (sample.source, node.calls)) (claim : ClaimKept call.metrics after.telemetry)
      (active : after.activeBootID = sample.bootID)
  /-- A heartbeat was written, and the owner is the same or none. -/
  | refreshed (source : call.source = some .heartbeat) (writer : after.writer = some (.heartbeat, node.calls))
      (claim : ClaimKept call.metrics after.telemetry)
      (active : after.activeBootID = "" ∨ after.activeBootID = node.activeBootID)
      (activated : after.activated = node.activated)

/-- And the history of the node is kept with it. -/
structure Performed (node : NodeTelemetry) (call : TelemetryCall) (after : NodeTelemetry) : Prop where
  calls : after.calls = node.calls
  activated : after.activated = node.activated ∨ after.activated = node.calls
  change : LiveChange node call after

namespace NodeTelemetry

variable {node : NodeTelemetry} {call : TelemetryCall}

/-- The fields that decide whose claim is live. -/
structure SameOwner (before after : NodeTelemetry) : Prop where
  telemetry : after.telemetry = before.telemetry
  writer : after.writer = before.writer
  active : after.activeBootID = before.activeBootID
  activated : after.activated = before.activated
  telemetrySet : after.telemetrySet = before.telemetrySet
  writtenAt : after.writtenAt = before.writtenAt
  calls : after.calls = before.calls

theorem SameOwner.performed {after : NodeTelemetry} (same : SameOwner node after) : Performed node call after :=
  ⟨same.calls, .inl same.activated, .kept same.writer (.of_eq same.telemetry) same.active same.activated⟩

theorem seenAt_sameOwner (node : NodeTelemetry) (moment : Moment) : SameOwner node (node.seenAt moment) := by
  unfold seenAt
  split
  · exact ⟨rfl, rfl, rfl, rfl, rfl, rfl, rfl⟩
  · exact ⟨rfl, rfl, rfl, rfl, rfl, rfl, rfl⟩

theorem advanceCursor_sameOwner (node : NodeTelemetry) (sample : SequencedSample) :
    SameOwner node (node.advanceCursor sample) := by
  unfold advanceCursor makeRoom
  split
  · exact ⟨rfl, rfl, rfl, rfl, rfl, rfl, rfl⟩
  · exact ⟨rfl, rfl, rfl, rfl, rfl, rfl, rfl⟩

theorem SameOwner.trans {before middle after : NodeTelemetry} (first : SameOwner before middle)
    (second : SameOwner middle after) : SameOwner before after :=
  ⟨second.telemetry.trans first.telemetry, second.writer.trans first.writer, second.active.trans first.active,
    second.activated.trans first.activated, second.telemetrySet.trans first.telemetrySet,
    second.writtenAt.trans first.writtenAt, second.calls.trans first.calls⟩

section

variable (node : NodeTelemetry)

theorem recordTelemetryLocked_cases (source : Source) (conditions : List Condition)
    (metrics : Metrics) (agentVersion : String) (observedAt historyAt : Moment) (interval : Int) :
    let after := node.recordTelemetryLocked source conditions metrics agentVersion observedAt historyAt interval
    (after.writer = some (source, node.calls) ∧ ClaimKept metrics after.telemetry ∧
        after.activeBootID = node.activeBootID ∧ after.activated = node.activated ∧ after.calls = node.calls) ∨
      (node.telemetrySet = true ∧ observedAt < node.writtenAt ∧ SameOwner node after) := by
  have seen := node.seenAt_sameOwner observedAt
  unfold recordTelemetryLocked
  dsimp only
  split
  · exact .inl ⟨congrArg (fun calls => some (source, calls)) seen.calls, .live _, seen.active, seen.activated, seen.calls⟩
  · next stale =>
    obtain ⟨set, older⟩ := not_or.mp stale
    refine .inr ⟨?_, ?_, ⟨seen.telemetry, seen.writer, seen.active, seen.activated, seen.telemetrySet, seen.writtenAt,
      seen.calls⟩⟩
    · rw [← seen.telemetrySet]
      exact Bool.eq_true_of_not_eq_false set
    · rw [← seen.writtenAt]
      exact Int.not_le.mp older

theorem dropAmbiguous_claim (sample : SequencedSample) :
    ClaimKept node.telemetry (node.dropAmbiguous sample).telemetry ∧
      (node.dropAmbiguous sample).writer = node.writer ∧
      (node.dropAmbiguous sample).activeBootID = node.activeBootID ∧
      (node.dropAmbiguous sample).activated = node.activated ∧
      (node.dropAmbiguous sample).writtenAt = node.writtenAt ∧
      (node.dropAmbiguous sample).calls = node.calls := by
  unfold dropAmbiguous
  split
  · exact ⟨.erase _, rfl, rfl, rfl, rfl, rfl⟩
  · exact ⟨.refl _, rfl, rfl, rfl, rfl, rfl⟩

theorem accept_change (lookup : NodeLookup) (sample : SequencedSample) :
    Performed node (.sequenced lookup sample) (node.accept sample) := by
  obtain ⟨claim, writer, active, activated, written, calls⟩ := node.dropAmbiguous_claim sample
  have heard := ((node.dropAmbiguous sample).advanceCursor_sameOwner sample).trans
    (((node.dropAmbiguous sample).advanceCursor sample).seenAt_sameOwner sample.receivedAt)
  unfold accept
  generalize ((node.dropAmbiguous sample).advanceCursor sample).seenAt sample.receivedAt = next at heard ⊢
  have claim : ClaimKept node.telemetry next.telemetry := heard.telemetry ▸ claim
  have active : next.activeBootID = node.activeBootID := heard.active.trans active
  have activated : next.activated = node.activated := heard.activated.trans activated
  have calls : next.calls = node.calls := heard.calls.trans calls
  split
  · generalize stripped : (if node.ambiguousCrossBoot sample then _ else sample.metrics) = liveMetrics
    have own : ClaimKept sample.metrics liveMetrics := by
      rw [← stripped]
      split
      · exact .erase _
      · exact .refl _
    have since : (next.takeOver sample (node.historyAt sample)).activated = node.activated ∨
        (next.takeOver sample (node.historyAt sample)).activated = node.calls := by
      unfold takeOver
      dsimp only
      split
      · exact .inl activated
      · exact .inr calls
    rcases (next.takeOver sample (node.historyAt sample)).recordTelemetryLocked_cases sample.source sample.conditions
      liveMetrics sample.agentVersion sample.receivedAt (node.historyAt sample) (max sample.interval 0) with
      ⟨wrote, fresh, owner, counted, total⟩ | ⟨-, stale, same⟩
    · refine ⟨total.trans calls, ?_, .wrote lookup sample rfl ?_ (own.trans fresh) owner⟩
      · rw [counted]
        exact since
      · rw [wrote]
        exact congrArg (fun calls => some (sample.source, calls)) calls
    · refine ⟨same.calls.trans calls, same.activated ▸ since, ?_⟩
      by_cases own : sample.bootID = node.activeBootID
      · refine .kept (same.writer.trans (heard.writer.trans writer)) ?_ (same.active.trans own) ?_
        · rw [same.telemetry]
          exact claim
        · rw [same.activated]
          exact (if_pos (active.trans own.symm)).trans activated
      · refine .overtook lookup sample rfl own ?_ (same.writer.trans (heard.writer.trans writer)) ?_
        · exact (heard.writtenAt.trans written) ▸ stale
        · rw [same.telemetry]
          exact claim
  · exact ⟨calls, .inl activated, .kept (heard.writer.trans writer) claim active activated⟩

theorem deliver_change (lookup : NodeLookup) (sample : SequencedSample) :
    Performed node (.sequenced lookup sample) (node.deliver sample).2 := by
  have duplicate (cursor : TelemetrySequenceCursor) :
      Performed node (.sequenced lookup sample) (node.acceptDuplicate sample cursor) := by
    unfold acceptDuplicate
    split
    · have same := ({ node with
        sequenceCursors := node.sequenceCursors.insert sample.bootID
          { cursor with lastReceivedAt := sample.receivedAt } } : NodeTelemetry).seenAt_sameOwner sample.receivedAt
      exact SameOwner.performed ⟨same.telemetry, same.writer, same.active, same.activated, same.telemetrySet,
        same.writtenAt, same.calls⟩
    · exact (node.seenAt_sameOwner sample.receivedAt).performed
  unfold deliver
  split
  · split
    · exact duplicate _
    · exact node.accept_change lookup sample
  · exact node.accept_change lookup sample

theorem heartbeat_change (lookup : NodeLookup) (conditions : List Condition) (metrics : Metrics)
    (agentVersion : String) (observedAt : Moment) :
    Performed node (.heartbeat lookup conditions metrics agentVersion observedAt)
      ((node.release metrics observedAt).recordTelemetryLocked .heartbeat conditions metrics agentVersion observedAt
        observedAt 0) := by
  rcases (node.release metrics observedAt).recordTelemetryLocked_cases .heartbeat conditions metrics agentVersion
    observedAt observedAt 0 with ⟨wrote, fresh, owner, since, total⟩ | ⟨set, stale, same⟩
  · have released : (node.release metrics observedAt).calls = node.calls ∧
        (node.release metrics observedAt).activated = node.activated ∧
        ((node.release metrics observedAt).activeBootID = "" ∨
          (node.release metrics observedAt).activeBootID = node.activeBootID) := by
      unfold release
      split
      · exact ⟨rfl, rfl, .inl rfl⟩
      · exact ⟨rfl, rfl, .inr rfl⟩
    have activated := since.trans released.2.1
    refine ⟨total.trans released.1, .inl activated, .refreshed rfl ?_ fresh ?_ activated⟩
    · rw [wrote, released.1]
    · rw [owner]
      exact released.2.2
  · -- What is too old to be written does not end an ownership either.
    have kept : node.release metrics observedAt = node := by
      unfold release at stale ⊢
      split
      · next ends =>
        rw [if_pos ends] at stale
        exact absurd ends.2.1 (Int.not_le.mpr stale)
      · rfl
    rw [kept] at same ⊢
    exact same.performed

theorem perform_change (call : TelemetryCall) : Performed node call (node.perform call) := by
  refine perform_cases (motive := Performed node) node call ?_ ?_ ?_ ?_ ?_ ?_
  · exact ⟨rfl, .inl rfl, .kept rfl (.refl _) rfl rfl⟩
  · exact node.heartbeat_change
  · exact fun lookup sample _ => node.deliver_change lookup sample
  · exact fun _ moment => (node.seenAt_sameOwner moment).performed
  · exact fun _ _ observedAt => (node.seenAt_sameOwner observedAt).performed
  · intro conditions agentVersion observedAt version _
    have same := ({ node with
      conditions, telemetrySet := true, writtenAt := observedAt, agentVersion := version } :
        NodeTelemetry).seenAt_sameOwner observedAt
    exact ⟨same.calls, .inl same.activated, .kept same.writer (.of_eq same.telemetry) same.active same.activated⟩

end

def WrittenBy (past : List TelemetryCall) (node : NodeTelemetry) : Prop :=
  ∀ claim : List UInt8, node.telemetry[agentCapabilitiesKey]? = some claim → ∃ source index call,
    node.writer = some (source, index + 1) ∧ past[index]? = some call ∧ call.source = some source ∧
      call.metrics[agentCapabilitiesKey]? = some claim

/-- The call that wrote a live claim was a sample of the active boot, or a heartbeat that came after that boot had
become active. -/
def Owns (node : NodeTelemetry) : Prop :=
  node.activeBootID ≠ "" → agentCapabilitiesKey ∈ node.telemetry → ∃ source written, node.writer = some (source, written) ∧
    ((∃ sequence, source = .sequenced node.activeBootID sequence) ∨ (source = .heartbeat ∧ node.activated < written))

structure Traced (past : List TelemetryCall) (node : NodeTelemetry) : Prop where
  calls : node.calls = past.length
  activated : node.activated ≤ past.length
  written : WrittenBy past node
  owns : Owns node

/-- The sample of another boot than the active one is not older than the last write, as long as there is a live
claim of capabilities. -/
def InOrder (node : NodeTelemetry) : TelemetryCall → Prop
  | .sequenced _ sample =>
    sample.bootID ≠ node.activeBootID → agentCapabilitiesKey ∈ node.telemetry → node.writtenAt ≤ sample.receivedAt
  | .heartbeat _ _ _ _ _ | .touch _ _ | .report _ _ _ => True

variable {past : List TelemetryCall}

theorem WrittenBy.step {after : NodeTelemetry} (written : WrittenBy past node) (counted : node.calls = past.length + 1)
    (change : LiveChange node call after) : WrittenBy (past ++ [call]) after := by
  have earlier (writer : after.writer = node.writer) (kept : ClaimKept node.telemetry after.telemetry) :
      WrittenBy (past ++ [call]) after := by
    intro claim held
    obtain ⟨source, index, wrote, named, made, carried, told⟩ := written claim (kept claim held)
    refine ⟨source, index, wrote, writer.trans named, ?_, carried, told⟩
    rw [List.getElem?_append_left (List.getElem?_eq_some_iff.mp made).1]
    exact made
  have own (source : Source) (same : call.source = some source) (writer : after.writer = some (source, node.calls))
      (kept : ClaimKept call.metrics after.telemetry) : WrittenBy (past ++ [call]) after := by
    intro claim held
    refine ⟨source, past.length, call, ?_, ?_, same, kept claim held⟩
    · rw [writer, counted]
    · rw [getElem?_append_right (le_refl _), Nat.sub_self]
      rfl
  cases change with
  | kept writer claim => exact earlier writer claim
  | overtook lookup sample same other stale writer claim => exact earlier writer claim
  | wrote lookup sample same writer claim active => exact own sample.source (same ▸ rfl) writer claim
  | refreshed source writer claim active => exact own .heartbeat source writer claim

theorem Owns.step {after : NodeTelemetry} (owns : Owns node) (earlier : node.activated < node.calls)
    (inOrder : InOrder node call) (change : LiveChange node call after) : Owns after := by
  intro active present
  have before (kept : ClaimKept node.telemetry after.telemetry) : agentCapabilitiesKey ∈ node.telemetry := by
    obtain ⟨claim, held⟩ := Records.mem_iff.mp present
    exact Records.mem_iff.mpr ⟨claim, kept claim held⟩
  cases change with
  | kept writer claim same activated =>
    rw [same] at active
    rw [writer, same, activated]
    exact owns active (before claim)
  | overtook lookup sample same other stale writer claim =>
    subst same
    exact absurd (inOrder other (before claim)) (Int.not_le.mpr stale)
  | wrote lookup sample same writer claim owner =>
    rw [writer, owner]
    exact ⟨sample.source, _, rfl, .inl ⟨sample.sequence, rfl⟩⟩
  | refreshed source writer claim same activated =>
    rw [writer, activated]
    exact ⟨.heartbeat, _, rfl, .inr ⟨rfl, earlier⟩⟩

theorem Traced.step (traced : Traced past node) (inOrder : InOrder node call) :
    Traced (past ++ [call]) (node.step call) := by
  have counted : ({ node with calls := node.calls + 1 } : NodeTelemetry).calls = past.length + 1 :=
    congrArg (· + 1) traced.calls
  have performed := ({ node with calls := node.calls + 1 } : NodeTelemetry).perform_change call
  constructor
  · rw [length_append]
    exact performed.calls.trans counted
  · rw [length_append]
    rcases performed.activated with same | same
    · exact same.le.trans (traced.activated.trans (Nat.le_add_right _ _))
    · exact (same.trans counted).le
  · have written : WrittenBy past { node with calls := node.calls + 1 } := traced.written
    exact written.step counted performed.change
  · have owns : Owns { node with calls := node.calls + 1 } := traced.owns
    refine owns.step ?_ ?_ performed.change
    · rw [counted]
      exact Nat.lt_succ_of_le traced.activated
    · cases call <;> exact inOrder

def Orderly : NodeTelemetry → List TelemetryCall → Prop
  | _, [] => True
  | node, call :: rest => InOrder node call ∧ (node.step call).Orderly rest

theorem Traced.after {calls : List TelemetryCall} (traced : Traced past node) (orderly : node.Orderly calls) :
    Traced (past ++ calls) (node.after calls) := by
  induction calls generalizing past node with
  | nil =>
    rw [append_nil]
    exact traced
  | cons call rest ih =>
    have next := ih (traced.step orderly.1) orderly.2
    rw [append_assoc] at next
    exact next

theorem start_traced : Traced [] {} := by
  refine ⟨rfl, le_refl _, fun claim held => ?_, fun active => absurd rfl active⟩
  cases held

end NodeTelemetry

/-- In every run whose samples of other boots than the active one are received in order: while a boot is active, a
live claim of capabilities is the one that a sample of that boot carried, or a heartbeat that came after the boot had
become active. -/
theorem capabilities_of_active_boot (calls : List TelemetryCall) (orderly : ({} : NodeTelemetry).Orderly calls) :
    let node := NodeTelemetry.after {} calls
    node.activeBootID ≠ "" → ∀ claim : List UInt8, node.telemetry[agentCapabilitiesKey]? = some claim →
      ∃ index call, calls[index]? = some call ∧ call.metrics[agentCapabilitiesKey]? = some claim ∧
        ((∃ sequence, call.source = some (.sequenced node.activeBootID sequence)) ∨
          (call.source = some .heartbeat ∧ node.activated ≤ index)) := by
  intro node active claim held
  have traced : NodeTelemetry.Traced calls node := NodeTelemetry.start_traced.after orderly
  obtain ⟨source, index, call, writer, made, same, told⟩ := traced.written claim held
  obtain ⟨owner, written, wrote, owned⟩ := traced.owns active (Records.mem_iff.mpr ⟨claim, held⟩)
  obtain ⟨rfl, rfl⟩ := Prod.mk.inj (Option.mem_unique writer wrote)
  refine ⟨index, call, made, told, ?_⟩
  rcases owned with ⟨sequence, own⟩ | ⟨heartbeat, later⟩
  · exact .inl ⟨sequence, own ▸ same⟩
  · exact .inr ⟨heartbeat ▸ same, Nat.le_of_lt_succ later⟩

def sampleClaim (claim : List UInt8) : Metrics := (∅ : Metrics).insert agentCapabilitiesKey claim

def sampleBoot (bootID : String) (metrics : Metrics) (moment : Moment) : TelemetryCall :=
  .sequenced .found { metrics, bootID, sequence := 1, sampledAt := moment, receivedAt := moment }

def sampleBoots : List TelemetryCall :=
  [sampleBoot "a" (sampleClaim [1]) 1000, .report [] "" 2000, sampleBoot "b" (sampleClaim [2]) 3000]

theorem sampleBoot_owned :
    (NodeTelemetry.after {} sampleBoots).activeBootID = "b" ∧
    ∃ index call, sampleBoots[index]? = some call ∧ call.metrics[agentCapabilitiesKey]? = some [2] ∧
      ((∃ sequence, call.source = some (.sequenced (NodeTelemetry.after {} sampleBoots).activeBootID sequence)) ∨
        (call.source = some .heartbeat ∧ (NodeTelemetry.after {} sampleBoots).activated ≤ index)) := by
  refine ⟨by decide +kernel, capabilities_of_active_boot sampleBoots ⟨?_, trivial, ?_, trivial⟩ (by decide +kernel) [2]
    (by decide +kernel)⟩
  · intro _ present
    exact absurd present (by decide +kernel)
  · intro _ _
    decide +kernel

/-- A report was observed after the sample of the second boot, and recorded before it. The second boot makes no
claim, and the claim of the first one stays live. -/
theorem sampleBoot_inherits :
    let calls := [sampleBoot "a" (sampleClaim [1]) 1000, .report [] "" 3000, sampleBoot "b" ∅ 2000]
    (NodeTelemetry.after {} calls).activeBootID = "b" ∧
      (NodeTelemetry.after {} calls).telemetry[agentCapabilitiesKey]? = some [1] ∧
      ∀ call ∈ calls, call.metrics[agentCapabilitiesKey]? = some [1] →
        call.source = some (.sequenced "a" 1) := by
  decide +kernel

end Yaog.Controller
