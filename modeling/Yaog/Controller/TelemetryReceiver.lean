import Yaog.Controller.StoreFacts
import Yaog.Controller.Telemetry
import Yaog.Data.HighWater

/-!
# Sequenced samples as numbers above a mark

For one boot the overlay is a receiver that remembers the highest sequence number, as long as its cursor is kept:
each sample of the boot is an offer, and no other call is one.
-/

namespace Yaog.Controller

open Data List

def HistoryAppend.sequenceOf (bootID : String) (append : HistoryAppend) : Option Nat :=
  match append.source with
  | .sequenced boot sequence => if boot = bootID then some sequence else none
  | .heartbeat => none

namespace NodeTelemetry

def receiver (node : NodeTelemetry) (bootID : String) : HighWater where
  mark := node.sequenceCursors[bootID]?.map (·.highestSequence)
  handed := node.history.filterMap (·.sequenceOf bootID)

/-- The records that are appended, with the cursors left as they are. -/
structure Appends (before : NodeTelemetry) (entries : List HistoryAppend) (after : NodeTelemetry) : Prop where
  history : after.history = before.history ++ entries
  cursors : after.sequenceCursors = before.sequenceCursors

variable {node : NodeTelemetry} {sample : SequencedSample} {bootID : String} {after : NodeTelemetry}
  {call : TelemetryCall}

theorem Appends.of_same {before : NodeTelemetry} (history : after.history = before.history)
    (cursors : after.sequenceCursors = before.sequenceCursors) : Appends before [] after :=
  ⟨history.trans (append_nil _).symm, cursors⟩

theorem Appends.trans {before middle : NodeTelemetry} {first second : List HistoryAppend}
    (earlier : Appends before first middle) (later : Appends middle second after) :
    Appends before (first ++ second) after := by
  refine ⟨?_, later.cursors.trans earlier.cursors⟩
  rw [later.history, earlier.history, append_assoc]

section

variable (node : NodeTelemetry)

theorem seenAt_appends (moment : Moment) : Appends node [] (node.seenAt moment) := by
  unfold seenAt
  split
  · exact .of_same rfl rfl
  · exact .of_same rfl rfl

theorem recordTelemetryLocked_appends (source : Source) (conditions : List Condition)
    (metrics : Metrics) (agentVersion : String) (observedAt historyAt : Moment) (interval : Int) :
    Appends node [{ source, metrics, historyAt, interval }]
      (node.recordTelemetryLocked source conditions metrics agentVersion observedAt historyAt interval) := by
  have told : Appends node [{ source, metrics, historyAt, interval }]
      ((node.seenAt observedAt).appendTelemetryHistory source metrics historyAt interval) :=
    (node.seenAt_appends observedAt).trans ⟨rfl, rfl⟩
  unfold recordTelemetryLocked
  dsimp only
  split
  · exact ⟨told.history, told.cursors⟩
  · exact told

theorem release_appends (metrics : Metrics) (observedAt : Moment) :
    Appends node [] (node.release metrics observedAt) := by
  unfold release
  split
  · exact .of_same rfl rfl
  · exact .of_same rfl rfl

theorem makeRoom_cursors (sample : SequencedSample) (bootID : String) :
    (node.makeRoom sample).history = node.history ∧
      ((node.makeRoom sample).sequenceCursors[bootID]? = node.sequenceCursors[bootID]? ∨
        (node.makeRoom sample).sequenceCursors[bootID]? = none) := by
  unfold makeRoom
  split
  · refine ⟨rfl, ?_⟩
    unfold evictOldestTelemetryCursor
    dsimp only
    split
    · rw [Records.getElem?_erase]
      split
      · exact .inr rfl
      · exact .inl rfl
    · exact .inl rfl
  · exact ⟨rfl, .inl rfl⟩

theorem accept_appends (sample : SequencedSample) :
    ∃ entry, entry.source = sample.source ∧
      Appends ((node.dropAmbiguous sample).advanceCursor sample) [entry] (node.accept sample) := by
  unfold accept
  have seen := ((node.dropAmbiguous sample).advanceCursor sample).seenAt_appends sample.receivedAt
  generalize ((node.dropAmbiguous sample).advanceCursor sample).seenAt sample.receivedAt = next at seen ⊢
  split
  · generalize (if node.ambiguousCrossBoot sample then _ else sample.metrics) = liveMetrics
    have taken : Appends next [] (next.takeOver sample (node.historyAt sample)) := .of_same rfl rfl
    exact ⟨_, rfl, (seen.trans taken).trans (recordTelemetryLocked_appends _ _ _ _ _ _ _ _)⟩
  · exact ⟨_, rfl, seen.trans ⟨rfl, rfl⟩⟩

theorem dropAmbiguous_appends (sample : SequencedSample) :
    Appends node [] (node.dropAmbiguous sample) := by
  unfold dropAmbiguous
  split
  · exact .of_same rfl rfl
  · exact .of_same rfl rfl

theorem accept_receiver (sample : SequencedSample) (bootID : String) :
    (node.accept sample).history.filterMap (·.sequenceOf bootID) =
        (node.receiver bootID).handed ++ (if sample.bootID = bootID then [sample.sequence] else []) ∧
      ((node.accept sample).receiver sample.bootID).mark = some sample.sequence ∧
      (sample.bootID ≠ bootID → (node.accept sample).sequenceCursors[bootID]? = node.sequenceCursors[bootID]? ∨
        (node.accept sample).sequenceCursors[bootID]? = none) := by
  obtain ⟨entry, source, appends⟩ := node.accept_appends sample
  have dropped := node.dropAmbiguous_appends sample
  have room := (node.dropAmbiguous sample).makeRoom_cursors sample bootID
  refine ⟨?_, ?_, fun other => ?_⟩
  · have history : ((node.dropAmbiguous sample).advanceCursor sample).history = node.history :=
      room.1.trans (dropped.history.trans (append_nil _))
    rw [appends.history, history, filterMap_append]
    congr 1
    by_cases own : sample.bootID = bootID
    · simp [HistoryAppend.sequenceOf, source, SequencedSample.source, own]
    · simp [HistoryAppend.sequenceOf, source, SequencedSample.source, own]
  · simp only [receiver, appends.cursors, advanceCursor, Records.getElem?_insert, if_true, Option.map_some, advancedCursor]
  · rw [appends.cursors, advanceCursor]
    simp only [Records.getElem?_insert, if_neg other]
    rw [← dropped.cursors]
    exact room.2

theorem deliver_offer (sample : SequencedSample) :
    (node.deliver sample).2.receiver sample.bootID = (node.receiver sample.bootID).offer sample.sequence := by
  obtain ⟨handed, mark, -⟩ := node.accept_receiver sample sample.bootID
  have fresh (uncovered : (node.receiver sample.bootID).covers sample.sequence = false) :
      (node.accept sample).receiver sample.bootID = (node.receiver sample.bootID).offer sample.sequence := by
    rw [if_pos rfl] at handed
    rw [HighWater.offer, if_neg (Bool.eq_false_iff.mp uncovered), ← mark, ← handed]
    rfl
  unfold deliver
  cases held : node.sequenceCursors[sample.bootID]? with
  | none => exact fresh (by simp [HighWater.covers, receiver, held])
  | some cursor =>
    dsimp only
    split
    · next known =>
      have covered : (node.receiver sample.bootID).covers sample.sequence = true := by
        simp [HighWater.covers, receiver, held, known]
      rw [HighWater.offer, if_pos covered, acceptDuplicate]
      generalize heard : (if cursor.lastReceivedAt < sample.receivedAt then _ else node) = touched
      have same : touched.receiver sample.bootID = node.receiver sample.bootID := by
        rw [← heard]
        split
        · simp only [receiver, Records.getElem?_insert, if_true, held, Option.map_some]
        · rfl
      have seen := touched.seenAt_appends sample.receivedAt
      rw [← same]
      simp only [receiver, seen.history, seen.cursors, append_nil]
    · next newer => exact fresh (by simp [HighWater.covers, receiver, held, newer])

end

def Foreign (bootID : String) : TelemetryCall → Prop
  | .sequenced _ sample => sample.bootID ≠ bootID
  | .heartbeat _ _ _ _ _ | .touch _ _ | .report _ _ _ => True

instance (bootID : String) (call : TelemetryCall) : Decidable (Foreign bootID call) :=
  match call with
  | .sequenced _ sample => inferInstanceAs (Decidable (sample.bootID ≠ bootID))
  | .heartbeat _ _ _ _ _ => .isTrue trivial
  | .touch _ _ => .isTrue trivial
  | .report _ _ _ => .isTrue trivial

/-- Nothing is handed on for the boot, whose cursor is the same or has gone. -/
structure Aside (bootID : String) (before after : NodeTelemetry) : Prop where
  handed : (after.receiver bootID).handed = (before.receiver bootID).handed
  cursor : after.sequenceCursors[bootID]? = before.sequenceCursors[bootID]? ∨ after.sequenceCursors[bootID]? = none

theorem Appends.aside {entries : List HistoryAppend} (appends : Appends node entries after)
    (foreign : ∀ entry ∈ entries, entry.sequenceOf bootID = none) : Aside bootID node after := by
  refine ⟨?_, .inl (by rw [appends.cursors])⟩
  simp only [receiver, appends.history, filterMap_append]
  rw [filterMap_eq_nil_iff.mpr foreign, append_nil]

theorem deliver_aside (node : NodeTelemetry) (other : sample.bootID ≠ bootID) :
    Aside bootID node (node.deliver sample).2 := by
  obtain ⟨handed, -, cursor⟩ := node.accept_receiver sample bootID
  have fresh : Aside bootID node (node.accept sample) := by
    refine ⟨?_, cursor other⟩
    rw [if_neg other, append_nil] at handed
    exact handed
  unfold deliver
  split
  · next known held =>
    split
    · unfold acceptDuplicate
      split
      · have seen := ({ node with
          sequenceCursors := node.sequenceCursors.insert sample.bootID
            { known with lastReceivedAt := sample.receivedAt } } : NodeTelemetry).seenAt_appends sample.receivedAt
        refine ⟨?_, .inl ?_⟩
        · simp only [receiver, seen.history, append_nil]
        · rw [seen.cursors]
          simp only [Records.getElem?_insert, if_neg other]
      · exact (node.seenAt_appends sample.receivedAt).aside nofun
    · exact fresh
  · exact fresh

theorem perform_aside (node : NodeTelemetry) (foreign : Foreign bootID call) :
    Aside bootID node (node.perform call) := by
  have quiet {after : NodeTelemetry} (appends : Appends node [] after) : Aside bootID node after :=
    appends.aside nofun
  refine perform_cases (motive := fun call after => Foreign bootID call → Aside bootID node after) node call
    ?_ ?_ ?_ ?_ ?_ ?_ foreign
  · exact fun _ => ⟨rfl, .inl rfl⟩
  · intro _ conditions metrics agentVersion observedAt _
    refine ((node.release_appends metrics observedAt).trans
      (recordTelemetryLocked_appends _ _ conditions metrics agentVersion observedAt observedAt 0)).aside ?_
    intro entry member
    rw [nil_append, mem_singleton] at member
    rw [member]
    rfl
  · exact fun _ _ _ other => node.deliver_aside other
  · exact fun _ moment _ => quiet (node.seenAt_appends moment)
  · exact fun _ _ observedAt _ => quiet (node.seenAt_appends observedAt)
  · intro conditions _ observedAt version _ _
    have seen := ({ node with
      conditions, telemetrySet := true, writtenAt := observedAt, agentVersion := version } :
        NodeTelemetry).seenAt_appends observedAt
    exact quiet ⟨seen.history, seen.cursors⟩

theorem step_receiver (node : NodeTelemetry) (foreign : Foreign bootID call)
    (kept : bootID ∈ node.sequenceCursors → bootID ∈ (node.step call).sequenceCursors) :
    (node.step call).receiver bootID = node.receiver bootID := by
  have aside := ({ node with calls := node.calls + 1 } : NodeTelemetry).perform_aside foreign
  have cursor : (node.step call).sequenceCursors[bootID]? = node.sequenceCursors[bootID]? := by
    rcases aside.cursor with same | gone
    · exact same
    · cases held : node.sequenceCursors[bootID]? with
      | none => exact gone
      | some cursor =>
        obtain ⟨next, present⟩ := Records.mem_iff.mp (kept (Records.mem_iff.mpr ⟨cursor, held⟩))
        exact nomatch gone.symm.trans present
  rw [receiver, cursor]
  exact congrArg _ aside.handed

end NodeTelemetry

end Yaog.Controller
