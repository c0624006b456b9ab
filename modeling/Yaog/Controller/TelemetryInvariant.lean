import Yaog.Controller.StoreFacts
import Yaog.Controller.Telemetry

/-!
# The overlay over whole runs

A node invents its boot identifiers and its clock. Whatever it sends, the memory that the controller spends on it
is bounded, its times only advance, and a retired boot writes nothing.
-/

namespace Yaog.Controller

open Data List Option

theorem foldl_older_mem (entries : List (String × Moment)) (best : String × Moment) :
    entries.foldl older best = best ∨ entries.foldl older best ∈ entries := by
  induction entries generalizing best with
  | nil => exact .inl rfl
  | cons entry rest ih =>
    have next : older best entry = best ∨ older best entry = entry := by
      unfold older
      split
      · exact .inr rfl
      · exact .inl rfl
    rw [foldl_cons]
    rcases ih (older best entry) with same | member
    · rw [same]
      rcases next with kept | taken
      · exact .inl kept
      · rw [taken]
        exact .inr mem_cons_self
    · exact .inr (mem_cons_of_mem _ member)

theorem oldestEntry_mem {entries : List (String × Moment)} (inhabited : entries ≠ []) :
    oldestEntry entries ∈ entries := by
  obtain ⟨first, rest, rfl⟩ := exists_cons_of_ne_nil inhabited
  have taken : older ("", 0) first = first := if_pos (.inl rfl)
  unfold oldestEntry
  rw [foldl_cons, taken]
  rcases foldl_older_mem rest first with same | member
  · rw [same]
    exact mem_cons_self
  · exact mem_cons_of_mem _ member

section

variable {retired : Records Moment} {bootID other : String} {moment : Moment}

theorem mem_rememberRetired (member : other ∈ rememberRetiredTelemetryBoot retired bootID moment) :
    (other = bootID ∧ bootID ≠ "") ∨ other ∈ retired := by
  unfold rememberRetiredTelemetryBoot at member
  split at member
  · exact .inr member
  · next named =>
    rcases Records.mem_insert.mp member with same | kept
    · exact .inl ⟨same, named⟩
    · split at kept
      · exact .inr (Records.mem_erase.mp kept).2
      · exact .inr kept

theorem size_rememberRetired (bounded : retired.size ≤ maxTelemetryRetiredBoots) :
    (rememberRetiredTelemetryBoot retired bootID moment).size ≤ maxTelemetryRetiredBoots := by
  unfold rememberRetiredTelemetryBoot
  split
  · exact bounded
  · dsimp only
    split
    · next full =>
      have inhabited : retired.toList ≠ [] := by
        intro empty
        have none : retired.size = 0 := by rw [← Std.ExtTreeMap.length_toList, empty]; rfl
        have some : maxTelemetryRetiredBoots ≤ 0 := none ▸ full.2
        exact absurd some (by decide)
      have oldest : (oldestEntry retired.toList).1 ∈ retired :=
        Records.mem_iff.mpr ⟨_, Records.mem_toList.mp (oldestEntry_mem inhabited)⟩
      have fresh : bootID ∉ retired.erase (oldestEntry retired.toList).1 :=
        fun member => full.1 (Records.mem_erase.mp member).2
      rw [Records.size_insert_of_not_mem fresh, Records.size_erase_of_mem oldest]
      have room : 0 < retired.size := (by decide : 0 < maxTelemetryRetiredBoots).trans_le full.2
      omega
    · next spare =>
      by_cases known : bootID ∈ retired
      · rw [Records.size_insert_of_mem known]
        exact bounded
      · rw [Records.size_insert_of_not_mem known]
        exact Nat.lt_of_not_le fun full => spare ⟨known, full⟩

end

section

variable {cursors : Records TelemetrySequenceCursor}

theorem evictOldest_spec (protectedBootID : String) (unnamed : "" ∉ cursors) (several : 1 < cursors.size) :
    ∃ oldest moment, evictOldestTelemetryCursor cursors protectedBootID = (cursors.erase oldest, oldest, moment) ∧
      oldest ∈ cursors ∧ oldest ≠ protectedBootID := by
  have spare : 0 < (cursors.erase protectedBootID).size := by
    have kept : cursors.size - 1 ≤ (cursors.erase protectedBootID).size := Records.size_erase_ge
    omega
  obtain ⟨another, cursor, held⟩ := Records.exists_mem_of_size spare
  obtain ⟨different, member⟩ := Records.mem_erase.mp (Records.mem_iff.mpr ⟨cursor, held⟩)
  obtain ⟨cursor, held⟩ := Records.mem_iff.mp member
  unfold evictOldestTelemetryCursor
  dsimp only
  generalize listed : (cursors.toList.filter _).map _ = candidates
  have inhabited : candidates ≠ [] := by
    have present : (another, cursor) ∈ cursors.toList := Records.mem_toList.mpr held
    have allowed : (another, cursor) ∈ cursors.toList.filter
        fun entry => ¬(entry.1 = protectedBootID ∧ 1 < cursors.size) :=
      mem_filter.mpr ⟨present, by simp [different]⟩
    rw [← listed]
    exact ne_nil_of_mem (mem_map_of_mem allowed)
  have chosen := oldestEntry_mem inhabited
  generalize oldestEntry candidates = oldest at chosen ⊢
  rw [← listed] at chosen
  obtain ⟨entry, among, rfl⟩ := mem_map.mp chosen
  obtain ⟨present, allowed⟩ := mem_filter.mp among
  have known : entry.1 ∈ cursors := Records.mem_iff.mpr ⟨_, Records.mem_toList.mp present⟩
  have named : entry.1 ≠ "" := fun same => unnamed (same ▸ known)
  refine ⟨entry.1, entry.2.lastReceivedAt, ?_, known, ?_⟩
  · rw [if_pos named]
  · intro same
    simp [same, several] at allowed

end

/-- The memory that is spent on a node, and the boot that is active. -/
structure VolatileTelemetry.Bounded (overlay : VolatileTelemetry) : Prop where
  cursors : overlay.sequenceCursors.size ≤ maxTelemetrySequenceCursors
  retired : overlay.retiredBoots.size ≤ maxTelemetryRetiredBoots
  unnamed : "" ∉ overlay.sequenceCursors
  active : overlay.activeBootID ≠ "" →
    overlay.activeBootID ∉ overlay.retiredBoots ∧ overlay.activeBootID ∈ overlay.sequenceCursors

/-- The times of an overlay advance once they are set. -/
structure Later (before after : VolatileTelemetry) : Prop where
  lastSeen : before.lastSeenSet = true → after.lastSeenSet = true ∧ before.lastSeen ≤ after.lastSeen
  writtenAt : before.telemetrySet = true → after.telemetrySet = true ∧ before.writtenAt ≤ after.writtenAt

structure SameBoots (before after : VolatileTelemetry) : Prop where
  cursors : after.sequenceCursors = before.sequenceCursors
  retired : after.retiredBoots = before.retiredBoots
  active : after.activeBootID = before.activeBootID

def CursorsGrow (before after : VolatileTelemetry) : Prop :=
  ∀ (bootID : String) (cursor next : TelemetrySequenceCursor), before.sequenceCursors[bootID]? = some cursor →
    after.sequenceCursors[bootID]? = some next → cursor.highestSequence ≤ next.highestSequence

/-- Nothing was written: live metrics were at most dropped. -/
structure Unwritten (before after : VolatileTelemetry) : Prop where
  conditions : after.conditions = before.conditions
  agentVersion : after.agentVersion = before.agentVersion
  telemetry : ∀ (key : String) (value : List UInt8), after.telemetry[key]? = some value →
    before.telemetry[key]? = some value

section

variable {before middle after overlay : VolatileTelemetry}

theorem Later.refl (overlay : VolatileTelemetry) : Later overlay overlay :=
  ⟨fun set => ⟨set, le_refl _⟩, fun set => ⟨set, le_refl _⟩⟩

theorem Later.of_same (seen : after.lastSeen = before.lastSeen) (seenSet : after.lastSeenSet = before.lastSeenSet)
    (written : after.writtenAt = before.writtenAt) (writtenSet : after.telemetrySet = before.telemetrySet) :
    Later before after :=
  ⟨fun set => ⟨seenSet.trans set, seen.ge⟩, fun set => ⟨writtenSet.trans set, written.ge⟩⟩

theorem Later.trans (first : Later before middle) (second : Later middle after) : Later before after := by
  constructor
  · intro set
    obtain ⟨set, earlier⟩ := first.lastSeen set
    obtain ⟨set, later⟩ := second.lastSeen set
    exact ⟨set, earlier.trans later⟩
  · intro set
    obtain ⟨set, earlier⟩ := first.writtenAt set
    obtain ⟨set, later⟩ := second.writtenAt set
    exact ⟨set, earlier.trans later⟩

theorem SameBoots.refl (overlay : VolatileTelemetry) : SameBoots overlay overlay := ⟨rfl, rfl, rfl⟩

theorem CursorsGrow.of_same (same : after.sequenceCursors = before.sequenceCursors) : CursorsGrow before after := by
  intro bootID cursor next held kept
  rw [same, held] at kept
  exact (some.inj kept) ▸ le_refl _

theorem VolatileTelemetry.Bounded.same (bounded : before.Bounded) (same : SameBoots before after) : after.Bounded := by
  constructor
  · rw [same.cursors]
    exact bounded.cursors
  · rw [same.retired]
    exact bounded.retired
  · rw [same.cursors]
    exact bounded.unnamed
  · rw [same.active, same.retired, same.cursors]
    exact bounded.active

theorem Unwritten.refl (overlay : VolatileTelemetry) : Unwritten overlay overlay := ⟨rfl, rfl, fun _ _ held => held⟩

end

namespace NodeTelemetry

variable {node : NodeTelemetry} {sample : SequencedSample} {historyAt : Moment}

theorem seenAt_spec (node : NodeTelemetry) (moment : Moment) :
    SameBoots node.toVolatileTelemetry (node.seenAt moment).toVolatileTelemetry ∧
    Later node.toVolatileTelemetry (node.seenAt moment).toVolatileTelemetry ∧
    Unwritten node.toVolatileTelemetry (node.seenAt moment).toVolatileTelemetry := by
  unfold seenAt
  split
  · next newer =>
    refine ⟨⟨rfl, rfl, rfl⟩, ⟨fun set => ⟨rfl, ?_⟩, fun set => ⟨set, le_refl _⟩⟩, ⟨rfl, rfl, fun _ _ held => held⟩⟩
    rcases newer with unset | later
    · rw [unset] at set
      cases set
    · exact later.le
  · exact ⟨.refl _, .refl _, .refl _⟩

theorem recordTelemetryLocked_spec (node : NodeTelemetry) (source : Source) (conditions : List Condition)
    (metrics : Metrics) (agentVersion : String) (observedAt historyAt : Moment) (interval : Int) :
    SameBoots node.toVolatileTelemetry
      (node.recordTelemetryLocked source conditions metrics agentVersion observedAt historyAt interval).toVolatileTelemetry ∧
    Later node.toVolatileTelemetry
      (node.recordTelemetryLocked source conditions metrics agentVersion observedAt historyAt interval).toVolatileTelemetry := by
  obtain ⟨same, later, -⟩ := node.seenAt_spec observedAt
  unfold recordTelemetryLocked
  dsimp only
  split
  · next newer =>
    refine ⟨⟨same.cursors, same.retired, same.active⟩, ⟨later.lastSeen, fun set => ⟨rfl, ?_⟩⟩⟩
    obtain ⟨kept, earlier⟩ := later.writtenAt set
    rcases newer with unset | past
    · exact absurd (unset.symm.trans kept) nofun
    · exact earlier.trans past
  · exact ⟨⟨same.cursors, same.retired, same.active⟩, ⟨later.lastSeen, later.writtenAt⟩⟩

section

variable (bounded : node.Bounded)

include bounded

theorem release_spec (metrics : Metrics) (observedAt : Moment) :
    (node.release metrics observedAt).Bounded ∧
    Later node.toVolatileTelemetry (node.release metrics observedAt).toVolatileTelemetry ∧
    (node.release metrics observedAt).sequenceCursors = node.sequenceCursors := by
  unfold release
  split
  · refine ⟨⟨bounded.cursors, size_rememberRetired bounded.retired, bounded.unnamed, ?_⟩, ?_, rfl⟩
    · exact fun active => absurd rfl active
    · exact .of_same rfl rfl rfl rfl
  · exact ⟨bounded, .refl _, rfl⟩

theorem makeRoom_cases (sample : SequencedSample) :
    (node.makeRoom sample = node ∧
      (sample.bootID ∉ node.sequenceCursors → node.sequenceCursors.size < maxTelemetrySequenceCursors)) ∨
    ∃ oldest moment, sample.bootID ∉ node.sequenceCursors ∧ oldest ∈ node.sequenceCursors ∧ oldest ≠ node.activeBootID ∧
      node.makeRoom sample = { node with
        sequenceCursors := node.sequenceCursors.erase oldest
        retiredBoots := rememberRetiredTelemetryBoot node.retiredBoots oldest moment } := by
  unfold makeRoom
  split
  · next full =>
    have several : 1 < node.sequenceCursors.size := (by decide : 1 < maxTelemetrySequenceCursors).trans_le full.2
    obtain ⟨oldest, moment, evicted, member, spared⟩ := evictOldest_spec node.activeBootID bounded.unnamed several
    rw [evicted]
    exact .inr ⟨oldest, moment, full.1, member, spared, rfl⟩
  · next spare => exact .inl ⟨rfl, fun fresh => Nat.lt_of_not_le fun full => spare ⟨fresh, full⟩⟩

theorem advanceCursor_bounded (named : sample.bootID ≠ "") :
    (node.advanceCursor sample).Bounded := by
  unfold advanceCursor
  rcases makeRoom_cases bounded sample with ⟨same, room⟩ | ⟨oldest, moment, fresh, member, spared, evicted⟩
  · rw [same]
    refine ⟨?_, bounded.retired, ?_, fun active => ?_⟩
    · by_cases known : sample.bootID ∈ node.sequenceCursors
      · rw [Records.size_insert_of_mem known]
        exact bounded.cursors
      · rw [Records.size_insert_of_not_mem known]
        exact room known
    · intro member
      rcases Records.mem_insert.mp member with same | kept
      · exact named same.symm
      · exact bounded.unnamed kept
    · obtain ⟨owner, held⟩ := bounded.active active
      exact ⟨owner, Records.mem_insert.mpr (.inr held)⟩
  · rw [evicted]
    refine ⟨?_, size_rememberRetired bounded.retired, ?_, fun active => ⟨?_, ?_⟩⟩
    · have unknown : sample.bootID ∉ node.sequenceCursors.erase oldest := fun kept => fresh (Records.mem_erase.mp kept).2
      have most := bounded.cursors
      have some : 0 < maxTelemetrySequenceCursors := by decide
      rw [Records.size_insert_of_not_mem unknown, Records.size_erase_of_mem member]
      omega
    · intro member
      rcases Records.mem_insert.mp member with same | kept
      · exact named same.symm
      · exact bounded.unnamed (Records.mem_erase.mp kept).2
    · intro retired
      rcases mem_rememberRetired retired with ⟨same, -⟩ | known
      · exact spared same.symm
      · exact (bounded.active active).1 known
    · exact Records.mem_insert.mpr (.inr (Records.mem_erase.mpr ⟨spared.symm, (bounded.active active).2⟩))

theorem advanceCursor_own (sample : SequencedSample) :
    sample.bootID ∈ (node.advanceCursor sample).sequenceCursors ∧
      (sample.bootID ∈ (node.advanceCursor sample).retiredBoots → sample.bootID ∈ node.retiredBoots) := by
  refine ⟨Records.mem_insert.mpr (.inl rfl), fun retired => ?_⟩
  rcases makeRoom_cases bounded sample with ⟨same, -⟩ | ⟨oldest, moment, fresh, member, -, evicted⟩
  · simp only [advanceCursor, same] at retired
    exact retired
  · simp only [advanceCursor, evicted] at retired
    rcases mem_rememberRetired retired with ⟨same, -⟩ | known
    · exact absurd (same ▸ member) fresh
    · exact known

theorem advanceCursor_grow
    (newer : ∀ cursor, node.sequenceCursors[sample.bootID]? = some cursor → cursor.highestSequence < sample.sequence) :
    CursorsGrow node.toVolatileTelemetry (node.advanceCursor sample).toVolatileTelemetry := by
  intro bootID cursor next held kept
  simp only [advanceCursor, Records.getElem?_insert] at kept
  split at kept
  · next same =>
    cases kept
    subst same
    exact (newer cursor held).le
  · rcases makeRoom_cases bounded sample with ⟨same, -⟩ | ⟨oldest, moment, -, -, -, evicted⟩
    · rw [same, held] at kept
      exact (some.inj kept) ▸ le_refl _
    · simp only [evicted, Records.getElem?_erase] at kept
      split at kept
      · cases kept
      · rw [held] at kept
        exact (some.inj kept) ▸ le_refl _

end

theorem advanceCursor_rest (node : NodeTelemetry) (sample : SequencedSample) :
    Later node.toVolatileTelemetry (node.advanceCursor sample).toVolatileTelemetry ∧
      Unwritten node.toVolatileTelemetry (node.advanceCursor sample).toVolatileTelemetry ∧
      (node.advanceCursor sample).activeBootID = node.activeBootID := by
  unfold advanceCursor makeRoom
  split
  · exact ⟨.of_same rfl rfl rfl rfl, ⟨rfl, rfl, fun _ _ held => held⟩, rfl⟩
  · exact ⟨.of_same rfl rfl rfl rfl, ⟨rfl, rfl, fun _ _ held => held⟩, rfl⟩

theorem dropAmbiguous_spec (node : NodeTelemetry) (sample : SequencedSample) :
    SameBoots node.toVolatileTelemetry (node.dropAmbiguous sample).toVolatileTelemetry ∧
      Later node.toVolatileTelemetry (node.dropAmbiguous sample).toVolatileTelemetry ∧
      Unwritten node.toVolatileTelemetry (node.dropAmbiguous sample).toVolatileTelemetry := by
  unfold dropAmbiguous
  split
  · refine ⟨⟨rfl, rfl, rfl⟩, .of_same rfl rfl rfl rfl, rfl, rfl, fun key value held => ?_⟩
    rw [Records.getElem?_erase] at held
    split at held
    · cases held
    · exact held
  · exact ⟨.refl _, .refl _, .refl _⟩

theorem live_unretired (live : node.live sample = true) : sample.bootID ∉ node.retiredBoots := by
  intro retired
  simp [NodeTelemetry.live, retired] at live

def heard (node : NodeTelemetry) (sample : SequencedSample) : NodeTelemetry :=
  ((node.dropAmbiguous sample).advanceCursor sample).seenAt sample.receivedAt

/-- What the cursor of a new sample changes. -/
structure Hears (node : NodeTelemetry) (sample : SequencedSample) (after : NodeTelemetry) : Prop where
  bounded : after.Bounded
  later : Later node.toVolatileTelemetry after.toVolatileTelemetry
  grow : CursorsGrow node.toVolatileTelemetry after.toVolatileTelemetry
  unwritten : Unwritten node.toVolatileTelemetry after.toVolatileTelemetry
  own : sample.bootID ∈ after.sequenceCursors
  retired : sample.bootID ∈ after.retiredBoots → sample.bootID ∈ node.retiredBoots

theorem heard_spec (bounded : node.Bounded) (named : sample.bootID ≠ "")
    (newer : ∀ cursor, node.sequenceCursors[sample.bootID]? = some cursor → cursor.highestSequence < sample.sequence) :
    Hears node sample (node.heard sample) := by
  obtain ⟨boots, droppedLater, dropped⟩ := node.dropAmbiguous_spec sample
  have middle : (node.dropAmbiguous sample).Bounded := bounded.same boots
  have advanced : ((node.dropAmbiguous sample).advanceCursor sample).Bounded := advanceCursor_bounded middle named
  obtain ⟨own, retired⟩ := advanceCursor_own middle sample
  obtain ⟨advancedLater, kept, -⟩ := (node.dropAmbiguous sample).advanceCursor_rest sample
  have grown : CursorsGrow (node.dropAmbiguous sample).toVolatileTelemetry
      ((node.dropAmbiguous sample).advanceCursor sample).toVolatileTelemetry :=
    advanceCursor_grow middle (boots.cursors ▸ newer)
  obtain ⟨same, seenLater, seen⟩ := ((node.dropAmbiguous sample).advanceCursor sample).seenAt_spec sample.receivedAt
  constructor
  · exact advanced.same same
  · exact (droppedLater.trans advancedLater).trans seenLater
  · intro bootID cursor next held after
    refine grown bootID cursor next (boots.cursors ▸ held) ?_
    rw [← same.cursors]
    exact after
  · refine ⟨?_, ?_, fun key value held => ?_⟩
    · exact seen.conditions.trans (kept.conditions.trans dropped.conditions)
    · exact seen.agentVersion.trans (kept.agentVersion.trans dropped.agentVersion)
    · exact dropped.telemetry key value (kept.telemetry key value (seen.telemetry key value held))
  · unfold heard
    rw [same.cursors]
    exact own
  · unfold heard
    rw [same.retired]
    exact fun member => boots.retired ▸ retired member

theorem takeOver_bounded (bounded : node.Bounded) (own : sample.bootID ∈ node.sequenceCursors)
    (unretired : sample.bootID ∉ node.retiredBoots) : (node.takeOver sample historyAt).Bounded := by
  unfold takeOver
  refine ⟨bounded.cursors, ?_, bounded.unnamed, fun _ => ⟨?_, own⟩⟩
  · dsimp only
    split
    · exact size_rememberRetired bounded.retired
    · exact bounded.retired
  · dsimp only
    split
    · next cross =>
      intro retired
      rcases mem_rememberRetired retired with ⟨same, -⟩ | known
      · simp [crossBoot, same] at cross
      · exact unretired known
    · exact unretired

/-- What a call keeps, and that a quiet one writes nothing. -/
structure Progresses (before : NodeTelemetry) (quiet : Prop) (after : NodeTelemetry) : Prop where
  bounded : after.Bounded
  later : Later before.toVolatileTelemetry after.toVolatileTelemetry
  grow : CursorsGrow before.toVolatileTelemetry after.toVolatileTelemetry
  unwritten : quiet → Unwritten before.toVolatileTelemetry after.toVolatileTelemetry

theorem Progresses.imp {quiet quiet' : Prop} {after : NodeTelemetry} (progresses : Progresses node quiet after)
    (stronger : quiet' → quiet) : Progresses node quiet' after :=
  ⟨progresses.bounded, progresses.later, progresses.grow, fun holds => progresses.unwritten (stronger holds)⟩

theorem seenAt_progresses (bounded : node.Bounded) (moment : Moment) : Progresses node True (node.seenAt moment) := by
  obtain ⟨same, later, unwritten⟩ := node.seenAt_spec moment
  exact ⟨bounded.same same, later, .of_same same.cursors, fun _ => unwritten⟩

theorem accept_spec (bounded : node.Bounded) (named : sample.bootID ≠ "")
    (newer : ∀ cursor, node.sequenceCursors[sample.bootID]? = some cursor → cursor.highestSequence < sample.sequence) :
    Progresses node (node.live sample = false) (node.accept sample) := by
  have hears := heard_spec bounded named newer
  unfold accept
  rw [← heard]
  split
  · next live =>
    have owned : ((node.heard sample).takeOver sample (node.historyAt sample)).Bounded :=
      takeOver_bounded hears.bounded hears.own fun retired => live_unretired live (hears.retired retired)
    generalize (if node.ambiguousCrossBoot sample then _ else sample.metrics) = liveMetrics
    obtain ⟨same, later⟩ := ((node.heard sample).takeOver sample (node.historyAt sample)).recordTelemetryLocked_spec
      sample.source sample.conditions liveMetrics sample.agentVersion sample.receivedAt (node.historyAt sample)
      (max sample.interval 0)
    refine ⟨owned.same same, hears.later.trans (Later.trans ?_ later), ?_, fun dead => absurd (live.symm.trans dead) nofun⟩
    · exact .of_same rfl rfl rfl rfl
    · intro bootID cursor next held after
      rw [same.cursors] at after
      exact hears.grow bootID cursor next held after
  · exact ⟨hears.bounded.same ⟨rfl, rfl, rfl⟩, hears.later, hears.grow, fun _ => hears.unwritten⟩

theorem acceptDuplicate_spec {cursor : TelemetrySequenceCursor} (bounded : node.Bounded)
    (held : node.sequenceCursors[sample.bootID]? = some cursor) :
    Progresses node True (node.acceptDuplicate sample cursor) := by
  have known : sample.bootID ∈ node.sequenceCursors := Records.mem_iff.mpr ⟨cursor, held⟩
  unfold acceptDuplicate
  split
  · generalize refreshed : node.sequenceCursors.insert sample.bootID
      { cursor with lastReceivedAt := sample.receivedAt } = cursors
    obtain ⟨same, later, unwritten⟩ :=
      ({ node with sequenceCursors := cursors } : NodeTelemetry).seenAt_spec sample.receivedAt
    have touched : ({ node with sequenceCursors := cursors } : NodeTelemetry).Bounded := by
      subst refreshed
      refine ⟨?_, bounded.retired, ?_, fun active => ⟨(bounded.active active).1, ?_⟩⟩
      · rw [Records.size_insert_of_mem known]
        exact bounded.cursors
      · intro member
        rcases Records.mem_insert.mp member with same | kept
        · exact bounded.unnamed (same ▸ known)
        · exact bounded.unnamed kept
      · exact Records.mem_insert.mpr (.inr (bounded.active active).2)
    refine ⟨touched.same same, ⟨later.lastSeen, later.writtenAt⟩, ?_,
      fun _ => ⟨unwritten.conditions, unwritten.agentVersion, unwritten.telemetry⟩⟩
    · intro bootID before next present kept
      rw [same.cursors] at kept
      rw [← refreshed, Records.getElem?_insert] at kept
      split at kept
      · next own =>
        cases kept
        subst own
        rw [held] at present
        exact (some.inj present) ▸ le_refl _
      · rw [present] at kept
        exact (some.inj kept) ▸ le_refl _
  · exact seenAt_progresses bounded sample.receivedAt

theorem deliver_spec (bounded : node.Bounded) (named : sample.bootID ≠ "") :
    Progresses node (sample.bootID ∈ node.retiredBoots) (node.deliver sample).2 := by
  have dead (retired : sample.bootID ∈ node.retiredBoots) : node.live sample = false := by
    rw [Bool.eq_false_iff]
    exact fun live => live_unretired live retired
  unfold deliver
  cases held : node.sequenceCursors[sample.bootID]? with
  | none => exact (accept_spec bounded named fun cursor known => nomatch held.symm.trans known).imp dead
  | some cursor =>
    dsimp only
    split
    · exact (acceptDuplicate_spec bounded held).imp fun _ => trivial
    · next newer =>
      refine (accept_spec bounded named fun other known => ?_).imp dead
      rw [held] at known
      cases known
      exact Nat.lt_of_not_le newer

def RetiredSample (node : NodeTelemetry) : TelemetryCall → Prop
  | .sequenced _ sample => sample.bootID ∈ node.retiredBoots
  | _ => False

theorem perform_spec (bounded : node.Bounded) (call : TelemetryCall) :
    Progresses node (node.RetiredSample call) (node.perform call) := by
  have seen (quiet : Prop) (moment : Moment) : Progresses node quiet (node.seenAt moment) :=
    (seenAt_progresses bounded moment).imp fun _ => trivial
  refine perform_cases (motive := fun call => Progresses node (node.RetiredSample call)) node call ?_ ?_ ?_ ?_ ?_ ?_
  · exact ⟨bounded, .refl _, .of_same rfl, fun _ => .refl _⟩
  · intro _ conditions metrics agentVersion observedAt
    obtain ⟨released, releasedLater, cursors⟩ := release_spec bounded metrics observedAt
    obtain ⟨same, later⟩ := (node.release metrics observedAt).recordTelemetryLocked_spec .heartbeat conditions metrics
      agentVersion observedAt observedAt 0
    exact ⟨released.same same, releasedLater.trans later, .of_same (same.cursors.trans cursors), False.elim⟩
  · exact fun _ _ named => deliver_spec bounded named
  · exact fun _ => seen _
  · exact fun _ _ => seen _
  · intro conditions _ observedAt version newer
    obtain ⟨same, later, -⟩ := ({ node with
      conditions, telemetrySet := true, writtenAt := observedAt, agentVersion := version } :
        NodeTelemetry).seenAt_spec observedAt
    refine ⟨bounded.same ⟨same.cursors, same.retired, same.active⟩, ⟨later.lastSeen, fun set => ?_⟩,
      .of_same same.cursors, False.elim⟩
    obtain ⟨kept, past⟩ := later.writtenAt rfl
    refine ⟨kept, le_trans ?_ past⟩
    rcases newer with unset | newer
    · exact absurd (unset.symm.trans set) Bool.false_ne_true
    · exact newer

theorem step_spec (bounded : node.Bounded) (call : TelemetryCall) :
    Progresses node (node.RetiredSample call) (node.step call) :=
  have counted : ({ node with calls := node.calls + 1 } : NodeTelemetry).Bounded := bounded
  have performed := perform_spec counted call
  ⟨performed.bounded, performed.later, performed.grow, performed.unwritten⟩

theorem start_bounded : ({} : NodeTelemetry).Bounded :=
  ⟨by decide, by decide, by decide, fun active => absurd rfl active⟩

theorem after_bounded (bounded : node.Bounded) (calls : List TelemetryCall) : (node.after calls).Bounded := by
  induction calls generalizing node with
  | nil => exact bounded
  | cons call rest ih => exact ih (step_spec bounded call).bounded

end NodeTelemetry

/-- In every run of calls on a node: the cursors and the retired boots are bounded, and the active boot has a cursor
and is not retired. Each next call leaves the two times where they are or advances them, as it does every cursor it
keeps, and writes nothing if its sample is of a boot that was retired before it came. -/
theorem overlay_invariants (calls : List TelemetryCall) (call : TelemetryCall) :
    let node := NodeTelemetry.after {} calls
    let next := NodeTelemetry.after {} (calls ++ [call])
    (node.sequenceCursors.size ≤ 4 ∧ node.retiredBoots.size ≤ 8 ∧
      (node.activeBootID ≠ "" → node.activeBootID ∉ node.retiredBoots ∧ node.activeBootID ∈ node.sequenceCursors)) ∧
    (node.lastSeenSet = true → next.lastSeenSet = true ∧ node.lastSeen ≤ next.lastSeen) ∧
    (node.telemetrySet = true → next.telemetrySet = true ∧ node.writtenAt ≤ next.writtenAt) ∧
    (∀ lookup sample, call = .sequenced lookup sample → sample.bootID ∈ node.retiredBoots →
      next.conditions = node.conditions ∧ next.agentVersion = node.agentVersion ∧
        ∀ (key : String) (value : List UInt8), next.telemetry[key]? = some value → node.telemetry[key]? = some value) ∧
    ∀ (bootID : String) (cursor after : TelemetrySequenceCursor), node.sequenceCursors[bootID]? = some cursor →
      next.sequenceCursors[bootID]? = some after → cursor.highestSequence ≤ after.highestSequence := by
  have bounded := NodeTelemetry.after_bounded NodeTelemetry.start_bounded calls
  have last : NodeTelemetry.after {} (calls ++ [call]) = (NodeTelemetry.after {} calls).step call := by
    rw [NodeTelemetry.after, NodeTelemetry.after, foldl_append]
    rfl
  rw [last]
  obtain ⟨-, later, grow, unwritten⟩ := NodeTelemetry.step_spec bounded call
  refine ⟨⟨bounded.cursors, bounded.retired, bounded.active⟩, later.lastSeen, later.writtenAt, ?_, grow⟩
  intro lookup sample same retired
  subst same
  have kept := unwritten retired
  exact ⟨kept.conditions, kept.agentVersion, kept.telemetry⟩

end Yaog.Controller
