import Yaog.Data.Durable
import Mathlib.Data.List.Sort

/-!
# The history of topologies

A topology is kept in the history before it becomes the current one, and the oldest are pruned after that.
-/

namespace Yaog.Controller

open Data Durable List Option

structure TopologyRecord where
  version : Int := 0
  json : List UInt8 := []
  updatedAt : Int := 0
  deriving DecidableEq, Repr

structure TopologyVersionInfo where
  version : Int
  updatedAt : Int
  bytes : Nat

def TopologyRecord.info (record : TopologyRecord) : TopologyVersionInfo :=
  { version := record.version, updatedAt := record.updatedAt, bytes := record.json.length }

def topologyHistoryLimit : Nat := 10

/-- The records of one tenant: the current topology, and the history by version. The last field is a history of its
own: every record that became the current one. -/
structure TopologyStore where
  current : Option TopologyRecord := none
  history : Std.ExtTreeMap Int TopologyRecord := ∅
  committed : List TopologyRecord := []

inductive TopologyError where
  | notFound | changed | storage

abbrev TopologyProgram := Durable TopologyStore TopologyError

namespace TopologyStore

def loadTopologyForWrite (store : TopologyStore) : TopologyRecord := store.current.getD {}

def keep (record : TopologyRecord) (store : TopologyStore) : TopologyStore :=
  { store with history := store.history.insert record.version record }

def commit (record : TopologyRecord) (store : TopologyStore) : TopologyStore :=
  { store with current := some record, committed := store.committed ++ [record] }

def drop (version : Int) (store : TopologyStore) : TopologyStore := { store with history := store.history.erase version }

def backfill (prev : TopologyRecord) : TopologyProgram Unit := do
  let store ← Durable.read
  if 0 < prev.version ∧ prev.version ∉ store.history then Durable.write (keep prev) .storage else pure ()

def prune (cutoff : Int) : TopologyProgram Unit := do
  let store ← Durable.read
  let old := if 0 < cutoff then store.history.keys.filter (· ≤ cutoff) else []
  old.forM fun version => Durable.tryWrite (drop version)

def putTopologyAfter (prev : TopologyRecord) (json : List UInt8) (now : Int) : TopologyProgram TopologyRecord := do
  let record : TopologyRecord := { version := prev.version + 1, json, updatedAt := now }
  backfill prev
  Durable.write (keep record) .storage
  Durable.write (commit record) .storage
  prune (record.version - topologyHistoryLimit)
  pure record

def putTopology (json : List UInt8) (now : Int) : TopologyProgram TopologyRecord := do
  let store ← Durable.read
  putTopologyAfter store.loadTopologyForWrite json now

def compareAndSetTopology (expectedVersion : Int) (json : List UInt8) (now : Int) : TopologyProgram TopologyRecord := do
  let store ← Durable.read
  Durable.require (store.loadTopologyForWrite.version = expectedVersion) .changed
  if store.loadTopologyForWrite.json = json then pure store.loadTopologyForWrite
  else putTopologyAfter store.loadTopologyForWrite json now

def retained (store : TopologyStore) (current : TopologyRecord) : List TopologyRecord :=
  (store.history.toList.filter fun (version, record) =>
    0 < version ∧ version ≤ current.version ∧ record.version = version).map (·.2)

def listTopologyVersions (store : TopologyStore) : List TopologyVersionInfo :=
  match store.current with
  | none => []
  | some current =>
    let retained := store.retained current
    let all := if retained.any (·.version = current.version) then retained else retained ++ [current]
    (all.map (·.info)).mergeSort fun first second => second.version ≤ first.version

def getTopologyVersion (store : TopologyStore) (version : Int) : Except TopologyError TopologyRecord :=
  if version ≤ 0 then .error .notFound
  else
    match store.current with
    | none => .error .notFound
    | some current =>
      if current.version < version then .error .notFound
      else if version = current.version then .ok current
      else
        match store.history[version]? with
        | some record => .ok record
        | none => .error .notFound

end TopologyStore

inductive TopologyCall where
  | put (json : List UInt8) (now : Int)
  | compareAndSet (expectedVersion : Int) (json : List UInt8) (now : Int)

namespace TopologyStore

def program : TopologyCall → TopologyProgram TopologyRecord
  | .put json now => putTopology json now
  | .compareAndSet expectedVersion json now => compareAndSetTopology expectedVersion json now

def step (store : TopologyStore) (call : TopologyCall × List Fault) : TopologyStore :=
  Durable.left (program call.1) store call.2

def after (store : TopologyStore) (calls : List (TopologyCall × List Fault)) : TopologyStore := calls.foldl step store

/-- The committed records are numbered from one; the last is the current one; the history has the last of them, and
of no committed version another record. -/
structure Exact (store : TopologyStore) : Prop where
  numbered : ∀ (index : Nat) (record : TopologyRecord), store.committed[index]? = some record → record.version = index + 1
  current : store.current = store.committed.getLast?
  kept : ∀ record ∈ store.committed, (store.committed.length : Int) - topologyHistoryLimit < record.version →
    store.history[record.version]? = some record
  known : ∀ (version : Int) (record : TopologyRecord), store.history[version]? = some record →
    version ≤ store.committed.length → record ∈ store.committed ∧ record.version = version

variable {store : TopologyStore} {record : TopologyRecord} {version : Int}

theorem getElem?_keep : (store.keep record).history[version]? =
    if record.version = version then some record else store.history[version]? := by
  simp only [keep, Std.ExtTreeMap.getElem?_insert, Std.compare_eq_iff_eq]

theorem getElem?_drop {old : Int} : (store.drop old).history[version]? =
    if old = version then none else store.history[version]? := by
  simp only [drop, Std.ExtTreeMap.getElem?_erase, Std.compare_eq_iff_eq]

section

variable (exact : store.Exact)

include exact

theorem Exact.bounds (member : record ∈ store.committed) :
    0 < record.version ∧ record.version ≤ store.committed.length := by
  obtain ⟨index, held⟩ := getElem?_of_mem member
  have number := exact.numbered index record held
  have within := (List.getElem?_eq_some_iff.mp held).1
  omega

theorem Exact.loaded_version : store.loadTopologyForWrite.version = store.committed.length := by
  unfold loadTopologyForWrite
  rw [exact.current]
  cases committed : store.committed.getLast? with
  | none =>
    rw [getLast?_eq_none_iff.mp committed]
    rfl
  | some last =>
    rw [getLast?_eq_getElem?] at committed
    have number := exact.numbered _ last committed
    have within := (List.getElem?_eq_some_iff.mp committed).1
    simp only [getD_some]
    omega

theorem Exact.backfilled : ¬(0 < store.loadTopologyForWrite.version ∧
    store.loadTopologyForWrite.version ∉ store.history) := by
  intro missing
  unfold loadTopologyForWrite at missing
  cases last : store.current with
  | none =>
    rw [last] at missing
    exact absurd missing.1 (by decide)
  | some record =>
    rw [last] at missing
    rw [exact.current] at last
    have member := mem_of_getLast? last
    have number := exact.loaded_version
    unfold loadTopologyForWrite at number
    rw [exact.current, last, getD_some] at number
    have held := exact.kept record member (by rw [number]; simp [topologyHistoryLimit])
    apply missing.2
    rw [getD_some, Std.ExtTreeMap.mem_iff_isSome_getElem?, held]
    rfl

theorem Exact.keep (next : record.version = store.committed.length + 1) : (store.keep record).Exact := by
  refine ⟨exact.numbered, exact.current, fun other member recent => ?_, fun version other held below => ?_⟩
  · have bounds := exact.bounds member
    rw [getElem?_keep, if_neg (by omega)]
    exact exact.kept other member recent
  · change version ≤ (store.committed.length : Int) at below
    rw [getElem?_keep, if_neg (by omega)] at held
    exact exact.known version other held below

theorem Exact.commit (next : record.version = store.committed.length + 1) :
    ((store.keep record).commit record).Exact := by
  have length : ((((store.keep record).commit record).committed.length : Nat) : Int) = store.committed.length + 1 := by
    simp only [TopologyStore.commit, TopologyStore.keep, length_append, length_singleton]
    omega
  refine ⟨fun index other held => ?_, getLast?_concat.symm, fun other member recent => ?_,
    fun version other held below => ?_⟩
  · rcases Nat.lt_or_ge index store.committed.length with earlier | last
    · exact exact.numbered index other ((getElem?_append_left earlier).symm.trans held)
    · have held := (getElem?_append_right last).symm.trans held
      obtain ⟨within, same⟩ := List.getElem?_eq_some_iff.mp held
      have index : index = store.committed.length := by
        simp only [length_singleton] at within
        omega
      subst index
      simp only [Nat.sub_self, getElem_cons_zero] at same
      rw [← same, next]
  · rw [length] at recent
    rcases mem_append.mp member with earlier | last
    · have bounds := exact.bounds earlier
      have older : record.version ≠ other.version := by omega
      exact (getElem?_keep.trans (if_neg older)).trans (exact.kept other earlier (by omega))
    · obtain rfl := mem_singleton.mp last
      exact getElem?_keep.trans (if_pos rfl)
  · rw [length] at below
    have held : (store.keep record).history[version]? = some other := held
    rw [getElem?_keep] at held
    split at held
    · next same =>
      cases held
      exact ⟨mem_append_right _ (mem_singleton_self _), same⟩
    · next different =>
      obtain ⟨member, same⟩ := exact.known version other held (by omega)
      exact ⟨mem_append_left _ member, same⟩

theorem Exact.drop {old : Int} (past : old ≤ (store.committed.length : Int) - topologyHistoryLimit) :
    (store.drop old).Exact := by
  refine ⟨exact.numbered, exact.current, fun other member recent => ?_, fun version other held below => ?_⟩
  · have recent : (store.committed.length : Int) - topologyHistoryLimit < other.version := recent
    rw [getElem?_drop, if_neg (by omega)]
    exact exact.kept other member recent
  · rw [getElem?_drop] at held
    split at held
    · cases held
    · exact exact.known version other held below

theorem prune_ensures {cutoff : Int} (past : cutoff ≤ (store.committed.length : Int) - topologyHistoryLimit) :
    Ensures store (prune cutoff) Exact fun _ after => after.Exact ∧ after.committed = store.committed := by
  refine .bind ?_
  apply Ensures.read
  refine .forM (fun _ (after : TopologyStore) => after.Exact ∧ after.committed = store.committed) ⟨exact, rfl⟩ ?_
  intro served version rest after parts held
  have old : version ≤ cutoff := by
    have member : version ∈ (if 0 < cutoff then store.history.keys.filter (· ≤ cutoff) else []) :=
      parts ▸ mem_append_right _ mem_cons_self
    split at member
    · exact of_decide_eq_true (mem_filter.mp member).2
    · exact absurd member not_mem_nil
  refine .tryWrite held.1 held ⟨held.1.drop ?_, held.2⟩
  rw [held.2]
  exact old.trans past

end

def Follows (store : TopologyStore) (json : List UInt8) (record : TopologyRecord) (after : TopologyStore) : Prop :=
  after.committed = store.committed ++ [record] ∧ record.version = store.loadTopologyForWrite.version + 1 ∧
    record.json = json

section

variable (exact : store.Exact)

include exact

theorem putTopologyAfter_ensures (json : List UInt8) (now : Int) :
    Ensures store (putTopologyAfter store.loadTopologyForWrite json now) Exact
      fun record after => after.Exact ∧ store.Follows json record after := by
  have number := exact.loaded_version
  unfold putTopologyAfter
  generalize named : TopologyRecord.mk (store.loadTopologyForWrite.version + 1) json now = record
  have next : record.version = store.committed.length + 1 := by rw [← named, ← number]
  refine .bind ?_
  refine .bind ?_
  apply Ensures.read
  rw [if_neg exact.backfilled]
  apply Ensures.pure
  refine .bind ?_
  refine .write exact (exact.keep next) ?_
  refine .bind ?_
  refine .write (exact.keep next) (exact.commit next) ?_
  refine .bind ?_
  have length : ((((store.keep record).commit record).committed.length : Nat) : Int) = record.version := by
    simp only [TopologyStore.commit, TopologyStore.keep, length_append, length_singleton, next]
    omega
  refine (prune_ensures (exact.commit next) (by rw [length, ← named])).weaken fun _ after held => ?_
  exact .pure ⟨held.1, held.2, named ▸ rfl, named ▸ rfl⟩

theorem putTopology_ensures (json : List UInt8) (now : Int) :
    Ensures store (putTopology json now) Exact fun record after => after.Exact ∧ store.Follows json record after := by
  refine .bind ?_
  apply Ensures.read
  exact putTopologyAfter_ensures exact json now

theorem compareAndSetTopology_ensures (expectedVersion : Int) (json : List UInt8) (now : Int) :
    Ensures store (compareAndSetTopology expectedVersion json now) Exact fun record after => after.Exact ∧
      store.loadTopologyForWrite.version = expectedVersion ∧
        ((after = store ∧ record = store.loadTopologyForWrite ∧ record.json = json) ∨ store.Follows json record after) := by
  refine .bind ?_
  apply Ensures.read
  refine .bind ?_
  refine .require (fun _ => exact) fun same => ?_
  split
  · next equal => exact .pure ⟨exact, same, .inl ⟨rfl, rfl, equal⟩⟩
  · exact (putTopologyAfter_ensures exact json now).weaken fun record after held => ⟨held.1, same, .inr held.2⟩

theorem step_exact (call : TopologyCall × List Fault) : (store.step call).Exact := by
  obtain ⟨call, plan⟩ := call
  cases call with
  | put json now => exact ((putTopology_ensures exact json now).weaken fun _ _ held => held.1).left plan
  | compareAndSet expectedVersion json now =>
    exact ((compareAndSetTopology_ensures exact expectedVersion json now).weaken fun _ _ held => held.1).left plan

omit exact in
theorem start_exact : ({} : TopologyStore).Exact := by
  refine ⟨nofun, rfl, nofun, fun version record held => ?_⟩
  cases held

theorem after_exact (calls : List (TopologyCall × List Fault)) : (store.after calls).Exact := by
  induction calls generalizing store with
  | nil => exact exact
  | cons call rest ih => exact ih (step_exact exact call)

theorem Exact.current_some (member : record ∈ store.committed) :
    ∃ current, store.current = some current ∧ current ∈ store.committed ∧ current.version = store.committed.length := by
  have number := exact.loaded_version
  unfold loadTopologyForWrite at number
  cases last : store.current with
  | none =>
    rw [exact.current, getLast?_eq_none_iff] at last
    rw [last] at member
    exact absurd member not_mem_nil
  | some current =>
    rw [last, getD_some] at number
    rw [exact.current] at last
    exact ⟨current, rfl, mem_of_getLast? last, number⟩

theorem Exact.unique {other : TopologyRecord} (member : record ∈ store.committed)
    (among : other ∈ store.committed) (same : record.version = other.version) : record = other := by
  obtain ⟨index, held⟩ := getElem?_of_mem member
  obtain ⟨place, present⟩ := getElem?_of_mem among
  have first := exact.numbered index record held
  have second := exact.numbered place other present
  have equal : index = place := by omega
  rw [equal, present] at held
  exact (some.inj held).symm

theorem Exact.getTopologyVersion (member : record ∈ store.committed)
    (recent : (store.committed.length : Int) - topologyHistoryLimit < record.version) :
    store.getTopologyVersion record.version = .ok record := by
  obtain ⟨positive, below⟩ := exact.bounds member
  obtain ⟨current, held, among, number⟩ := exact.current_some member
  simp only [TopologyStore.getTopologyVersion, held, if_neg (Int.not_le.mpr positive), number,
    if_neg (Int.not_lt.mpr below), exact.kept record member recent]
  split
  · next same => rw [exact.unique member among (same.trans number.symm)]
  · rfl

theorem Exact.of_getTopologyVersion (found : store.getTopologyVersion version = .ok record) :
    record ∈ store.committed ∧ record.version = version := by
  unfold TopologyStore.getTopologyVersion at found
  split at found
  · cases found
  · cases held : store.current with
    | none =>
      rw [held] at found
      cases found
    | some current =>
      rw [held] at found
      have last := exact.current.symm.trans held
      obtain ⟨other, same, -, number⟩ := exact.current_some (mem_of_getLast? last)
      obtain rfl := mem_unique held same
      dsimp only at found
      split at found
      · cases found
      · next below =>
        split at found
        · next same =>
          cases found
          exact ⟨mem_of_getLast? last, same.symm⟩
        · split at found
          · next old kept =>
            obtain rfl := Except.ok.inj found
            exact exact.known version old kept (by omega)
          · cases found

theorem Exact.mem_retained {current : TopologyRecord} (last : current.version = store.committed.length) :
    (record ∈ store.retained current → record ∈ store.committed) ∧
      (record ∈ store.committed → (store.committed.length : Int) - topologyHistoryLimit < record.version →
        record ∈ store.retained current) := by
  constructor
  · intro member
    obtain ⟨⟨version, record⟩, among, rfl⟩ := mem_map.mp member
    obtain ⟨present, counts⟩ := mem_filter.mp among
    have counts := of_decide_eq_true counts
    exact (exact.known version record (Std.ExtTreeMap.mem_toList_iff_getElem?_eq_some.mp present) (last ▸ counts.2.1)).1
  · intro member recent
    obtain ⟨positive, below⟩ := exact.bounds member
    refine mem_map.mpr ⟨(record.version, record), mem_filter.mpr ⟨?_, ?_⟩, rfl⟩
    · exact Std.ExtTreeMap.mem_toList_iff_getElem?_eq_some.mpr (exact.kept record member recent)
    · exact decide_eq_true ⟨positive, last ▸ below, rfl⟩

theorem Exact.mem_listTopologyVersions (info : TopologyVersionInfo) :
    (info ∈ store.listTopologyVersions → ∃ record ∈ store.committed, record.info = info) ∧
      (∀ record ∈ store.committed, (store.committed.length : Int) - topologyHistoryLimit < record.version →
        record.info = info → info ∈ store.listTopologyVersions) := by
  unfold listTopologyVersions
  cases held : store.current with
  | none =>
    refine ⟨nofun, fun record member => ?_⟩
    rw [exact.current, getLast?_eq_none_iff] at held
    rw [held] at member
    exact absurd member not_mem_nil
  | some current =>
    have last := exact.current.symm.trans held
    have among := mem_of_getLast? last
    obtain ⟨other, same, -, number⟩ := exact.current_some among
    obtain rfl := mem_unique held same
    constructor
    · intro listed
      obtain ⟨record, member, told⟩ := mem_map.mp (mem_mergeSort.mp listed)
      refine ⟨record, ?_, told⟩
      split at member
      · exact (exact.mem_retained number).1 member
      · rcases mem_append.mp member with kept | same
        · exact (exact.mem_retained number).1 kept
        · exact mem_singleton.mp same ▸ among
    · intro record member recent told
      have kept := (exact.mem_retained number).2 member recent
      refine mem_mergeSort.mpr (mem_map.mpr ⟨record, ?_, told⟩)
      split
      · exact kept
      · exact mem_append_left _ kept

end

end TopologyStore

/-- After every run of calls, wherever each was cut: the committed records are numbered one by one; each of the last
ones can be read back by its version, as it was committed, and is listed; what is read or listed was committed; a write
that succeeds has put the next version after the last one; and a conditional one has found the version it expected, and
left it or put the next one after it. -/
theorem topology_history_exact (calls : List (TopologyCall × List Fault)) :
    let store := TopologyStore.after {} calls
    (∀ (index : Nat) (record : TopologyRecord), store.committed[index]? = some record → record.version = index + 1) ∧
    (∀ record ∈ store.committed, (store.committed.length : Int) - topologyHistoryLimit < record.version →
      store.getTopologyVersion record.version = .ok record ∧ record.info ∈ store.listTopologyVersions) ∧
    (∀ version record, store.getTopologyVersion version = .ok record →
      record ∈ store.committed ∧ record.version = version) ∧
    (∀ info ∈ store.listTopologyVersions, ∃ record ∈ store.committed, record.info = info) ∧
    (∀ json now plan record rest after,
      TopologyStore.putTopology json now store plan = ⟨.done record, after, rest⟩ →
        after.committed = store.committed ++ [record] ∧ record.version = store.committed.length + 1 ∧
          record.json = json) ∧
    ∀ expectedVersion json now plan record rest after,
      TopologyStore.compareAndSetTopology expectedVersion json now store plan = ⟨.done record, after, rest⟩ →
        store.loadTopologyForWrite.version = expectedVersion ∧
          ((after = store ∧ record = store.loadTopologyForWrite ∧ record.json = json) ∨
            (after.committed = store.committed ++ [record] ∧ record.version = expectedVersion + 1 ∧
              record.json = json)) := by
  intro store
  have exact : store.Exact := TopologyStore.after_exact TopologyStore.start_exact calls
  refine ⟨exact.numbered, fun record member recent => ⟨exact.getTopologyVersion member recent, ?_⟩,
    fun version record found => exact.of_getTopologyVersion found,
    fun info => (exact.mem_listTopologyVersions info).1, ?_, ?_⟩
  · exact (exact.mem_listTopologyVersions record.info).2 record member recent rfl
  · intro json now plan record rest after ended
    obtain ⟨-, added, next, content⟩ := (TopologyStore.putTopology_ensures exact json now).done ended
    exact ⟨added, exact.loaded_version ▸ next, content⟩
  · intro expectedVersion json now plan record rest after ended
    obtain ⟨-, same, outcome⟩ :=
      (TopologyStore.compareAndSetTopology_ensures exact expectedVersion json now).done ended
    refine ⟨same, outcome.imp_right fun follows => ?_⟩
    exact ⟨follows.1, same ▸ follows.2.1, follows.2.2⟩

/-- The second write keeps its record and is cut before it becomes the current one; the third takes its version. -/
def sampleWrites : List (TopologyCall × List Fault) :=
  [(.put [1] 10, []), (.put [2] 20, [.applied, .refused]), (.compareAndSet 1 [3] 30, [])]

theorem sampleWrites_read :
    let after := TopologyStore.after {} sampleWrites
    after.committed = [⟨1, [1], 10⟩, ⟨2, [3], 30⟩] ∧ after.getTopologyVersion 1 = .ok ⟨1, [1], 10⟩ ∧
      after.getTopologyVersion 2 = .ok ⟨2, [3], 30⟩ := by
  have committed : (TopologyStore.after {} sampleWrites).committed = [⟨1, [1], 10⟩, ⟨2, [3], 30⟩] := by
    decide +kernel
  have reads := (topology_history_exact sampleWrites).2.1
  rw [committed] at reads
  exact ⟨committed, (reads _ mem_cons_self (by decide)).1, (reads _ (mem_cons_of_mem _ mem_cons_self) (by decide)).1⟩

end Yaog.Controller
