import Yaog.Controller.Store

/-!
# The telemetry overlay

What a node tells between two deploys is kept in memory, over its durable record.
-/

namespace Yaog.Controller

open Data

/-- Nanoseconds after the zero time. -/
abbrev Moment := Int

structure Condition where
  type : String
  status : String
  reason : String
  message : String := ""
  since : String := ""

structure NodeCondition extends Condition where
  observedAt : Moment

def maxStoredConditions : Nat := 64

def stampConditions (conditions : List Condition) (observedAt : Moment) : List NodeCondition :=
  (conditions.take maxStoredConditions).map ({ · with observedAt })

/-- Metrics by key, each as its raw JSON. -/
abbrev Metrics := Records (List UInt8)

def agentCapabilitiesKey : String := "agent_capabilities"

inductive LiveSurfaceDisposition where
  | visible | historyOnly
  deriving DecidableEq, Repr

def catalogDefinitions : List (String × LiveSurfaceDisposition) :=
  [("probe_results", .visible), ("probe_samples", .historyOnly), ("resource", .visible), ("wireguard_peers", .visible),
    ("native_xdp", .visible), ("mimic_capability", .visible), (agentCapabilitiesKey, .visible),
    ("device_inventory", .visible), ("device_samples", .visible)]

def visibleOnLiveSurface (key : String) : Bool :=
  match catalogDefinitions.lookup key with
  | some disposition => disposition = .visible
  | none => true

def cloneLiveMetrics (metrics : Metrics) : Metrics := metrics.filter fun key _ => visibleOnLiveSurface key

def sameAgentCapabilityAdvertisement (current next : Metrics) : Bool :=
  current[agentCapabilitiesKey]? = next[agentCapabilitiesKey]?

structure TelemetrySequenceCursor where
  highestSequence : Nat := 0
  lastSampledAt : Moment := 0
  lastReceivedAt : Moment := 0

def maxTelemetrySequenceCursors : Nat := 4

def maxTelemetryRetiredBoots : Nat := 8

def maxTelemetryReplayAge : Int := 24 * 60 * 60 * 1000000000

def maxTelemetryFutureSkew : Int := 5 * 60 * 1000000000

def telemetryBootStaleSlack : Int := 5 * 60 * 1000000000

structure VolatileTelemetry where
  writtenAt : Moment := 0
  conditions : List NodeCondition := []
  telemetry : Metrics := ∅
  agentVersion : String := ""
  telemetrySet : Bool := false
  lastSeen : Moment := 0
  lastSeenSet : Bool := false
  sequenceCursors : Records TelemetrySequenceCursor := ∅
  retiredBoots : Records Moment := ∅
  activeBootID : String := ""
  activeSampledAt : Moment := 0

/-- Where a record comes from. -/
inductive Source where
  | heartbeat
  | sequenced (bootID : String) (sequence : Nat)
  deriving DecidableEq, Repr

/-- What `appendMetrics` is called with, and for which call. -/
structure HistoryAppend where
  source : Source
  metrics : Metrics
  historyAt : Moment
  interval : Int

/-- The overlay and the calls of `appendMetrics`. The last three fields are a history: the number of calls so far,
which of them, counted from one, made the active boot active, and which one wrote the live metrics. -/
structure NodeTelemetry extends VolatileTelemetry where
  history : List HistoryAppend := []
  calls : Nat := 0
  activated : Nat := 0
  writer : Option (Source × Nat) := none

def older (best candidate : String × Moment) : String × Moment :=
  if best.1 = "" ∨ candidate.2 < best.2 ∨ (candidate.2 = best.2 ∧ textLT candidate.1 best.1) then candidate else best

def oldestEntry (entries : List (String × Moment)) : String × Moment := entries.foldl older ("", 0)

def evictOldestTelemetryCursor (cursors : Records TelemetrySequenceCursor) (protectedBootID : String) :
    Records TelemetrySequenceCursor × (String × Moment) :=
  let candidates := cursors.toList.filter fun (bootID, _) => ¬(bootID = protectedBootID ∧ 1 < cursors.size)
  let oldest := oldestEntry (candidates.map fun (bootID, cursor) => (bootID, cursor.lastReceivedAt))
  (if oldest.1 ≠ "" then cursors.erase oldest.1 else cursors, oldest)

def rememberRetiredTelemetryBoot (retired : Records Moment) (bootID : String) (moment : Moment) : Records Moment :=
  if bootID = "" then retired
  else
    let kept := if bootID ∉ retired ∧ maxTelemetryRetiredBoots ≤ retired.size then
        retired.erase (oldestEntry retired.toList).1
      else retired
    kept.insert bootID moment

inductive TelemetryError where
  | emptyBootID | zeroSequence | zeroTimestamps | notFound
  /-- The request was given up, or the existence of the node cannot be read. -/
  | unavailable

inductive NodeLookup where
  | found | missing | failed
  deriving DecidableEq, Repr

def telemetryNodeExists : NodeLookup → Except TelemetryError Unit
  | .found => .ok ()
  | .missing => .error .notFound
  | .failed => .error .unavailable

structure SequencedSample where
  conditions : List Condition := []
  metrics : Metrics := ∅
  agentVersion : String := ""
  bootID : String
  sequence : Nat
  sampledAt : Moment
  interval : Int := 0
  receivedAt : Moment

structure TelemetryReceipt where
  acknowledgedSequence : Nat
  duplicate : Bool
  sampledAt : Moment
  receivedAt : Moment

def normalizeTelemetrySampleTime (sampledAt receivedAt : Moment) : Moment × Bool :=
  if sampledAt < receivedAt - maxTelemetryReplayAge ∨ receivedAt + maxTelemetryFutureSkew < sampledAt then
    (receivedAt, false)
  else (sampledAt, true)

namespace SequencedSample

def trusted (sample : SequencedSample) : Bool := (normalizeTelemetrySampleTime sample.sampledAt sample.receivedAt).2

def source (sample : SequencedSample) : Source := .sequenced sample.bootID sample.sequence

end SequencedSample

namespace NodeTelemetry

variable (node : NodeTelemetry) (sample : SequencedSample)

/-- `LastSeen` only advances. -/
def seenAt (moment : Moment) : NodeTelemetry :=
  if node.lastSeenSet = false ∨ node.lastSeen < moment then { node with lastSeen := moment, lastSeenSet := true } else node

def appendTelemetryHistory (source : Source) (metrics : Metrics) (historyAt : Moment)
    (interval : Int) : NodeTelemetry :=
  { node with history := node.history ++ [{ source, metrics, historyAt, interval }] }

/-- `recordTelemetryLocked`. -/
def recordTelemetryLocked (source : Source) (conditions : List Condition) (metrics : Metrics)
    (agentVersion : String) (observedAt historyAt : Moment) (interval : Int) : NodeTelemetry :=
  let node := (node.seenAt observedAt).appendTelemetryHistory source metrics historyAt interval
  if node.telemetrySet = false ∨ node.writtenAt ≤ observedAt then
    { node with
      conditions := stampConditions conditions observedAt
      telemetry := cloneLiveMetrics metrics
      telemetrySet := true
      writtenAt := observedAt
      agentVersion := if agentVersion = "" then node.agentVersion else agentVersion
      writer := some (source, node.calls) }
  else node

def retiredAt (bootID : String) : Moment :=
  match node.sequenceCursors[bootID]? with
  | some previous => if previous.lastReceivedAt = 0 then node.activeSampledAt else previous.lastReceivedAt
  | none => node.activeSampledAt

def capabilityReplacement (current incoming : Metrics) : Bool :=
  agentCapabilitiesKey ∉ incoming ∨
    (agentCapabilitiesKey ∈ current ∧ sameAgentCapabilityAdvertisement current incoming = false)

def release (metrics : Metrics) (observedAt : Moment) : NodeTelemetry :=
  if node.telemetrySet = true ∧ node.writtenAt ≤ observedAt ∧ node.activeBootID ≠ "" ∧
      capabilityReplacement node.telemetry metrics = true then
    { node with
      retiredBoots :=
        rememberRetiredTelemetryBoot node.retiredBoots node.activeBootID (node.retiredAt node.activeBootID)
      activeBootID := ""
      activeSampledAt := 0 }
  else node

/-- `RecordTelemetry`. -/
def recordTelemetry (lookup : NodeLookup) (conditions : List Condition) (metrics : Metrics)
    (agentVersion : String) (observedAt : Moment) : Except TelemetryError NodeTelemetry := do
  telemetryNodeExists lookup
  .ok ((node.release metrics observedAt).recordTelemetryLocked .heartbeat conditions metrics agentVersion observedAt
    observedAt 0)

def crossBoot : Bool :=
  node.activeBootID ≠ "" ∧ node.activeBootID ≠ sample.bootID

def ambiguousCrossBoot : Bool :=
  node.crossBoot sample &&
    (!sample.trusted || (node.activeSampledAt ≠ 0 && sample.sampledAt ≤ node.activeSampledAt))

def live : Bool :=
  if node.crossBoot sample then
    if sample.bootID ∈ node.retiredBoots then false
    -- A boot that was active before takes the overlay back with a newer sample.
    else if sample.bootID ∈ node.sequenceCursors then
      sample.trusted && (node.activeSampledAt = 0 || node.activeSampledAt < sample.sampledAt)
    else if sample.trusted && node.activeSampledAt ≠ 0 &&
        sample.sampledAt < node.activeSampledAt - telemetryBootStaleSlack then false
    else true
  else sample.bootID ∉ node.retiredBoots

def historyAt : Moment :=
  let normalized := (normalizeTelemetrySampleTime sample.sampledAt sample.receivedAt).1
  let ordered :=
    match node.sequenceCursors[sample.bootID]? with
    | some cursor =>
      if cursor.lastSampledAt ≠ 0 ∧ sample.sampledAt < cursor.lastSampledAt then sample.receivedAt else normalized
    | none => normalized
  if node.live sample ∧ node.activeSampledAt ≠ 0 ∧ ordered < node.activeSampledAt then sample.receivedAt else ordered

def dropAmbiguous : NodeTelemetry :=
  if node.ambiguousCrossBoot sample ∧ node.telemetrySet then
    { node with telemetry := node.telemetry.erase agentCapabilitiesKey }
  else node

def makeRoom : NodeTelemetry :=
  if sample.bootID ∉ node.sequenceCursors ∧ maxTelemetrySequenceCursors ≤ node.sequenceCursors.size then
    let (cursors, retired) := evictOldestTelemetryCursor node.sequenceCursors node.activeBootID
    { node with
      sequenceCursors := cursors
      retiredBoots := rememberRetiredTelemetryBoot node.retiredBoots retired.1 retired.2 }
  else node

def advancedCursor (cursor : TelemetrySequenceCursor) (sample : SequencedSample) : TelemetrySequenceCursor where
  highestSequence := sample.sequence
  lastSampledAt :=
    if cursor.lastSampledAt = 0 ∨ cursor.lastSampledAt < sample.sampledAt then sample.sampledAt else cursor.lastSampledAt
  lastReceivedAt := if cursor.lastReceivedAt < sample.receivedAt then sample.receivedAt else cursor.lastReceivedAt

def advanceCursor : NodeTelemetry :=
  let cursor := node.sequenceCursors[sample.bootID]?.getD {}
  let node := node.makeRoom sample
  { node with sequenceCursors := node.sequenceCursors.insert sample.bootID (advancedCursor cursor sample) }

def takeOver (historyAt : Moment) : NodeTelemetry :=
  { node with
    retiredBoots :=
      if node.crossBoot sample then
        rememberRetiredTelemetryBoot node.retiredBoots node.activeBootID (node.retiredAt node.activeBootID)
      else node.retiredBoots
    activeBootID := sample.bootID
    activeSampledAt :=
      if node.activeSampledAt = 0 ∨ node.activeSampledAt < historyAt then historyAt else node.activeSampledAt
    activated := if node.activeBootID = sample.bootID then node.activated else node.calls }

def accept : NodeTelemetry :=
  let historyAt := node.historyAt sample
  let interval := max sample.interval 0
  let next := ((node.dropAmbiguous sample).advanceCursor sample).seenAt sample.receivedAt
  if node.live sample then
    let liveMetrics :=
      if node.ambiguousCrossBoot sample then sample.metrics.erase agentCapabilitiesKey else sample.metrics
    (next.takeOver sample historyAt).recordTelemetryLocked sample.source sample.conditions liveMetrics
      sample.agentVersion sample.receivedAt historyAt interval
  else next.appendTelemetryHistory sample.source sample.metrics historyAt interval

def acceptDuplicate (cursor : TelemetrySequenceCursor) :
    NodeTelemetry :=
  let heard :=
    if cursor.lastReceivedAt < sample.receivedAt then
      { node with
        sequenceCursors :=
          node.sequenceCursors.insert sample.bootID { cursor with lastReceivedAt := sample.receivedAt } }
    else node
  heard.seenAt sample.receivedAt

def deliver : TelemetryReceipt × NodeTelemetry :=
  let receipt (duplicate : Bool) : TelemetryReceipt :=
    { acknowledgedSequence := sample.sequence, duplicate, sampledAt := sample.sampledAt,
      receivedAt := sample.receivedAt }
  match node.sequenceCursors[sample.bootID]? with
  | some cursor =>
    if sample.sequence ≤ cursor.highestSequence then (receipt true, node.acceptDuplicate sample cursor)
    else (receipt false, node.accept sample)
  | none => (receipt false, node.accept sample)

/-- `RecordTelemetrySequenced`. -/
def recordTelemetrySequenced (lookup : NodeLookup) (sample : SequencedSample) :
    Except TelemetryError (TelemetryReceipt × NodeTelemetry) :=
  if trimSpace sample.bootID = "" then .error .emptyBootID
  else if sample.sequence = 0 then .error .zeroSequence
  else if sample.sampledAt = 0 ∨ sample.receivedAt = 0 then .error .zeroTimestamps
  else
    match telemetryNodeExists lookup with
    | .error reason => .error reason
    | .ok _ => .ok (node.deliver sample)

/-- `TouchLastSeen`. -/
def touchLastSeen (lookup : NodeLookup) (moment : Moment) : Except TelemetryError NodeTelemetry := do
  telemetryNodeExists lookup
  .ok (node.seenAt moment)

/-- `refreshTelemetryOverlayFromReport`: a report carries no metrics. -/
def refreshFromReport (conditions : List NodeCondition) (agentVersion : String) (observedAt : Moment) : NodeTelemetry :=
  let refreshed :=
    if node.telemetrySet = false ∨ node.writtenAt ≤ observedAt then
      { node with
        conditions
        telemetrySet := true
        writtenAt := observedAt
        agentVersion := if agentVersion = "" then node.agentVersion else agentVersion }
    else node
  refreshed.seenAt observedAt

end NodeTelemetry

inductive TelemetryCall where
  | heartbeat (lookup : NodeLookup) (conditions : List Condition) (metrics : Metrics) (agentVersion : String)
      (observedAt : Moment)
  | sequenced (lookup : NodeLookup) (sample : SequencedSample)
  | touch (lookup : NodeLookup) (moment : Moment)
  | report (conditions : List NodeCondition) (agentVersion : String) (observedAt : Moment)

namespace NodeTelemetry

def perform (node : NodeTelemetry) : TelemetryCall → NodeTelemetry
  | .heartbeat lookup conditions metrics agentVersion observedAt =>
    match node.recordTelemetry lookup conditions metrics agentVersion observedAt with
    | .ok after => after
    | .error _ => node
  | .sequenced lookup sample =>
    match node.recordTelemetrySequenced lookup sample with
    | .ok (_, after) => after
    | .error _ => node
  | .touch lookup moment =>
    match node.touchLastSeen lookup moment with
    | .ok after => after
    | .error _ => node
  | .report conditions agentVersion observedAt => node.refreshFromReport conditions agentVersion observedAt

theorem recordTelemetrySequenced_ok {node : NodeTelemetry} {lookup : NodeLookup} {sample : SequencedSample}
    {result : TelemetryReceipt × NodeTelemetry} (accepted : node.recordTelemetrySequenced lookup sample = .ok result) :
    sample.bootID ≠ "" ∧ result = node.deliver sample := by
  unfold recordTelemetrySequenced at accepted
  split at accepted
  · cases accepted
  · next named =>
    split at accepted
    · cases accepted
    · split at accepted
      · cases accepted
      · split at accepted
        · cases accepted
        · refine ⟨fun same => named ?_, (Except.ok.inj accepted).symm⟩
          rw [same]
          decide

/-- A call is refused or takes effect. -/
theorem perform_cases {motive : TelemetryCall → NodeTelemetry → Prop} (node : NodeTelemetry) (call : TelemetryCall)
    (refused : motive call node)
    (heartbeat : ∀ lookup conditions metrics agentVersion observedAt,
      motive (.heartbeat lookup conditions metrics agentVersion observedAt)
        ((node.release metrics observedAt).recordTelemetryLocked .heartbeat conditions metrics agentVersion observedAt
          observedAt 0))
    (sequenced : ∀ lookup sample, sample.bootID ≠ "" → motive (.sequenced lookup sample) (node.deliver sample).2)
    (touch : ∀ lookup moment, motive (.touch lookup moment) (node.seenAt moment))
    (unchanged : ∀ conditions agentVersion observedAt,
      motive (.report conditions agentVersion observedAt) (node.seenAt observedAt))
    (refreshed : ∀ conditions agentVersion observedAt version, node.telemetrySet = false ∨ node.writtenAt ≤ observedAt →
      motive (.report conditions agentVersion observedAt) (seenAt { node with
        conditions, telemetrySet := true, writtenAt := observedAt, agentVersion := version } observedAt)) :
    motive call (node.perform call) := by
  cases call with
  | heartbeat lookup conditions metrics agentVersion observedAt =>
    cases lookup with
    | found => exact heartbeat ..
    | missing => exact refused
    | failed => exact refused
  | sequenced lookup sample =>
    cases told : node.recordTelemetrySequenced lookup sample with
    | error reason => simpa only [perform, told] using refused
    | ok result =>
      obtain ⟨named, rfl⟩ := recordTelemetrySequenced_ok told
      simpa only [perform, told] using sequenced lookup sample named
  | touch lookup moment =>
    cases lookup with
    | found => exact touch ..
    | missing => exact refused
    | failed => exact refused
  | report conditions agentVersion observedAt =>
    simp only [perform, refreshFromReport]
    split
    · next newer => exact refreshed conditions agentVersion observedAt _ newer
    · exact unchanged ..

def step (node : NodeTelemetry) (call : TelemetryCall) : NodeTelemetry :=
  { node with calls := node.calls + 1 }.perform call

def after (node : NodeTelemetry) (calls : List TelemetryCall) : NodeTelemetry := calls.foldl step node

end NodeTelemetry

end Yaog.Controller
