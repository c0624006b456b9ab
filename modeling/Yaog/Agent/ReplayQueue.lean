import Yaog.Controller.TelemetryReceiver

/-!
# The replay queue of one boot

A producer fills a bounded queue and never waits. An uploader posts the front until the controller has acknowledged it,
and moves on when the front was dropped meanwhile.
-/

namespace Yaog.Agent

open Data Controller

def telemetryReplayCapacity : Nat := 32

structure TelemetrySample where
  conditions : List Condition := []
  metrics : Metrics := ∅
  bootID : String
  sequence : Nat
  sampledAt : Moment
  interval : Int := 0

def sameTelemetrySample (first second : TelemetrySample) : Bool :=
  first.bootID = second.bootID && first.sequence = second.sequence

def enqueue (pending : List TelemetrySample) (sample : TelemetrySample) : List TelemetrySample × Bool :=
  if pending.length = telemetryReplayCapacity then (pending.tail ++ [sample], true) else (pending ++ [sample], false)

def isFront (pending : List TelemetrySample) (sample : TelemetrySample) : Bool :=
  match pending with
  | [] => false
  | front :: _ => sameTelemetrySample front sample

def removeFront (pending : List TelemetrySample) (sample : TelemetrySample) : List TelemetrySample × Bool :=
  if isFront pending sample then (pending.tail, true) else (pending, false)

structure TelemetryReceipt where
  bootID : String := ""
  acknowledgedSequence : Nat := 0
  receivedAt : Moment := 0
  reliable : Bool := false
  duplicate : Bool := false
  probeSamplesV1 : Bool := false

/-- The headers of a reply in the second version of the protocol. -/
structure Acknowledgement where
  bootID : String
  sequence : Nat
  receivedAt : Moment
  duplicate : Bool

/-- What comes back for a post. A header that cannot be read is a lost reply. -/
inductive TelemetryResponse where
  | acknowledged (headers : Acknowledgement)
  | accepted
  | refused (status : Nat)
  | lost

inductive TelemetryPostError where
  | permanent | retryable

def TelemetrySample.postable (sample : TelemetrySample) : Bool :=
  sample.bootID ≠ "" && sample.sequence ≠ 0 && sample.sampledAt ≠ 0

/-- The result of `PostTelemetry` from what comes back. -/
def readResponse (sample : TelemetrySample) : TelemetryResponse → Except TelemetryPostError TelemetryReceipt
  | .lost => .error .retryable
  | .refused status =>
    if 400 ≤ status ∧ status < 500 ∧ status ≠ 408 ∧ status ≠ 429 then .error .permanent else .error .retryable
  | .accepted => .ok {}
  | .acknowledged headers =>
    if headers.sequence ≠ sample.sequence ∨ headers.bootID ≠ sample.bootID then .error .retryable
    else if headers.receivedAt = 0 then .error .retryable
    else .ok {
      bootID := headers.bootID
      acknowledgedSequence := headers.sequence
      receivedAt := headers.receivedAt
      reliable := true
      duplicate := headers.duplicate
      probeSamplesV1 := true }

def TelemetryReceipt.settles (receipt : TelemetryReceipt) (sample : TelemetrySample) : Bool :=
  !receipt.reliable ||
    (receipt.bootID = sample.bootID && receipt.acknowledgedSequence = sample.sequence && receipt.receivedAt ≠ 0)

def probeSamplesKey : String := "probe_samples"

def withoutProbeSamples (metrics : Metrics) : Metrics := metrics.erase probeSamplesKey

def telemetrySampleForCapabilities (sample : TelemetrySample) (probeSamples : Bool) : TelemetrySample :=
  if probeSamples then sample else { sample with metrics := withoutProbeSamples sample.metrics }

inductive Uploader where
  | idle
  | posting (sample : TelemetrySample)
  | waiting (sample : TelemetrySample)
  | stopped

/-- How a sample left the queue. -/
inductive Departure where
  | acknowledged
  /-- By a controller, or through a proxy, that does not speak the second version of the protocol. -/
  | accepted
  | rejected
  | overflowed
  deriving DecidableEq, Repr

/-- One boot of the agent, the requests and acknowledgements under way, and the overlay of its node. The last two
fields are a history. -/
structure Delivery where
  bootID : String
  nextSequence : Nat := 0
  pending : List TelemetrySample := []
  uploader : Uploader := .idle
  probeSamples : Bool := false
  requests : List TelemetrySample := []
  acknowledgements : List Acknowledgement := []
  node : NodeTelemetry := {}
  collected : List TelemetrySample := []
  departed : List (TelemetrySample × Departure) := []

/-- What the uploader gets for its post: an acknowledgement that is under way, or something else. -/
inductive PostReply where
  | acknowledgement (index : Nat)
  | accepted
  | refused (status : Nat)
  | lost

inductive DeliveryEvent where
  /-- A collection; the limits adapt its metrics, or refuse them. -/
  | collect (conditions : List Condition) (metrics : Metrics) (limits : Metrics → Option Metrics) (sampledAt : Moment)
      (interval : Int)
  /-- The uploader finds a front, or its delay has passed. -/
  | post
  | respond (reply : PostReply)
  /-- A waiting uploader hears that the queue has changed. -/
  | changed
  | finish
  /-- The controller handles a request. -/
  | handle (index : Nat) (lookup : NodeLookup) (agentVersion : String) (receivedAt : Moment)
  /-- The controller handles a call that is not of this boot. -/
  | other (call : TelemetryCall)

namespace Delivery

variable (delivery : Delivery)

/-- `collect`, with the snapshot of the sequencer. -/
def collect (conditions : List Condition) (metrics : Metrics) (limits : Metrics → Option Metrics)
    (sampledAt : Moment) (interval : Int) : Delivery :=
  let metrics := if delivery.probeSamples then metrics else withoutProbeSamples metrics
  if conditions = [] ∧ metrics.isEmpty then delivery
  else
    match limits metrics with
    | none => delivery
    | some metrics =>
      let sample : TelemetrySample :=
        { conditions, metrics, bootID := delivery.bootID, sequence := delivery.nextSequence + 1, sampledAt, interval }
      let (pending, dropped) := enqueue delivery.pending sample
      { delivery with
        nextSequence := delivery.nextSequence + 1
        pending
        collected := delivery.collected ++ [sample]
        departed :=
          if dropped then delivery.departed ++ (delivery.pending.take 1).map (·, .overflowed) else delivery.departed }

def settle (sample : TelemetrySample) (departure : Departure) : Delivery :=
  let (pending, removed) := removeFront delivery.pending sample
  { delivery with
    pending
    uploader := .idle
    departed := if removed then delivery.departed ++ (delivery.pending.take 1).map (·, departure) else delivery.departed }

def conclude (sample : TelemetrySample) :
    Except TelemetryPostError TelemetryReceipt → Delivery
  | .ok receipt =>
    if receipt.settles sample then
      { delivery with probeSamples := receipt.reliable && receipt.probeSamplesV1 }.settle sample
        (if receipt.reliable then .acknowledged else .accepted)
    else { delivery with uploader := if isFront delivery.pending sample then .waiting sample else .idle }
  | .error .permanent => delivery.settle sample .rejected
  | .error .retryable =>
    { delivery with uploader := if isFront delivery.pending sample then .waiting sample else .idle }

def send (sample : TelemetrySample) : Delivery :=
  if sample.postable then
    { delivery with
      uploader := .posting sample
      requests := delivery.requests ++ [telemetrySampleForCapabilities sample delivery.probeSamples] }
  else delivery.conclude sample (.error .permanent)

def response : PostReply → TelemetryResponse
  | .acknowledgement index =>
    match delivery.acknowledgements[index]? with
    | some headers => .acknowledged headers
    | none => .lost
  | .accepted => .accepted
  | .refused status => .refused status
  | .lost => .lost

def headerInterval (interval : Int) : Int :=
  if 0 < interval.tdiv 1000000 then interval.tdiv 1000000 * 1000000 else 0

def received (request : TelemetrySample) (agentVersion : String) (receivedAt : Moment) : SequencedSample where
  conditions := request.conditions
  metrics := request.metrics
  agentVersion
  bootID := request.bootID
  sequence := request.sequence
  sampledAt := request.sampledAt
  interval := headerInterval request.interval
  receivedAt

def handle (request : TelemetrySample) (lookup : NodeLookup) (agentVersion : String)
    (receivedAt : Moment) : Delivery :=
  let counted := { delivery.node with calls := delivery.node.calls + 1 }
  match counted.recordTelemetrySequenced lookup (received request agentVersion receivedAt) with
  | .error _ => { delivery with node := counted }
  | .ok (receipt, node) =>
    { delivery with
      node
      acknowledgements := delivery.acknowledgements ++ [{
        bootID := request.bootID
        sequence := receipt.acknowledgedSequence
        receivedAt := receipt.receivedAt
        duplicate := receipt.duplicate }] }

def step : DeliveryEvent → Delivery
  | .collect conditions metrics limits sampledAt interval => delivery.collect conditions metrics limits sampledAt interval
  | .post =>
    match delivery.uploader with
    | .idle =>
      match delivery.pending with
      | [] => delivery
      | front :: _ => delivery.send front
    | .waiting sample => delivery.send sample
    | .posting _ | .stopped => delivery
  | .respond reply =>
    match delivery.uploader with
    | .posting sample => delivery.conclude sample (readResponse sample (delivery.response reply))
    | .idle | .waiting _ | .stopped => delivery
  | .changed =>
    match delivery.uploader with
    | .waiting sample => if isFront delivery.pending sample then delivery else { delivery with uploader := .idle }
    | .idle | .posting _ | .stopped => delivery
  | .finish =>
    match delivery.uploader with
    | .idle => if delivery.pending = [] then { delivery with uploader := .stopped } else delivery
    | .waiting _ => { delivery with uploader := .stopped }
    | .posting _ | .stopped => delivery
  | .handle index lookup agentVersion receivedAt =>
    match delivery.requests[index]? with
    | none => delivery
    | some request => delivery.handle request lookup agentVersion receivedAt
  | .other call =>
    if NodeTelemetry.Foreign delivery.bootID call then { delivery with node := delivery.node.step call } else delivery

def after (events : List DeliveryEvent) : Delivery := events.foldl step delivery

def handed : List Nat := (delivery.node.receiver delivery.bootID).handed

end Delivery

end Yaog.Agent
