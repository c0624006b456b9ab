import Yaog.Agent.ReplayQueue

/-!
# Exactly-once delivery, up to declared loss

The uploader sends nothing above its front, and the receiver hands on only what is above its mark.
-/

namespace Yaog.Agent

open Data Controller List

section

variable {pending : List TelemetrySample} {sample : TelemetrySample} {bound : Nat}

/-- The samples are in order, and a later one is still to come. -/
structure Queued (pending : List TelemetrySample) (bound : Nat) : Prop where
  ascending : pending.Pairwise (·.sequence < ·.sequence)
  capacity : pending.length ≤ telemetryReplayCapacity
  below : ∀ sample ∈ pending, sample.sequence ≤ bound

theorem Queued.tail (queued : Queued pending bound) : Queued pending.tail bound := by
  refine ⟨queued.ascending.tail, ?_, fun sample member => queued.below sample (mem_of_mem_tail member)⟩
  rw [length_tail]
  exact (Nat.sub_le _ _).trans queued.capacity

theorem Queued.concat (queued : Queued pending bound) (room : pending.length < telemetryReplayCapacity)
    (next : sample.sequence = bound + 1) : Queued (pending ++ [sample]) (bound + 1) := by
  refine ⟨pairwise_append.mpr ⟨queued.ascending, pairwise_singleton _ _, ?_⟩, ?_, ?_⟩
  · intro earlier member last same
    rw [mem_singleton.mp same, next]
    exact Nat.lt_succ_of_le (queued.below earlier member)
  · rw [length_append]
    exact room
  · intro other member
    rcases mem_append.mp member with earlier | same
    · exact (queued.below other earlier).trans (Nat.le_succ _)
    · rw [mem_singleton.mp same, next]

theorem Queued.enqueue (queued : Queued pending bound) (next : sample.sequence = bound + 1) :
    Queued (enqueue pending sample).1 (bound + 1) := by
  unfold Yaog.Agent.enqueue
  split
  · next full =>
    refine queued.tail.concat ?_ next
    rw [length_tail, full]
    decide
  · next spare => exact queued.concat (Nat.lt_of_le_of_ne queued.capacity spare) next

theorem mem_enqueue {other : TelemetrySample} (member : other ∈ (enqueue pending sample).1) :
    other = sample ∨ other ∈ pending := by
  unfold enqueue at member
  split at member
  · rcases mem_append.mp member with earlier | same
    · exact .inr (mem_of_mem_tail earlier)
    · exact .inl (mem_singleton.mp same)
  · rcases mem_append.mp member with earlier | same
    · exact .inr earlier
    · exact .inl (mem_singleton.mp same)

theorem enqueue_ledger (pending : List TelemetrySample) (sample : TelemetrySample) :
    (if (enqueue pending sample).2 then pending.take 1 else []) ++ (enqueue pending sample).1 = pending ++ [sample] := by
  unfold enqueue
  split
  · rw [if_pos rfl, ← append_assoc, ← drop_one, take_append_drop]
  · rfl

theorem isFront_iff : isFront pending sample = true ↔
    ∃ front rest, pending = front :: rest ∧ front.bootID = sample.bootID ∧ front.sequence = sample.sequence := by
  cases pending with
  | nil => simp [isFront]
  | cons front rest => simp [isFront, sameTelemetrySample]

theorem removeFront_cases (pending : List TelemetrySample) (sample : TelemetrySample) :
    removeFront pending sample = (pending, false) ∨
      ∃ front rest, pending = front :: rest ∧ (front.bootID = sample.bootID ∧ front.sequence = sample.sequence) ∧
        removeFront pending sample = (rest, true) := by
  unfold removeFront
  split
  · next front =>
    obtain ⟨first, rest, parts, same⟩ := isFront_iff.mp front
    exact .inr ⟨first, rest, parts, same, by rw [parts]; rfl⟩
  · exact .inl rfl

end

/-- The sample that the uploader holds. -/
def Uploader.sample : Uploader → Option TelemetrySample
  | .posting sample | .waiting sample => some sample
  | .idle | .stopped => none

namespace Delivery

variable {delivery : Delivery} {after : Delivery} {sequence : Nat} {event : DeliveryEvent} {sample : TelemetrySample}

def Passed (delivery : Delivery) (sequence : Nat) : Prop :=
  sequence ≤ delivery.nextSequence ∧ ∀ sample ∈ delivery.pending, sequence ≤ sample.sequence

/-- The agent has sent nothing above the front of its queue. -/
structure Sends (delivery : Delivery) : Prop where
  queued : Queued delivery.pending delivery.nextSequence
  requests : ∀ request ∈ delivery.requests, request.bootID = delivery.bootID ∧ delivery.Passed request.sequence
  pending : ∀ sample ∈ delivery.pending, sample.bootID = delivery.bootID
  uploader : ∀ sample, delivery.uploader.sample = some sample →
    sample.bootID = delivery.bootID ∧ delivery.Passed sample.sequence

/-- What was handed on was sent, and what was acknowledged is not above it. -/
structure Receives (delivery : Delivery) : Prop where
  sound : (delivery.node.receiver delivery.bootID).Sound
  handed : ∀ sequence ∈ delivery.handed, ∃ request ∈ delivery.requests, request.sequence = sequence
  acknowledged : ∀ headers ∈ delivery.acknowledgements, ∃ sequence ∈ delivery.handed, headers.sequence ≤ sequence

/-- Every sample that was collected is in the queue, or has left it for a reason. -/
structure Accounts (delivery : Delivery) : Prop where
  collected : delivery.collected = delivery.departed.map (·.1) ++ delivery.pending
  acknowledged : ∀ sample, (sample, Departure.acknowledged) ∈ delivery.departed → sample.sequence ∈ delivery.handed

structure Sound (delivery : Delivery) : Prop where
  sends : delivery.Sends
  receives : delivery.Receives
  accounts : delivery.Accounts

theorem Sound.upload (sound : delivery.Sound) {uploader : Uploader}
    (holds : ∀ sample, uploader.sample = some sample →
      sample.bootID = delivery.bootID ∧ delivery.Passed sample.sequence) (probeSamples : Bool) :
    Sound { delivery with uploader, probeSamples } :=
  ⟨⟨sound.sends.queued, sound.sends.requests, sound.sends.pending, holds⟩,
    ⟨sound.receives.sound, sound.receives.handed, sound.receives.acknowledged⟩,
    ⟨sound.accounts.collected, sound.accounts.acknowledged⟩⟩

theorem Passed.collect (passed : delivery.Passed sequence) (next : after.nextSequence = delivery.nextSequence + 1)
    (pending : ∀ sample ∈ after.pending, sample.sequence = after.nextSequence ∨ sample ∈ delivery.pending) :
    after.Passed sequence := by
  refine ⟨passed.1.trans (next ▸ Nat.le_succ _), fun sample member => ?_⟩
  rcases pending sample member with same | earlier
  · rw [same, next]
    exact passed.1.trans (Nat.le_succ _)
  · exact passed.2 sample earlier

theorem Passed.shrink (passed : delivery.Passed sequence)
    (next : after.nextSequence = delivery.nextSequence) (pending : ∀ sample ∈ after.pending, sample ∈ delivery.pending) :
    after.Passed sequence :=
  ⟨next ▸ passed.1, fun sample member => passed.2 sample (pending sample member)⟩

theorem map_fst_departed (samples : List TelemetrySample) (departure : Departure) :
    (samples.map (·, departure)).map (·.1) = samples := by
  rw [map_map]
  exact map_id samples

section

variable (sound : delivery.Sound) {sample : TelemetrySample} {response : TelemetryResponse}

include sound

theorem collect_sound (conditions : List Condition) (metrics : Metrics)
    (limits : Metrics → Option Metrics) (sampledAt : Moment) (interval : Int) :
    (delivery.collect conditions metrics limits sampledAt interval).Sound := by
  unfold collect
  dsimp only
  generalize (if delivery.probeSamples then metrics else withoutProbeSamples metrics) = offered
  split
  · exact sound
  · split
    · exact sound
    · next kept _ =>
      generalize named : TelemetrySample.mk conditions kept delivery.bootID (delivery.nextSequence + 1) sampledAt
        interval = sample
      have own : sample.bootID = delivery.bootID := named ▸ rfl
      have next : sample.sequence = delivery.nextSequence + 1 := named ▸ rfl
      have ledger := enqueue_ledger delivery.pending sample
      have queued := sound.sends.queued.enqueue next
      have members : ∀ other ∈ (enqueue delivery.pending sample).1, other = sample ∨ other ∈ delivery.pending :=
        fun _ member => mem_enqueue member
      generalize enqueue delivery.pending sample = queue at ledger queued members ⊢
      obtain ⟨pending, dropped⟩ := queue
      have numbers : ∀ other ∈ pending, other.sequence = delivery.nextSequence + 1 ∨ other ∈ delivery.pending :=
        fun other member => (members other member).imp_left fun same => by rw [same, next]
      refine ⟨⟨queued, ?_, ?_, ?_⟩, ⟨sound.receives.sound, sound.receives.handed, sound.receives.acknowledged⟩, ?_, ?_⟩
      · intro request sent
        obtain ⟨boot, passed⟩ := sound.sends.requests request sent
        exact ⟨boot, passed.collect rfl numbers⟩
      · intro other member
        rcases members other member with same | earlier
        · exact same ▸ own
        · exact sound.sends.pending other earlier
      · intro held holds
        obtain ⟨boot, passed⟩ := sound.sends.uploader held holds
        exact ⟨boot, passed.collect rfl numbers⟩
      · dsimp only at ledger ⊢
        rw [sound.accounts.collected, append_assoc, ← ledger]
        cases dropped with
        | true => simp only [if_true, map_append, map_fst_departed, append_assoc]
        | false => simp
      · intro departed member
        refine sound.accounts.acknowledged departed ?_
        split at member
        · rcases mem_append.mp member with earlier | overflowed
          · exact earlier
          · obtain ⟨other, -, same⟩ := mem_map.mp overflowed
            cases same
        · exact member

theorem settle_sound {departure : Departure}
    (settled : departure = .acknowledged → ∀ front ∈ delivery.pending, front.sequence = sample.sequence →
      front.sequence ∈ delivery.handed) :
    (delivery.settle sample departure).Sound := by
  unfold settle
  rcases removeFront_cases delivery.pending sample with same | ⟨front, rest, parts, ⟨-, number⟩, removed⟩
  · rw [same]
    refine sound.upload ?_ delivery.probeSamples
    exact nofun
  · rw [removed]
    have fewer : ∀ other ∈ rest, other ∈ delivery.pending := fun _ member => parts ▸ mem_cons_of_mem _ member
    have queued : Queued rest delivery.nextSequence := by
      have tail := sound.sends.queued.tail
      rw [parts] at tail
      exact tail
    refine ⟨⟨queued, ?_, fun other member => sound.sends.pending other (fewer other member), nofun⟩,
      ⟨sound.receives.sound, sound.receives.handed, sound.receives.acknowledged⟩, ?_, ?_⟩
    · intro request sent
      obtain ⟨boot, passed⟩ := sound.sends.requests request sent
      exact ⟨boot, passed.shrink rfl fewer⟩
    · simp only [if_true, map_append, map_fst_departed, sound.accounts.collected, parts, append_assoc]
      rfl
    · intro other member
      simp only [if_true, parts, take_succ_cons, take_zero, map_cons, map_nil] at member
      rcases mem_append.mp member with earlier | last
      · exact sound.accounts.acknowledged other earlier
      · obtain ⟨rfl, same⟩ := Prod.mk.inj (mem_singleton.mp last)
        exact settled same.symm other (parts ▸ mem_cons_self) number

theorem retry_sound (held : sample.bootID = delivery.bootID ∧ delivery.Passed sample.sequence) :
    Sound { delivery with uploader := if isFront delivery.pending sample then .waiting sample else .idle } := by
  refine sound.upload ?_ delivery.probeSamples
  intro other holds
  split at holds
  · cases holds
    exact held
  · cases holds

theorem handed_of_acknowledged {headers : Acknowledgement} {front : TelemetrySample}
    (acknowledged : headers ∈ delivery.acknowledgements) (queued : front ∈ delivery.pending)
    (same : headers.sequence = front.sequence) : front.sequence ∈ delivery.handed := by
  obtain ⟨sequence, handed, above⟩ := sound.receives.acknowledged headers acknowledged
  obtain ⟨request, sent, number⟩ := sound.receives.handed sequence handed
  have below := (sound.sends.requests request sent).2.2 front queued
  rw [number] at below
  have equal : front.sequence = sequence := Nat.le_antisymm (same ▸ above) below
  exact equal ▸ handed

omit sound in
theorem readResponse_ok {receipt : TelemetryReceipt} (read : readResponse sample response = .ok receipt) :
    response = .accepted ∧ receipt.reliable = false ∨
      ∃ headers, response = .acknowledged headers ∧ headers.bootID = sample.bootID ∧
        headers.sequence = sample.sequence ∧ receipt.reliable = true := by
  unfold readResponse at read
  split at read
  · cases read
  · split at read <;> cases read
  · cases read
    exact .inl ⟨rfl, rfl⟩
  · next headers =>
    split at read
    · cases read
    · next same =>
      obtain ⟨number, boot⟩ := not_or.mp same
      split at read
      · cases read
      · cases read
        exact .inr ⟨headers, rfl, not_not.mp boot, not_not.mp number, rfl⟩

theorem conclude_sound (held : sample.bootID = delivery.bootID ∧ delivery.Passed sample.sequence)
    (underway : ∀ headers, response = .acknowledged headers → headers ∈ delivery.acknowledgements) :
    (delivery.conclude sample (readResponse sample response)).Sound := by
  cases read : readResponse sample response with
  | error reason =>
    cases reason with
    | permanent => exact settle_sound sound nofun
    | retryable => exact retry_sound sound held
  | ok receipt =>
    simp only [conclude]
    split
    · have observed : ({ delivery with probeSamples := receipt.reliable && receipt.probeSamplesV1 } : Delivery).Sound :=
        sound.upload sound.sends.uploader _
      refine settle_sound observed fun acknowledged front queued equal => ?_
      obtain ⟨-, unreliable⟩ | ⟨headers, same, -, number, -⟩ := readResponse_ok read
      · rw [unreliable] at acknowledged
        cases acknowledged
      exact handed_of_acknowledged sound (underway headers same) queued (number.trans equal.symm)
    · exact retry_sound sound held

theorem send_sound
    (held : sample.bootID = delivery.bootID ∧ delivery.Passed sample.sequence) : (delivery.send sample).Sound := by
  unfold send
  split
  · have outgoing : (telemetrySampleForCapabilities sample delivery.probeSamples).bootID = sample.bootID ∧
        (telemetrySampleForCapabilities sample delivery.probeSamples).sequence = sample.sequence := by
      unfold telemetrySampleForCapabilities
      split <;> exact ⟨rfl, rfl⟩
    refine ⟨⟨sound.sends.queued, ?_, sound.sends.pending, ?_⟩, ⟨sound.receives.sound, ?_, sound.receives.acknowledged⟩,
      ⟨sound.accounts.collected, sound.accounts.acknowledged⟩⟩
    · intro request sent
      rcases mem_append.mp sent with earlier | last
      · exact sound.sends.requests request earlier
      · rw [mem_singleton.mp last, outgoing.1, outgoing.2]
        exact held
    · intro other holds
      cases holds
      exact held
    · intro sequence handed
      obtain ⟨request, sent, number⟩ := sound.receives.handed sequence handed
      exact ⟨request, mem_append_left _ sent, number⟩
  · exact settle_sound sound nofun

theorem Sound.receive {after : Delivery}
    (agent : after.bootID = delivery.bootID ∧ after.nextSequence = delivery.nextSequence ∧
      after.pending = delivery.pending ∧ after.uploader = delivery.uploader ∧ after.requests = delivery.requests ∧
      after.collected = delivery.collected ∧ after.departed = delivery.departed)
    (receives : after.Receives) (more : ∀ sequence ∈ delivery.handed, sequence ∈ after.handed) : after.Sound := by
  obtain ⟨boot, next, pending, uploader, requests, collected, departed⟩ := agent
  have passed : ∀ sequence, delivery.Passed sequence → after.Passed sequence := by
    intro sequence
    unfold Passed
    rw [next, pending]
    exact id
  refine ⟨⟨?_, ?_, ?_, ?_⟩, receives, ?_, ?_⟩
  · rw [pending, next]
    exact sound.sends.queued
  · rw [requests, boot]
    exact fun request sent => (sound.sends.requests request sent).imp_right (passed _)
  · rw [pending, boot]
    exact sound.sends.pending
  · rw [uploader, boot]
    exact fun sample holds => (sound.sends.uploader sample holds).imp_right (passed _)
  · rw [collected, departed, pending]
    exact sound.accounts.collected
  · rw [departed]
    exact fun sample left => more _ (sound.accounts.acknowledged sample left)

theorem Sound.unnoticed {node : NodeTelemetry}
    (same : node.receiver delivery.bootID = delivery.node.receiver delivery.bootID) :
    ({ delivery with node } : Delivery).Sound := by
  have handed : ({ delivery with node } : Delivery).handed = delivery.handed := congrArg HighWater.handed same
  refine sound.receive ⟨rfl, rfl, rfl, rfl, rfl, rfl, rfl⟩ ⟨?_, ?_, ?_⟩ ?_
  · exact same ▸ sound.receives.sound
  · rw [handed]
    exact sound.receives.handed
  · rw [handed]
    exact sound.receives.acknowledged
  · rw [handed]
    exact fun _ known => known

omit sound in
theorem deliver_acknowledged (node : NodeTelemetry) (sample : SequencedSample) :
    (node.deliver sample).1.acknowledgedSequence = sample.sequence := by
  unfold NodeTelemetry.deliver
  split
  · split <;> rfl
  · rfl

theorem handle_sound {request : TelemetrySample} (sent : request ∈ delivery.requests)
    (lookup : NodeLookup) (agentVersion : String) (receivedAt : Moment) :
    (delivery.handle request lookup agentVersion receivedAt).Sound := by
  have boot : request.bootID = delivery.bootID := (sound.sends.requests request sent).1
  unfold handle
  generalize named : received request agentVersion receivedAt = sample
  have own : sample.bootID = delivery.bootID := by rw [← named, ← boot]; rfl
  have number : sample.sequence = request.sequence := by rw [← named]; rfl
  generalize counts : ({ delivery.node with calls := delivery.node.calls + 1 } : NodeTelemetry) = counted
  have same : counted.receiver delivery.bootID = delivery.node.receiver delivery.bootID := by rw [← counts]; rfl
  dsimp only
  split
  · exact sound.unnoticed same
  · next receipt node accepted =>
    obtain ⟨-, delivered⟩ := NodeTelemetry.recordTelemetrySequenced_ok accepted
    obtain rfl : receipt = (counted.deliver sample).1 := congrArg Prod.fst delivered
    obtain rfl : node = (counted.deliver sample).2 := congrArg Prod.snd delivered
    have offered : (counted.deliver sample).2.receiver delivery.bootID =
        (delivery.node.receiver delivery.bootID).offer request.sequence := by
      rw [← same, ← own, ← number]
      exact counted.deliver_offer sample
    have handed : ({ delivery with node := (counted.deliver sample).2 } : Delivery).handed =
        ((delivery.node.receiver delivery.bootID).offer request.sequence).handed := congrArg HighWater.handed offered
    refine sound.receive ⟨rfl, rfl, rfl, rfl, rfl, rfl, rfl⟩ ⟨?_, ?_, ?_⟩ ?_
    · exact offered ▸ sound.receives.sound.offer request.sequence
    · intro sequence member
      rcases HighWater.mem_offer (handed ▸ member : sequence ∈ _) with latest | earlier
      · exact ⟨request, sent, latest.symm⟩
      · exact sound.receives.handed sequence earlier
    · intro headers member
      rcases mem_append.mp member with earlier | last
      · obtain ⟨sequence, known, above⟩ := sound.receives.acknowledged headers earlier
        exact ⟨sequence, handed ▸ HighWater.mem_offer_of_mem known, above⟩
      · rw [mem_singleton.mp last]
        obtain ⟨sequence, known, above⟩ := sound.receives.sound.exists_handed request.sequence
        refine ⟨sequence, handed ▸ known, ?_⟩
        rw [deliver_acknowledged, number]
        exact above
    · exact fun sequence known => handed ▸ HighWater.mem_offer_of_mem known

theorem other_sound {call : TelemetryCall} (foreign : NodeTelemetry.Foreign delivery.bootID call)
    (kept : delivery.bootID ∈ delivery.node.sequenceCursors →
      delivery.bootID ∈ (delivery.node.step call).sequenceCursors) :
    ({ delivery with node := delivery.node.step call } : Delivery).Sound := by
  exact sound.unnoticed (delivery.node.step_receiver foreign kept)

end

/-- The uploader waits for the reply to the front. -/
def Posted (delivery : Delivery) (front : TelemetrySample) : Prop :=
  ∃ sample, delivery.uploader = .posting sample ∧ front.bootID = sample.bootID ∧ front.sequence = sample.sequence

/-- What takes the front of the queue away: a success for it, a permanent rejection (of the controller, or of the
client before it posts), or one collection too many. -/
inductive Leaves (delivery : Delivery) (front : TelemetrySample) : DeliveryEvent → Departure → Prop where
  | acknowledged {reply : PostReply} {headers : Acknowledgement} (posted : delivery.Posted front)
      (response : delivery.response reply = .acknowledged headers) (boot : headers.bootID = front.bootID)
      (number : headers.sequence = front.sequence) : Leaves delivery front (.respond reply) .acknowledged
  | accepted {reply : PostReply} (posted : delivery.Posted front) (response : delivery.response reply = .accepted) :
      Leaves delivery front (.respond reply) .accepted
  | refused {reply : PostReply} {status : Nat} (posted : delivery.Posted front)
      (response : delivery.response reply = .refused status)
      (permanent : 400 ≤ status ∧ status < 500 ∧ status ≠ 408 ∧ status ≠ 429) :
      Leaves delivery front (.respond reply) .rejected
  | unpostable {sample : TelemetrySample} (same : front.bootID = sample.bootID ∧ front.sequence = sample.sequence)
      (incomplete : sample.postable = false) : Leaves delivery front .post .rejected
  | overflowed {conditions : List Condition} {metrics : Metrics} {limits : Metrics → Option Metrics}
      {sampledAt : Moment} {interval : Int} (full : delivery.pending.length = telemetryReplayCapacity) :
      Leaves delivery front (.collect conditions metrics limits sampledAt interval) .overflowed

/-- An event leaves the queue's losses as they are, or adds the front to them, for a reason. -/
def Departs (delivery : Delivery) (event : DeliveryEvent) (after : Delivery) : Prop :=
  after.departed = delivery.departed ∨
    ∃ front departure, delivery.pending.head? = some front ∧ delivery.Leaves front event departure ∧
      after.departed = delivery.departed ++ [(front, departure)]

theorem settle_departs {departure : Departure}
    (leaves : ∀ front, front.bootID = sample.bootID ∧ front.sequence = sample.sequence →
      delivery.Leaves front event departure) :
    delivery.Departs event (delivery.settle sample departure) := by
  unfold settle
  rcases removeFront_cases delivery.pending sample with kept | ⟨front, rest, parts, same, removed⟩
  · rw [kept]
    exact .inl rfl
  · rw [removed]
    exact .inr ⟨front, departure, by rw [parts]; rfl, leaves front same, by simp [parts]⟩

theorem collect_departs (conditions : List Condition) (metrics : Metrics) (limits : Metrics → Option Metrics)
    (sampledAt : Moment) (interval : Int) :
    delivery.Departs (.collect conditions metrics limits sampledAt interval)
      (delivery.collect conditions metrics limits sampledAt interval) := by
  unfold collect enqueue
  dsimp only
  generalize (if delivery.probeSamples then metrics else withoutProbeSamples metrics) = offered
  split
  · exact .inl rfl
  · split
    · exact .inl rfl
    · by_cases full : delivery.pending.length = telemetryReplayCapacity
      · obtain ⟨front, rest, parts⟩ : ∃ front rest, delivery.pending = front :: rest :=
          exists_cons_of_length_pos (full ▸ by decide)
        simp only [if_pos full, if_true]
        exact .inr ⟨front, .overflowed, by rw [parts]; rfl, .overflowed full, by rw [parts]; rfl⟩
      · simp only [if_neg full]
        exact .inl rfl

theorem conclude_departs (posting : delivery.uploader = .posting sample) (reply : PostReply) :
    delivery.Departs (.respond reply) (delivery.conclude sample (readResponse sample (delivery.response reply))) := by
  cases read : readResponse sample (delivery.response reply) with
  | error reason =>
    cases reason with
    | retryable => exact .inl rfl
    | permanent =>
      refine settle_departs fun front same => ?_
      unfold readResponse at read
      split at read
      · cases read
      · next status refused =>
        split at read
        · next permanent => exact .refused ⟨sample, posting, same⟩ refused permanent
        · cases read
      · cases read
      · split at read
        · cases read
        · split at read <;> cases read
  | ok receipt =>
    unfold conclude
    dsimp only
    split
    · change delivery.Departs _ (delivery.settle sample _)
      refine settle_departs fun front same => ?_
      obtain ⟨accepted, unreliable⟩ | ⟨headers, acknowledged, boot, number, reliable⟩ := readResponse_ok read
      · rw [unreliable]
        exact .accepted ⟨sample, posting, same⟩ accepted
      · rw [reliable]
        exact .acknowledged ⟨sample, posting, same⟩ acknowledged (boot.trans same.1.symm) (number.trans same.2.symm)
    · exact .inl rfl

theorem send_departs (delivery : Delivery) (sample : TelemetrySample) :
    delivery.Departs .post (delivery.send sample) := by
  unfold send
  split
  · exact .inl rfl
  · next incomplete => exact settle_departs fun front same => .unpostable same (Bool.eq_false_iff.mpr incomplete)

theorem step_departs (delivery : Delivery) (event : DeliveryEvent) :
    delivery.Departs event (delivery.step event) := by
  cases event with
  | collect conditions metrics limits sampledAt interval => exact collect_departs ..
  | post =>
    simp only [step]
    split
    · split
      · exact .inl rfl
      · exact send_departs ..
    · exact send_departs ..
    · exact .inl rfl
    · exact .inl rfl
  | respond reply =>
    cases state : delivery.uploader with
    | posting sample =>
      simp only [step, state]
      exact conclude_departs state reply
    | idle | waiting _ | stopped =>
      simp only [step, state]
      exact .inl rfl
  | changed | finish =>
    refine .inl ?_
    simp only [step]
    repeat' split
    all_goals rfl
  | handle index lookup agentVersion receivedAt =>
    refine .inl ?_
    simp only [step, handle]
    split
    · rfl
    · split <;> rfl
  | other call =>
    refine .inl ?_
    simp only [step]
    split <;> rfl

def Retained (delivery : Delivery) (event : DeliveryEvent) : Prop :=
  delivery.bootID ∈ delivery.node.sequenceCursors → delivery.bootID ∈ (delivery.step event).node.sequenceCursors

theorem step_sound (sound : delivery.Sound) (retained : delivery.Retained event) :
    (delivery.step event).Sound := by
  have settled (uploader : Uploader) (idle : uploader.sample = none) : ({ delivery with uploader } : Delivery).Sound := by
    refine sound.upload (fun sample holds => ?_) delivery.probeSamples
    exact nomatch idle.symm.trans holds
  cases event with
  | collect conditions metrics limits sampledAt interval =>
    exact collect_sound sound conditions metrics limits sampledAt interval
  | post =>
    cases state : delivery.uploader with
    | idle =>
      cases queue : delivery.pending with
      | nil =>
        simp only [step, state, queue]
        exact sound
      | cons front rest =>
        simp only [step, state, queue]
        have first : front ∈ delivery.pending := queue ▸ mem_cons_self
        refine send_sound sound ⟨sound.sends.pending front first, sound.sends.queued.below front first, ?_⟩
        have ascending := sound.sends.queued.ascending
        rw [queue] at ascending ⊢
        intro other member
        rcases mem_cons.mp member with same | later
        · rw [same]
        · exact ((pairwise_cons.mp ascending).1 other later).le
    | waiting sample =>
      simp only [step, state]
      exact send_sound sound (sound.sends.uploader sample (state ▸ rfl))
    | posting sample =>
      simp only [step, state]
      exact sound
    | stopped =>
      simp only [step, state]
      exact sound
  | respond reply =>
    cases state : delivery.uploader with
    | posting sample =>
      simp only [step, state]
      refine conclude_sound sound (sound.sends.uploader sample (state ▸ rfl)) fun headers underway => ?_
      unfold response at underway
      split at underway
      · split at underway
        · next found =>
          obtain rfl := TelemetryResponse.acknowledged.inj underway
          exact mem_of_getElem? found
        · cases underway
      · cases underway
      · cases underway
      · cases underway
    | idle | waiting _ | stopped =>
      simp only [step, state]
      exact sound
  | changed =>
    cases state : delivery.uploader with
    | waiting sample =>
      simp only [step, state]
      split
      · exact sound
      · exact settled .idle rfl
    | idle | posting _ | stopped =>
      simp only [step, state]
      exact sound
  | finish =>
    cases state : delivery.uploader with
    | idle =>
      simp only [step, state]
      split
      · exact settled .stopped rfl
      · exact sound
    | waiting sample =>
      simp only [step, state]
      exact settled .stopped rfl
    | posting _ | stopped =>
      simp only [step, state]
      exact sound
  | handle index lookup agentVersion receivedAt =>
    simp only [step]
    split
    · exact sound
    · next found => exact handle_sound sound (mem_of_getElem? found) lookup agentVersion receivedAt
  | other call =>
    unfold Retained at retained
    simp only [step] at retained ⊢
    split
    · next foreign =>
      rw [if_pos foreign] at retained
      exact other_sound sound foreign retained
    · exact sound

def Retains : Delivery → List DeliveryEvent → Prop
  | _, [] => True
  | delivery, event :: rest => delivery.Retained event ∧ (delivery.step event).Retains rest

theorem after_sound (sound : delivery.Sound) {events : List DeliveryEvent} (retains : delivery.Retains events) :
    (delivery.after events).Sound := by
  induction events generalizing delivery with
  | nil => exact sound
  | cons event rest ih => exact ih (step_sound sound retains.1) retains.2

theorem start_sound (bootID : String) : ({ bootID } : Delivery).Sound := by
  have receiver : ({} : NodeTelemetry).receiver bootID = {} := rfl
  refine ⟨⟨⟨.nil, Nat.zero_le _, ?_⟩, ?_, ?_, nofun⟩, ⟨?_, ?_, ?_⟩, rfl, ?_⟩
  · exact nofun
  · exact nofun
  · exact nofun
  · exact receiver ▸ HighWater.Sound.start
  · exact nofun
  · exact nofun
  · exact nofun

end Delivery

/-- In every run of one boot against a controller that keeps its cursor, over a network that loses and delays:
a sample that left the queue by an acknowledgement was handed to the history exactly once, and none was twice;
every collected sample is in the queue or left it, in order, and it left as the front, by a success, a permanent
rejection or the overflow of a full queue; and the queue holds no more than its capacity, in ascending order. -/
theorem delivered_exactly_once (bootID : String) (events : List DeliveryEvent)
    (retains : ({ bootID } : Delivery).Retains events) :
    let final := ({ bootID } : Delivery).after events
    (∀ sample, (sample, Departure.acknowledged) ∈ final.departed → final.handed.count sample.sequence = 1) ∧
    (∀ sequence, final.handed.count sequence ≤ 1) ∧
    final.collected = final.departed.map (·.1) ++ final.pending ∧
    (∀ earlier event later, events = earlier ++ event :: later →
      let before := ({ bootID } : Delivery).after earlier
      before.Departs event (before.step event)) ∧
    final.pending.length ≤ telemetryReplayCapacity ∧
    final.pending.Pairwise (·.sequence < ·.sequence) := by
  intro final
  have sound : final.Sound := Delivery.after_sound (Delivery.start_sound bootID) retains
  have once : final.handed.Nodup := sound.receives.sound.nodup
  refine ⟨fun sample left => ?_, nodup_iff_count_le_one.mp once, sound.accounts.collected,
    fun _ _ _ _ => Delivery.step_departs _ _, sound.sends.queued.capacity, sound.sends.queued.ascending⟩
  exact count_eq_one_of_mem once (sound.accounts.acknowledged sample left)

/-- The first acknowledgement of a sample is lost, and the second one is for a duplicate. -/
def sampleDelivery : List DeliveryEvent :=
  [.collect [] ((∅ : Metrics).insert "resource" [1]) some 1000 0, .post, .handle 0 .found "" 2000, .respond .lost, .post,
    .handle 1 .found "" 3000, .respond (.acknowledgement 1)]

theorem sampleDelivery_once :
    (({ bootID := "b" } : Delivery).after sampleDelivery).departed.map (fun left => (left.1.sequence, left.2)) =
        [(1, .acknowledged)] ∧
      (({ bootID := "b" } : Delivery).after sampleDelivery).handed = [1] ∧
      ∀ sequence, (({ bootID := "b" } : Delivery).after sampleDelivery).handed.count sequence ≤ 1 := by
  refine ⟨by decide +kernel, by decide +kernel, (delivered_exactly_once "b" sampleDelivery ?_).2.1⟩
  refine ⟨?_, ?_, ?_, ?_, ?_, ?_, ?_, trivial⟩ <;> unfold Delivery.Retained <;> decide +kernel

end Yaog.Agent
