import NatsDemo.Processor.Ops

/-!
# The JetStream workers

`handleJetStreamMsg` is cut at its branches: each scenario, the routing to the dead
letter queue, the retry and the completion is a definition of its own, over the data all
of them share.  The result `true` tells the pull loop to end.

One iteration of `jsPullLoop` is a program that ends by starting the next one.
-/

namespace NatsDemo.Processor
open Lib Go Jobs Messaging

/-- A message that was parsed and not discarded, in the hands of a worker. -/
structure Handling where
  d : Delivery
  worker : String
  job : Job
  deliveryMode : String

namespace Handling

def sequence (h : Handling) : ℕ := h.d.metadata.elim 0 Metadata.stream

/-- Without metadata a delivery counts as the first. -/
def attemptCount (h : Handling) : ℕ := h.d.metadata.elim 1 Metadata.numDelivered

def recordWorkerEvent (h : Handling) (tag tagColor details : String) : Prog Unit :=
  op (.recordWorkerEvent h.job.jobID h.job.type tag tagColor details h.attemptCount
    h.deliveryMode)

/-- Acknowledge, unless the consumer wants no acknowledgements. -/
def ackIfWanted (h : Handling) : Prog Unit := do
  let policy ← op .readAckPolicy
  if policy ≠ "none" then
    let _ ← op (.ack h.d.seq)

/-- A scenario that is to fire once is written back by the branch that it leads to. -/
def resetIfOnce (once : Bool) (b : Branch) : Prog Unit :=
  if once then op (.resetScenario b) else pure ()

/-- The payload's overrides of the scenario, the later ones over the earlier. -/
def overrideScenario (p : Payload) (currentScenario : String) : String :=
  let s := if p.text "scenario" = "" then currentScenario else p.text "scenario"
  let s := if p.flag "simulate_crash" then "crash_before_ack" else s
  let s := if p.flag "simulate_no_ack" then "crash_before_ack" else s
  let s := if p.flag "simulate_nak" then "nak_message" else s
  let s := if p.flag "simulate_term" then "term_message" else s
  if p.flag "simulate_out_of_order" then "out_of_order_ack" else s

/-- The branch a scenario leads to, if any; all but the last want a first delivery. -/
def branchOf (scenario : String) (attemptCount : ℕ) : Option Branch :=
  if scenario = "crash_before_ack" ∧ attemptCount = 1 then some .crash
  else if scenario = "exceed_ack_wait" ∧ attemptCount = 1 then some .exceed
  else if scenario = "nak_message" ∧ attemptCount = 1 then some .nak
  else if scenario = "term_message" then some .term
  else none

/-! ## The scenarios -/

/-- Scenario 1: the worker goroutine crashes before the ACK. -/
def crashBeforeAck (h : Handling) (once : Bool) : Prog Bool := do
  resetIfOnce once .crash
  op (.crashGoroutine h.worker)
  h.recordWorkerEvent "[GOROUTINE CRASH]" "#EF4444"
    s!"Worker goroutine {h.worker} panicked before sending ACK. JetStream AckWait (5s) ticking..."
  let _ ← fork (.supervise ⟨h.worker, h.job.jobID, h.job.type, h.deliveryMode, h.attemptCount⟩)
  return true

/-- Scenario 2: processing exceeds the AckWait. -/
def exceedAckWait (h : Handling) (once : Bool) : Prog Bool := do
  resetIfOnce once .exceed
  h.recordWorkerEvent "[SLOW PROCESSING]" "#F59E0B"
    s!"Worker {h.worker} executing slow transaction (7s duration, exceeds 5s AckWait threshold)..."
  h.ackIfWanted
  h.recordWorkerEvent "[COMPLETED]" "#34D399" "Slow execution finished after 7s"
  h.recordWorkerEvent "[LATE ACK SENT]" "#10B981" "Sent late msg.Ack() after 7s delay"
  return false

/-- Scenario 4: the worker NAKs the message. -/
def nakMessage (h : Handling) (once : Bool) : Prog Bool := do
  resetIfOnce once .nak
  h.recordWorkerEvent "[NAK SENT]" "#F87171"
    "Explicit msg.Nak() sent. Broker redelivery incoming."
  let _ ← op (.nak h.d.seq)
  return false

/-- Scenario 5: the worker terminates the message. -/
def termMessage (h : Handling) (once : Bool) : Prog Bool := do
  resetIfOnce once .term
  h.recordWorkerEvent "[TERM SENT]" "#EF4444"
    "Explicit msg.Term() sent. Message permanently terminated without redelivery."
  let _ ← op (.term h.d.seq)
  return false

/-- The code of a branch; the batch branch belongs to the pull loop. -/
def runBranch (h : Handling) (once : Bool) : Branch → Prog Bool
  | .crash => h.crashBeforeAck once
  | .exceed => h.exceedAckWait once
  | .nak => h.nakMessage once
  | .term => h.termMessage once
  | .batch => return false

/-! ## Success and failure -/

/-- The failure simulation fires on every attempt, or on the first ones. -/
def failureFires (arch : Platform) (p : Payload) (attemptCount : ℕ) : Prop :=
  let count := (p.int arch "simulate_failure_count").getD 0
  p.flag "simulate_failure" = true ∧ (count = 0 ∨ (attemptCount : ℤ) ≤ count)

instance (arch : Platform) (p : Payload) (n : ℕ) : Decidable (failureFires arch p n) :=
  inferInstanceAs (Decidable (_ ∧ (_ ∨ _)))

def maxDeliveryAttempts (arch : Platform) (p : Payload) : ℤ :=
  p.positive arch "max_delivery_attempts" 3

def nakDelaySec (arch : Platform) (p : Payload) : ℤ := p.positive arch "nak_delay_seconds" 0

/-- The last attempt that the job allows has failed. -/
def exhausted (arch : Platform) (h : Handling) : Prop :=
  failureFires arch h.job.payload h.attemptCount ∧
    maxDeliveryAttempts arch h.job.payload ≤ h.attemptCount

instance (arch : Platform) (h : Handling) : Decidable (h.exhausted arch) :=
  inferInstanceAs (Decidable (_ ∧ _))

def dlqReason (arch : Platform) (h : Handling) : String :=
  s!"Exhausted maximum delivery attempts ({h.attemptCount} of " ++
    s!"{maxDeliveryAttempts arch h.job.payload})"

/-- The identifier of a dead letter. -/
def dlqMsgId (jobID : String) (attemptCount : ℕ) : String := s!"dlq-{jobID}-{attemptCount}"

/-- The entry for the dead letter queue; the keys of a map are written in order. -/
def dlqMsg (arch : Platform) (h : Handling) (now : Time) : Msg where
  subject := subjectJobDLQ
  header := ((Header.set [] "X-Delivery-Attempts" s!"{h.attemptCount}").set
    "X-Original-Subject" subjectJobSubmitted).set "Nats-Msg-Id"
      (dlqMsgId h.job.jobID h.attemptCount)
  data := some (.obj
    [("delivery_attempts", .int h.attemptCount), ("failure_reason", .str (h.dlqReason arch)),
     ("job_id", .str h.job.jobID), ("original_subject", .str subjectJobSubmitted),
     ("payload", marshalMap h.job.payload), ("timestamp", .str (Time.formatRFC3339 now)),
     ("type", .str h.job.type), ("worker", .str h.worker)])

/-- Route the message to the dead letter queue and acknowledge it. -/
def routeToDLQ (arch : Platform) (h : Handling) : Prog Bool := do
  let now ← op .now
  -- a failed publish is logged, and nothing else comes of it
  let _ ← op (.publishDLQ h.d.seq (h.dlqMsg arch now))
  h.recordWorkerEvent "[DLQ ROUTED]" "#EC4899" (h.dlqReason arch)
  h.ackIfWanted
  return false

/-- The conversion of seconds to a `time.Duration`, on 64 bits. -/
def nakDelay (seconds : ℤ) : ℤ := Int.bmod (seconds * 1000000000) (2 ^ 64)

def retry (arch : Platform) (h : Handling) : Prog Bool := do
  let delay := nakDelaySec arch h.job.payload
  let errMsg := s!"Simulated failure attempt {h.attemptCount} of " ++
    s!"{maxDeliveryAttempts arch h.job.payload}"
  if 0 < delay then
    let _ ← op (.nakWithDelay h.d.seq (nakDelay delay))
    h.recordWorkerEvent "[NAK SENT]" "#F87171"
      s!"Explicit NAK sent with {delay}s delay ({errMsg})"
    return false
  else
    let _ ← op (.nak h.d.seq)
    h.recordWorkerEvent "[FAILED]" "#EF4444" errMsg
    return false

def complete (h : Handling) : Prog Bool := do
  h.recordWorkerEvent "[COMPLETED]" "#34D399" "Execution completed successfully"
  h.ackIfWanted
  h.recordWorkerEvent "[ACK SENT]" "#10B981" "Explicit msg.Ack() sent to JetStream"
  return false

/-- What becomes of a message that no scenario takes. -/
def evaluate (arch : Platform) (h : Handling) : Prog Bool :=
  if failureFires arch h.job.payload h.attemptCount then
    if maxDeliveryAttempts arch h.job.payload ≤ h.attemptCount then h.routeToDLQ arch
    else h.retry arch
  else h.complete

/-- The report of the pull. -/
def recordPull (h : Handling) : Prog Unit := do
  op (.recordWorkerPull h.worker)
  if 1 < h.attemptCount then
    h.recordWorkerEvent "[REDELIVERED]" "#FBBF24"
      s!"Redelivery #{h.attemptCount} from JOBS stream (Seq #{h.sequence})"
  else
    h.recordWorkerEvent "[PULLED]" "#60A5FA" s!"Fetched from JOBS stream (Seq #{h.sequence})"

/-- From the pull to the end of the handling. -/
def process (arch : Platform) (h : Handling) : Prog Bool := do
  h.recordPull
  h.recordWorkerEvent "[PROCESSING]" "#FBBF24" "Executing business logic"
  let r ← op .readScenario
  match branchOf (overrideScenario h.job.payload r.1) h.attemptCount with
  | some b => h.runBranch r.2 b
  | none => h.evaluate arch

end Handling

/-- The mode a pull worker takes a message to have. -/
def headerMode (m : Msg) : String :=
  if m.header.get "X-Delivery-Mode" = "" then "CORE" else m.header.get "X-Delivery-Mode"

/-- The handling of a delivery, unless it is discarded: its body must parse, and neither
its header nor its body may say CORE. -/
def Handling.ofDelivery (d : Delivery) (worker : String) : Option Handling :=
  match Job.parse d.msg.data with
  | none => none
  | some job =>
    if headerMode d.msg = "CORE" ∨ job.deliveryMode = "CORE" then none
    else some ⟨d, worker, job, headerMode d.msg⟩

/-- `handleJetStreamMsg`.  Both kinds of discarded messages are acknowledged. -/
def handleJetStreamMsg (arch : Platform) (d : Delivery) (workerName : String) : Prog Bool :=
  match Handling.ofDelivery d workerName with
  | none => do
    let _ ← op (.ack d.seq)
    return false
  | some h => h.process arch

/-- The supervisor of a crashed worker: respawn it, report, and start its loop. -/
def supervise (s : Supervision) : Prog Bool := do
  let ctx ← op (.respawn s.worker)
  op (.recordWorkerEvent s.jobID s.jobType "[SUPERVISOR RESPAWN]" "#8B5CF6"
    s!"Supervisor revived {s.worker} after AckWait expiry" s.attempt s.deliveryMode)
  let _ ← fork (.pull ctx s.worker)
  return false

/-! ## The out-of-order batch -/

/-- A message of the batch: as much of its job as decoded, and defaults of its own. -/
def Handling.ofBatch (d : Delivery) (worker : String) : Handling where
  d := d
  worker := worker
  job := (Job.unmarshal d.msg.data).1
  deliveryMode :=
    if d.msg.header.get "X-Delivery-Mode" = "" then "JETSTREAM"
    else d.msg.header.get "X-Delivery-Mode"

/-- In the batch a delivery count of zero counts as one as well. -/
def Handling.batchAttempts (h : Handling) : ℕ :=
  if h.attemptCount = 0 then 1 else h.attemptCount

def Handling.recordBatchEvent (h : Handling) (tag tagColor details : String) : Prog Unit :=
  op (.recordWorkerEvent h.job.jobID h.job.type tag tagColor details h.batchAttempts
    h.deliveryMode)

/-- Hold the second message, with heartbeats, and then acknowledge it. -/
def healGap (h : Hole) : Prog Bool := do
  let _ ← op (.inProgress h.d.seq)
  let _ ← op (.inProgress h.d.seq)
  let ok ← op (.ack h.d.seq)
  if ok then
    op (.recordWorkerEvent h.job.jobID h.job.type "[GAP HEALED]" "#34D399"
      s!"Msg 2 ACKed -> Gap healed! AckFloor cascades to Seq {h.seq3}" h.attempt h.deliveryMode)
  return false

/-- `handleOutOfOrderBatch`, for the three messages it is called with. -/
def handleOutOfOrderBatch (d1 d2 d3 : Delivery) (workerName : String) : Prog Unit := do
  let h1 := Handling.ofBatch d1 workerName
  let h2 := Handling.ofBatch d2 workerName
  let h3 := Handling.ofBatch d3 workerName
  h1.recordBatchEvent "[PROCESSING]" "#FBBF24" "Msg 1/3 in out-of-order batch"
  let ok1 ← op (.ack d1.seq)
  if ok1 then
    h1.recordBatchEvent "[ACK SENT]" "#10B981"
      s!"Msg 1 ACKed -> AckFloor advances to Seq {h1.sequence}"
  h2.recordBatchEvent "[HOLE CREATED]" "#F59E0B"
    s!"Msg 2 held pending (10s delay) -> sequence hole at Seq {h2.sequence}"
  let gap ← fork (.healGap ⟨d2, h2.job, h2.deliveryMode, h2.batchAttempts, h3.sequence⟩)
  let ok3 ← op (.ack d3.seq)
  if ok3 then
    h3.recordBatchEvent "[OUT-OF-ORDER ACK]" "#60A5FA"
      (s!"Msg 3 ACKed out-of-order! AckFloor stays pinned at Seq {h1.sequence} " ++
        s!"(hole at {h2.sequence})")
  let _ ← await gap

/-! ## The pull loop -/

/-- The loop goes round again. -/
def again (ctx : ℕ) (workerName : String) : Prog Bool := do
  let _ ← fork (.pull ctx workerName)
  return false

/-- Handle the messages of a fetch, one after the other; a crash ends the loop. -/
def handleAll (ctx : ℕ) (workerName : String) : List Delivery → Prog Bool
  | [] => again ctx workerName
  | d :: ds => do
    let t ← fork (.handle d workerName)
    let shouldTerminate ← await t
    if shouldTerminate then return true else handleAll ctx workerName ds

/-- The branch of the loop under the scenario `out_of_order_ack`. -/
def pullBatch (ctx : ℕ) (workerName : String) (once : Bool) : Prog Bool := do
  match ← op (.fetch 3) with
  | .batch [d1, d2, d3] =>
    handleOutOfOrderBatch d1 d2 d3 workerName
    Handling.resetIfOnce once .batch
    again ctx workerName
  | .batch ds => handleAll ctx workerName ds
  | _ => again ctx workerName

/-- The branch of the loop that fetches one message.  An error other than a timeout
binds the consumer anew. -/
def pullOne (ctx : ℕ) (workerName : String) : Prog Bool := do
  match ← op (.fetch 1) with
  | .batch ds => handleAll ctx workerName ds
  | .timeout => again ctx workerName
  | .error =>
    op .unbindConsumer
    op .subscribeJetStream
    again ctx workerName

/-- One iteration of `jsPullLoop`. -/
def jsPullLoop (ctx : ℕ) (workerName : String) : Prog Bool := do
  let done ← op (.ctxDone ctx)
  if done then return true
  else
    let flags ← op .loadFlags
    if flags.1 && flags.2 then
      let r ← op .readScenario
      if r.1 = "out_of_order_ack" then pullBatch ctx workerName r.2
      else pullOne ctx workerName
    else again ctx workerName

end NatsDemo.Processor
