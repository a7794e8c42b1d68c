import NatsDemo.Go.Time
import NatsDemo.Lib.Sort
import NatsDemo.Messaging.Message

/-!
# The activity log

The tracker that keeps the latest lifecycle events for the dashboard, and the subscription
to `jobs.>` that feeds it.  The clock is read in the time zone of the service, so `zone`
tells what the clock on the wall shows.

`recorded` is for statements: the instant at which an activity was recorded.
-/

namespace NatsDemo.Control
open Go Messaging

structure Activity where
  timestamp : String
  jobID : String
  event : String
  subject : String
  worker : String
  deliveryCount : ℤ
  deliveryMode : String
  sequence : ℤ
  msgID : String
  jobType : String
  category : String
  action : String
  recorded : Time

structure Tracker where
  activities : List Activity := []
  jobTypes : GoMap String := []

/-! ## Labels -/

def businessStatuses : List String :=
  ["PUBLISHED", "SCHEDULED", "REPROCESSED", "REQUEST_SENT", "REPLY_RECEIVED", "SAGA_TRIGGERED",
   "SAGA_STARTED", "OP1_RESERVE", "OP2_PAYMENT", "OP1_COMPLETED", "OP1_FAILED", "OP2_COMPLETED",
   "OP2_FAILED", "OP1_COMPENSATING", "OP1_COMPENSATED", "SAGA_COMPLETED", "SAGA_FAILED"]

def lifecycleStatuses : List String :=
  ["STORED", "DEDUPLICATED", "RECEIVED", "DELIVERED", "PROCESSING", "COMPLETED", "FAILED", "ACKED",
   "NO CONSUMER", "NAK_WITH_DELAY", "ACK_TIMEOUT_SIMULATED", "DLQ_PUBLISHED", "REPLAYED",
   "REQUEST_RECEIVED", "REPLY_SENT", "SAGA_STEP", "SAGA_COMPENSATING"]

def determineCategory (subject status : String) : String :=
  if status ∈ businessStatuses then "BUSINESS"
  else if status ∈ lifecycleStatuses then "LIFECYCLE"
  else if subject = "jobs.submitted" ∨ subject = "jobs.queue" ∨ subject = "jobs.validate" then
    "BUSINESS"
  else "LIFECYCLE"

/-- The actions of the statuses for which the subject does not matter. -/
def actions : List (String × String) :=
  [("PUBLISHED", "Published by Client"),
   ("SCHEDULED", "Scheduled for Publishing"),
   ("REPROCESSED", "Reprocessed from DLQ"),
   ("STORED", "JetStream Stream Ingestion"),
   ("DEDUPLICATED", "JetStream Deduplication Discard"),
   ("DELIVERED", "Worker Pull / Delivery"),
   ("RECEIVED", "Message Received by Worker"),
   ("PROCESSING", "Worker Task Processing"),
   ("COMPLETED", "Task Completed"),
   ("FAILED", "Task Failed"),
   ("ACKED", "Message Acknowledged (msg.Ack())"),
   ("NAK_WITH_DELAY", "Retry Delay Requested (msg.NakWithDelay())"),
   ("ACK_TIMEOUT_SIMULATED", "AckWait Missing ACK Timeout"),
   ("DLQ_PUBLISHED", "Poison Pill Routed to DLQ"),
   ("REPLAYED", "Ephemeral Stream Replay"),
   ("NO CONSUMER", "No Active Consumer"),
   ("REQUEST_SENT", "Sync Request Sent"),
   ("REQUEST_RECEIVED", "Request Received by Worker"),
   ("REPLY_SENT", "Sync Reply Dispatched"),
   ("REPLY_RECEIVED", "Sync Reply Received"),
   ("SAGA_TRIGGERED", "Saga Workflow Triggered"),
   ("SAGA_STARTED", "Saga Workflow Triggered"),
   ("OP1_RESERVE", "Op1: Inventory Reserved"),
   ("OP1_COMPLETED", "Op1: Reservation Confirmed"),
   ("OP1_FAILED", "Op1: Reservation Failed"),
   ("OP2_PAYMENT", "Op2: Payment Charged"),
   ("OP2_COMPLETED", "Op2: Payment Settled"),
   ("OP2_FAILED", "Op2: Payment Declined"),
   ("OP1_COMPENSATING", "Op1: Compensating Release"),
   ("OP1_COMPENSATED", "Op1: Compensation Finished"),
   ("SAGA_COMPLETED", "Saga Transaction Succeeded"),
   ("SAGA_FAILED", "Saga Transaction Aborted")]

def determineAction (subject status : String) : String :=
  if status = "PUBLISHED" ∧ subject = "jobs.queue" then "Published to Queue Group"
  else if status = "RECEIVED" ∧ (subject = "jobs.queue" ∨ subject = "jobs.queue.received") then
    "Queue Group Worker Received"
  else if status = "COMPLETED" ∧ (subject = "jobs.queue" ∨ subject = "jobs.queue.completed") then
    "Queue Group Task Completed"
  else (actions.lookup status).getD status

/-- The statuses of each weight, from 1 on. -/
def statusesByWeight : List (List String) :=
  [["SCHEDULED", "PUBLISHED", "STORED", "REQUEST_SENT", "DEDUPLICATED", "REPROCESSED",
    "SAGA_STARTED", "SAGA_TRIGGERED", "OP1_RESERVE", "OP2_PAYMENT"],
   ["RECEIVED", "DELIVERED", "REQUEST_RECEIVED", "REDELIVERED", "SAGA_STEP", "SAGA_COMPENSATING",
    "OP1_COMPLETED", "OP1_FAILED", "OP2_COMPLETED", "OP2_FAILED", "OP1_COMPENSATING",
    "OP1_COMPENSATED"],
   ["PROCESSING", "REPLY_SENT", "NAK_WITH_DELAY", "ACK_TIMEOUT_SIMULATED"],
   ["COMPLETED", "FAILED", "ACKED", "NO CONSUMER", "REPLY_RECEIVED", "REQUEST_TIMEOUT", "REPLAYED",
    "DLQ_PUBLISHED", "SAGA_COMPLETED", "SAGA_COMPENSATED", "SAGA_FAILED"]]

/-- `getStatusWeight`; a status in no list weighs nothing. -/
def getStatusWeight (status : String) : ℕ :=
  match statusesByWeight.findIdx? fun statuses => decide (status ∈ statuses) with
  | some i => i + 1
  | none => 0

/-! ## Recording -/

/-- What `AddEvent` is told. -/
structure Event where
  jobID : String
  status : String
  deliveryCount : ℤ := 1
  subject : String
  worker : String := ""
  deliveryMode : String := ""
  sequence : ℤ := 0
  msgID : String := ""
  jobType : String := ""

namespace Tracker

/-- The type an event is listed with: its own, or the last one known of its job. -/
def jobTypeOf (t : Tracker) (e : Event) : String :=
  if e.jobType = "" then (t.jobTypes.get? e.jobID).getD "" else e.jobType

def activityOf (t : Tracker) (zone : Time → Time) (e : Event) (now : Time) : Activity where
  timestamp := Time.formatClock (zone now)
  jobID := e.jobID
  event := e.status
  subject := e.subject
  worker := e.worker
  deliveryCount := e.deliveryCount
  deliveryMode := e.deliveryMode
  sequence := e.sequence
  msgID := e.msgID
  jobType := t.jobTypeOf e
  category := determineCategory e.subject e.status
  action := determineAction e.subject e.status
  recorded := now

/-- `AddEvent`. -/
def addEvent (t : Tracker) (zone : Time → Time) (e : Event) (now : Time) : Tracker where
  activities := (t.activityOf zone e now :: t.activities).take 200
  jobTypes := if e.jobType = "" then t.jobTypes else t.jobTypes.set e.jobID e.jobType

/-- `ClearActivities`. -/
def clearActivities (_ : Tracker) : Tracker := {}

end Tracker

/-! ## Listing -/

/-- The comparison that the listing sorts by. -/
def Activity.before (a b : Activity) : Prop :=
  if a.timestamp ≠ b.timestamp then b.timestamp < a.timestamp
  else if a.jobID ≠ b.jobID then a.jobID < b.jobID
  else getStatusWeight b.event < getStatusWeight a.event

instance : DecidableRel Activity.before :=
  fun a b => inferInstanceAs (Decidable (if a.timestamp ≠ b.timestamp then _ else _))

/-- `GetActivities`: a stable sort moves an activity ahead of another only if it comes before
it. -/
def Tracker.getActivities (t : Tracker) : List Activity :=
  t.activities.mergeSort fun a b => !decide (b.before a)

/-! ## Lifecycle events -/

/-- The fields that `ProcessLifecycleEvent` reads. -/
structure LifecyclePayload where
  jobID : String := ""
  type : String := ""
  status : String := ""
  deliveryCount : ℤ := 0
  error : String := ""
  deliveryMode : String := ""
  sequence : ℤ := 0
  msgID : String := ""

def LifecyclePayload.fields : List (String × FieldDecoder LifecyclePayload) :=
  [("job_id", stringField fun p x => { p with jobID := x }),
   ("type", stringField fun p x => { p with type := x }),
   ("status", stringField fun p x => { p with status := x }),
   ("delivery_count", intField minInt maxInt fun p n => { p with deliveryCount := n }),
   ("error", stringField fun p x => { p with error := x }),
   ("delivery_mode", stringField fun p x => { p with deliveryMode := x }),
   ("sequence", intField 0 (2 ^ 64 - 1) fun p n => { p with sequence := n }),
   ("msg_id", stringField fun p x => { p with msgID := x })]

/-- The statuses that the subjects of the jobs stand for. -/
def jobStatuses : List (String × String) :=
  [("jobs.scheduled", "SCHEDULED"), ("jobs.nak.delayed", "NAK_WITH_DELAY"),
   ("jobs.ack.timeout", "ACK_TIMEOUT_SIMULATED"), ("jobs.submitted", "PUBLISHED"),
   ("jobs.stored", "STORED"), ("jobs.deduplicated", "DEDUPLICATED"), ("jobs.received", "RECEIVED"),
   ("jobs.delivered", "DELIVERED"), ("jobs.completed", "COMPLETED"),
   ("jobs.processing.completed", "COMPLETED"), ("jobs.failed", "FAILED"),
   ("jobs.processing.failed", "FAILED"), ("jobs.acked", "ACKED"),
   ("jobs.noconsumer", "NO CONSUMER"),
   ("jobs.processing.started", "PROCESSING"), ("jobs.processing", "PROCESSING"),
   ("jobs.request.received", "REQUEST_RECEIVED"), ("jobs.reply.sent", "REPLY_SENT"),
   ("jobs.replayed", "REPLAYED"), ("jobs.dlq.published", "DLQ_PUBLISHED"),
   ("jobs.reprocessed", "REPROCESSED"), ("jobs.dlq.reprocessed", "REPROCESSED"),
   ("jobs.queue", "PUBLISHED"), ("jobs.queue.received", "RECEIVED"),
   ("jobs.queue.completed", "COMPLETED")]

/-- Those of the sagas, whose events have a delivery mode of their own. -/
def sagaStatuses : List (String × String) :=
  [("saga.job.started", "SAGA_STARTED"), ("saga.job.step.completed", "SAGA_STEP"),
   ("saga.job.compensation.started", "SAGA_COMPENSATING"),
   ("saga.job.compensation.completed", "SAGA_COMPENSATED"),
   ("saga.job.completed", "SAGA_COMPLETED"),
   ("saga.job.failed", "SAGA_FAILED"), ("saga.start", "SAGA_TRIGGERED"),
   ("saga.op1.reserve", "OP1_RESERVE"), ("saga.op1.completed", "OP1_COMPLETED"),
   ("saga.op1.failed", "OP1_FAILED"), ("saga.op2.payment", "OP2_PAYMENT"),
   ("saga.op2.completed", "OP2_COMPLETED"), ("saga.op2.failed", "OP2_FAILED"),
   ("saga.op1.compensate", "OP1_COMPENSATING"), ("saga.op1.compensated", "OP1_COMPENSATED"),
   ("saga.completed", "SAGA_COMPLETED"), ("saga.failed", "SAGA_FAILED")]

/-- The subjects that are listed under another one. -/
def listedSubjects : List (String × String) :=
  [("jobs.reprocessed", "jobs.submitted"), ("jobs.dlq.reprocessed", "jobs.submitted"),
   ("jobs.queue.received", "jobs.queue"), ("jobs.queue.completed", "jobs.queue")]

/-- The event that is recorded for a payload. -/
def lifecycleEvent (subject source msgID : String) (payload : LifecyclePayload) : Event :=
  let msgID := if msgID = "" ∧ payload.msgID ≠ "" then payload.msgID else msgID
  let msgID := if msgID = "" then payload.jobID else msgID
  let saga := sagaStatuses.lookup subject
  let status := ((jobStatuses.lookup subject).orElse fun _ => saga).getD payload.status
  let mode := if saga.isSome then "SAGA" else payload.deliveryMode
  let subject := (listedSubjects.lookup subject).getD subject
  { jobID := payload.jobID
    status := status
    deliveryCount := if payload.deliveryCount ≤ 0 then 1 else payload.deliveryCount
    subject := subject
    worker :=
      if source ≠ "" then source
      else if subject = "jobs.submitted" then "job-service"
      else if subject.startsWith "saga." then "saga-orchestrator" else ""
    deliveryMode :=
      if mode ≠ "" then mode
      else if subject = "jobs.queue" ∨ subject = "jobs.queue.received" ∨
        subject = "jobs.queue.completed" then "CORE"
      else if subject = "jobs.submitted" then "JETSTREAM" else ""
    sequence := payload.sequence
    msgID := msgID
    jobType := payload.type }

namespace Tracker

/-- `ProcessLifecycleEvent`; `why` is the text of the decoder's error.  Requests for
validation and raw dead letters are no events, and nothing is recorded of them. -/
def processLifecycleEvent (t : Tracker) (zone : Time → Time) (why subject : String)
    (data : Option Json) (source msgID : String) (now : Time) : Except String Tracker :=
  let r := Go.unmarshal LifecyclePayload.fields {} data
  if !r.2 then .error ("failed to unmarshal lifecycle event payload: " ++ why)
  else if r.1.jobID = "" then .error "lifecycle event payload missing job_id"
  else if subject = "jobs.validate" ∨ subject = "jobs.dlq" then .ok t
  else .ok (t.addEvent zone (lifecycleEvent subject source msgID r.1) now)

/-- What the subscription to `jobs.>` asks of the tracker for a message. -/
def tap (t : Tracker) (zone : Time → Time) (why : String) (m : Msg) (now : Time) :
    Except String Tracker :=
  if m.subject = "jobs.validate" then .ok t
  else
    let header := m.header.get "Nats-Msg-Id"
    let msgID := if header = "" then m.header.get "X-Message-Id" else header
    t.processLifecycleEvent zone why m.subject m.data (m.header.get "X-Source") msgID now

/-- The callback of that subscription, which logs an error and goes on. -/
def onMessage (t : Tracker) (zone : Time → Time) (why : String) (m : Msg) (now : Time) : Tracker :=
  match t.tap zone why m now with
  | .ok t' => t'
  | .error _ => t

end Tracker

end NatsDemo.Control
