import NatsDemo.Go.Time
import NatsDemo.Jobs.Model
import NatsDemo.Lib.Run

/-!
# The job service

The service that takes jobs and hands them to its publisher, with the records it keeps of
them.  A record is made by the first operation on a job, whichever it is, and later ones
add to it.  Memory is not bounded here, and what the publisher answers is up to its caller.

`sent` is for statements: what the publisher was handed and took, latest last.
-/

namespace NatsDemo.Jobs
open Go Lib

/-! ## The records -/

structure JobHistoryItem where
  status : String
  timestamp : Time

/-- `JobDetailResponse`, as far as the service writes it. -/
structure JobDetail where
  jobID : String
  type : String
  status : String := ""
  deliveryMode : String
  payload : Payload
  traceID : String
  history : List JobHistoryItem := []

/-- The record that the first operation on a job makes. -/
def JobDetail.ofJob (job : Job) : JobDetail where
  jobID := job.jobID
  type := job.type
  deliveryMode := job.deliveryMode
  payload := job.payload
  traceID := job.traceID

/-- What every operation writes: of the job, no more than its trace id. -/
def JobDetail.update (detail : JobDetail) (job : Job) (status : String) (now : Time) : JobDetail :=
  { detail with
    status := status
    traceID := if job.traceID = "" then detail.traceID else job.traceID
    history := detail.history ++ [⟨status, now⟩] }

abbrev JobStore := GoMap JobDetail

/-- `AddJob`. -/
def JobStore.addJob (s : JobStore) (job : Job) (status : String) (now : Time) : JobStore :=
  s.set job.jobID (((s.get? job.jobID).getD (.ofJob job)).update job status now)

section
variable (s : JobStore) (job : Job) (status : String) (now : Time)

theorem JobStore.get?_addJob_self : (s.addJob job status now).get? job.jobID =
    some (((s.get? job.jobID).getD (.ofJob job)).update job status now) :=
  GoMap.get?_set_self _ _ _

theorem JobStore.get?_addJob_of_ne {id : String} (h : job.jobID ≠ id) :
    (s.addJob job status now).get? id = s.get? id :=
  GoMap.get?_set_of_ne _ _ h.symm

end

/-! ## The operations -/

structure JobStatusResponse where
  jobID : String
  status : String
  traceID : String

structure JobValidationResponse where
  valid : Bool
  message : String
  traceID : String := ""

/-- A request to schedule a job; `deliverAt` is the instant that `time.Parse` reads in the
field of that name, and nothing where the field is empty or cannot be read. -/
structure ScheduleJobRequest where
  jobID : String
  type : String := ""
  payload : Payload := none
  deliveryMode : String := ""
  deliverAfterSec : ℤ := 0
  deliverAt : Option ℤ := none

structure ScheduleJobResponse where
  jobID : String
  status : String
  scheduledFor : String
  delaySeconds : ℤ
  traceID : String

structure QueuePublishRequest where
  count : ℤ := 0
  type : String := ""

structure QueuePublishResponse where
  published : ℕ
  subject : String
  jobs : List String

/-- What an operation reads of the clock, and the zone that it writes times in. -/
structure Clock where
  zone : Zone := .utc
  /-- What `time.Until` reads. -/
  measured : Time := 0
  now : Time := 0
  /-- What `AddJob` reads. -/
  stored : Time := 0

/-- What goes to the publisher; nobody asks whether the event `scheduled` was taken. -/
inductive Sent where
  | submitted (job : Job)
  | queued (job : Job)
  | scheduled (job : Job) (note : String)

structure Service where
  store : JobStore := []
  queueJobSeq : ℕ := 0
  /-- The jobs that wait for their time, each with the length of its wait. -/
  timers : List (Job × ℤ) := []
  sent : List Sent := []

namespace Service

/-- `GetJob`. -/
def getJob (s : Service) (jobID : String) : Option JobDetail := s.store.get? jobID

/-- The job that `SubmitJob` publishes. -/
def submission (job : Job) : Job :=
  { job with
    type := if job.type = "" then "generic-message" else job.type
    deliveryMode := if job.deliveryMode = "" then "JETSTREAM" else job.deliveryMode }

/-- `SubmitJob`; `err` is the error of the publisher. -/
def submitJob (s : Service) (job : Job) (err : Option String) (now : Time) :
    Except String JobStatusResponse × Service :=
  if job.jobID = "" then (.error "job_id is required", s)
  else
    let job := submission job
    match err with
    | some e => (.error ("failed to publish job: " ++ e), s)
    | none => (.ok ⟨job.jobID, "SUBMITTED", job.traceID⟩,
        { s with store := s.store.addJob job "SUBMITTED" now, sent := s.sent ++ [.submitted job] })

/-- The wait that a request asks for; the count of seconds is converted on 64 bits. -/
def delayOf (req : ScheduleJobRequest) (now : Time) : ℤ :=
  let delay := Int.bmod (req.deliverAfterSec * 1000000000) (2 ^ 64)
  let delay := match req.deliverAt with
    | some target =>
      let computed := min (target - now) maxInt
      if 0 < computed then computed else delay
    | none => delay
  if delay ≤ 0 then 5 * 1000000000 else delay

/-- `int(delay.Seconds())`, where the seconds and their fraction are added as floats. -/
def wholeSeconds (delay : ℤ) : ℤ :=
  let float := fun q : ℚ => (roundToFloat64 q).getD 0
  truncate (float (float (delay / 1000000000 : ℤ) +
    float (float (delay % 1000000000 : ℤ) / 1000000000)))

/-- The job that `ScheduleJob` keeps for later. -/
def scheduledJob (req : ScheduleJobRequest) : Job where
  jobID := req.jobID
  type := if req.type = "" then "image-processing" else req.type
  payload := req.payload
  deliveryMode := if req.deliveryMode = "" then "JETSTREAM" else req.deliveryMode

/-- `ScheduleJob`. -/
def scheduleJob (s : Service) (req : ScheduleJobRequest) (clock : Clock) :
    Except String ScheduleJobResponse × Service :=
  if req.jobID = "" then (.error "job_id is required", s)
  else
    let delay := delayOf req clock.measured
    let delaySec := wholeSeconds delay
    let scheduledFor := clock.zone.formatRFC3339 (clock.now + delay.toNat)
    let job := scheduledJob req
    let note := s!"Application scheduler will publish in {delaySec} seconds (at {scheduledFor})"
    (.ok ⟨job.jobID, "SCHEDULED", scheduledFor, delaySec, job.traceID⟩,
      { s with
        store := s.store.addJob job "SCHEDULED" clock.stored
        sent := s.sent ++ [.scheduled job note]
        timers := s.timers ++ [(job, delay)] })

/-- The wait of a scheduled job is over. -/
def fire (s : Service) (i : ℕ) (err : Option String) (now : Time) : Service :=
  match s.timers[i]? with
  | none => s
  | some timer => (submitJob { s with timers := s.timers.eraseIdx i } timer.1 err now).2

/-- `ValidateJob`; `reply` is the answer to the request. -/
def validateJob (s : Service) (job : Job) (reply : Except String JobValidationResponse)
    (now : Time) : Except String JobValidationResponse × Service :=
  match reply with
  | .error e => (.error e, { s with store := s.store.addJob job "VALIDATION_FAILED" now })
  | .ok resp => (.ok resp,
      { s with store := s.store.addJob job (if resp.valid then "VALID" else "INVALID") now })

end Service

/-! ## Batches -/

/-- What the two batch operations differ in. -/
structure Batch where
  /-- What the ids of the jobs start with. -/
  stem : String
  defaultType : String
  deliveryMode : String
  /-- The entries of the payload that the other batch has not. -/
  extra : ℕ → GoMap Value
  sent : Job → Sent
  status : String
  subject : String
  /-- The word for a job in the text of an error. -/
  kind : String

def queueBatch : Batch where
  stem := "job-q-"
  defaultType := "queue-task"
  deliveryMode := "CORE"
  extra _ := []
  sent := .queued
  status := "PUBLISHED"
  subject := "jobs.queue"
  kind := "queue"

def streamBatch : Batch where
  stem := "job-js-"
  defaultType := "image-processing"
  deliveryMode := "JETSTREAM"
  extra seq := [("file", .str s!"img-{seq}.jpg")]
  sent := .submitted
  status := "SUBMITTED"
  subject := "jobs.submitted"
  kind := "stream"

namespace Batch

def jobID (b : Batch) (seq : ℕ) : String := b.stem ++ toString ((100 + seq) % 2 ^ 64)

/-- The `i`-th job of a batch.  Whole numbers stand in its payload as what they are. -/
def job (b : Batch) (type : String) (seq i : ℕ) (clock : Clock) : Job where
  jobID := b.jobID seq
  type := type
  deliveryMode := b.deliveryMode
  payload := some (b.extra seq ++ [("sequence", .float seq), ("batch_index", .float i),
    ("timestamp", .str (clock.zone.formatRFC3339 clock.now))])

/-- `atomic.AddUint64(&queueJobSeq, 1)`. -/
def nextSeq (s : Service) : ℕ := (s.queueJobSeq + 1) % 2 ^ 64

/-- The loop of a batch, with `n` jobs to go; the first publish that fails ends it. -/
def loop (b : Batch) (type : String) (err : ℕ → Option String) (clock : ℕ → Clock) :
    ℕ → ℕ → Service → List String → Except String (List String) × Service
  | 0, _, s, ids => (.ok ids, s)
  | n + 1, i, s, ids =>
    let job := b.job type (nextSeq s) i (clock i)
    let s := { s with queueJobSeq := nextSeq s }
    match err i with
    | some e => (.error s!"failed publishing {b.kind} job {job.jobID}: {e}", s)
    | none => loop b type err clock n (i + 1)
        { s with
          store := s.store.addJob job b.status (clock i).stored
          sent := s.sent ++ [b.sent job] }
        (ids ++ [job.jobID])

/-- The number of jobs asked for. -/
def count (req : QueuePublishRequest) : ℕ := if req.count ≤ 0 then 10 else req.count.toNat

def submitJobs (b : Batch) (s : Service) (req : QueuePublishRequest) (err : ℕ → Option String)
    (clock : ℕ → Clock) : Except String QueuePublishResponse × Service :=
  let type := if req.type = "" then b.defaultType else req.type
  let r := b.loop type err clock (count req) 1 s []
  (r.1.map fun ids => ⟨ids.length, b.subject, ids⟩, r.2)

/-- The ids that a batch would use, if all went well. -/
def ids (b : Batch) (s : Service) (req : QueuePublishRequest) : List String :=
  (List.range (count req)).map fun k => b.jobID ((s.queueJobSeq + (k + 1)) % 2 ^ 64)

end Batch

namespace Service

def submitQueueJobs (s : Service) (req : QueuePublishRequest) (err : ℕ → Option String)
    (clock : ℕ → Clock) : Except String QueuePublishResponse × Service :=
  queueBatch.submitJobs s req err clock

def submitStreamJobs (s : Service) (req : QueuePublishRequest) (err : ℕ → Option String)
    (clock : ℕ → Clock) : Except String QueuePublishResponse × Service :=
  streamBatch.submitJobs s req err clock

/-! ## Runs -/

/-- An operation, with what its surroundings answer. -/
inductive Op where
  | submitJob (job : Job) (err : Option String) (now : Time)
  | scheduleJob (req : ScheduleJobRequest) (clock : Clock)
  | fire (i : ℕ) (err : Option String) (now : Time)
  | validateJob (job : Job) (reply : Except String JobValidationResponse) (now : Time)
  | submitQueueJobs (req : QueuePublishRequest) (err : ℕ → Option String) (clock : ℕ → Clock)
  | submitStreamJobs (req : QueuePublishRequest) (err : ℕ → Option String) (clock : ℕ → Clock)

def step (s : Service) : Op → Service
  | .submitJob job err now => (s.submitJob job err now).2
  | .scheduleJob req clock => (s.scheduleJob req clock).2
  | .fire i err now => s.fire i err now
  | .validateJob job reply now => (s.validateJob job reply now).2
  | .submitQueueJobs req err clock => (s.submitQueueJobs req err clock).2
  | .submitStreamJobs req err clock => (s.submitStreamJobs req err clock).2

/-- The operation is one on the given job. -/
def Touches (s : Service) (id : String) : Op → Prop
  | .submitJob job _ _ => job.jobID = id
  | .scheduleJob req _ => req.jobID = id
  | .fire i _ _ => ∃ timer, s.timers[i]? = some timer ∧ timer.1.jobID = id
  | .validateJob job _ _ => job.jobID = id
  | .submitQueueJobs req _ _ => id ∈ queueBatch.ids s req
  | .submitStreamJobs req _ _ => id ∈ streamBatch.ids s req

end Service

end NatsDemo.Jobs
