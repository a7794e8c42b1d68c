import NatsDemo.Go.Parse
import NatsDemo.Jobs.Audit

/-!
# The job service over HTTP

The handlers of the job endpoints.  Each reads its request, refuses what it cannot use, has
the service carry out the rest and tells what came of it.  `GET /jobs/:job_id` shows the
record of a job, which is the audit trail of its id.
-/

namespace NatsDemo.Jobs
open Go Lib

/-- A status and a body. -/
abbrev Answer := ℕ × Json

def refusal (status : ℕ) (error : String) : Answer := (status, .obj [("error", .str error)])

/-! ## Bodies -/

namespace JobStatusResponse

def marshal (r : JobStatusResponse) : Json :=
  .obj ([("job_id", .str r.jobID), ("status", .str r.status)] ++ omitEmpty "trace_id" r.traceID)

end JobStatusResponse

namespace JobValidationResponse

def marshal (r : JobValidationResponse) : Json :=
  .obj ([("valid", .bool r.valid), ("message", .str r.message)] ++ omitEmpty "trace_id" r.traceID)

def fields : List (String × FieldDecoder JobValidationResponse) :=
  [("valid", boolField fun r b => { r with valid := b }),
   ("message", stringField fun r x => { r with message := x }),
   ("trace_id", stringField fun r x => { r with traceID := x })]

end JobValidationResponse

namespace ScheduleJobResponse

def marshal (r : ScheduleJobResponse) : Json :=
  .obj ([("job_id", .str r.jobID), ("status", .str r.status),
    ("scheduled_for", .str r.scheduledFor), ("delay_seconds", .int r.delaySeconds)] ++
    omitEmpty "trace_id" r.traceID)

end ScheduleJobResponse

namespace QueuePublishResponse

def marshal (r : QueuePublishResponse) : Json :=
  .obj [("published", .int r.published), ("subject", .str r.subject),
    ("jobs", .arr (r.jobs.map .str))]

end QueuePublishResponse

namespace JobDetail

/-- A payload under `omitempty`, which drops an empty one as it drops a `nil` one. -/
def payloadField (d : JobDetail) : List (String × Json) :=
  match d.payload with
  | none | some [] => []
  | some m => [("payload", marshalMap (some m))]

/-- `stamp` writes a time in the zone of the service. -/
def marshal (stamp : Time → String) (d : JobDetail) : Json :=
  .obj ([("job_id", .str d.jobID)] ++ omitEmpty "type" d.type ++
    [("status", .str d.status), ("delivery_count", .int 0)] ++
    omitEmpty "delivery_mode" d.deliveryMode ++ d.payloadField ++ omitEmpty "trace_id" d.traceID ++
    [("history", .arr (d.history.map fun h =>
      .obj [("status", .str h.status), ("timestamp", .str (stamp h.timestamp))]))])

end JobDetail

/-- A request to schedule a job, as it is read. -/
structure ScheduleBody where
  jobID : String := ""
  type : String := ""
  payload : Payload := none
  deliveryMode : String := ""
  deliverAfterSec : ℤ := 0
  deliverAt : String := ""

namespace ScheduleBody

def fields : List (String × FieldDecoder ScheduleBody) :=
  [("job_id", stringField fun b x => { b with jobID := x }),
   ("type", stringField fun b x => { b with type := x }),
   ("payload", anyMapField payload fun b m => { b with payload := m }),
   ("delivery_mode", stringField fun b x => { b with deliveryMode := x }),
   ("deliver_after_seconds", intField minInt maxInt fun b n => { b with deliverAfterSec := n }),
   ("deliver_at", stringField fun b x => { b with deliverAt := x })]

/-- A `deliver_at` that is no time of RFC 3339 counts as none. -/
def request (b : ScheduleBody) : ScheduleJobRequest where
  jobID := b.jobID
  type := b.type
  payload := b.payload
  deliveryMode := b.deliveryMode
  deliverAfterSec := b.deliverAfterSec
  deliverAt := if b.deliverAt = "" then none else Instant.parse Instant.rfc3339 b.deliverAt

end ScheduleBody

def QueuePublishRequest.fields : List (String × FieldDecoder QueuePublishRequest) :=
  [("count", intField minInt maxInt fun r n => { r with count := n }),
   ("type", stringField fun r x => { r with type := x })]

/-- A batch request; what cannot be read asks for ten jobs, of the type read so far. -/
def queuePublishRequest (body : Option Json) : QueuePublishRequest :=
  let r := Go.unmarshal QueuePublishRequest.fields {} body
  let req := if r.2 then r.1 else { r.1 with count := 10 }
  if req.count ≤ 0 then { req with count := 10 } else req

/-! ## The handlers -/

/-- What a request finds around it: the text of its decoding error, the trace id of its span,
if it has one, and the clock. -/
structure Context extends Clock where
  why : String := ""
  traceID : Option String := none

/-- A job takes the trace id of the span. -/
def Context.traced (c : Context) (job : Job) : Job :=
  c.traceID.elim job fun id => { job with traceID := id }

/-- Why a validation request has no answer. -/
inductive RequestError where
  | timeout
  | other (text : String)

def RequestError.text : RequestError → String
  | timeout => "request timed out: no response from processor service"
  | other text => text

namespace JobHandler

/-- `POST /jobs`. -/
def submitJob (s : Service) (c : Context) (body : Option Json) (err : Option String) :
    Answer × Service :=
  let r := Job.unmarshal body
  if !r.2 then (refusal 400 ("Invalid request payload: " ++ c.why), s)
  else if r.1.jobID = "" then (refusal 400 "job_id is required", s)
  else
    match s.submitJob (c.traced r.1) err c.stored with
    | (.error e, s) => (refusal 500 ("Failed to submit job: " ++ e), s)
    | (.ok resp, s) => ((202, resp.marshal), s)

/-- `POST /jobs/validate`. -/
def validateJob (s : Service) (c : Context) (body : Option Json)
    (reply : Except RequestError JobValidationResponse) : Answer × Service :=
  let r := Job.unmarshal body
  if !r.2 then (refusal 400 ("Invalid request payload: " ++ c.why), s)
  else if r.1.jobID = "" then (refusal 400 "job_id is required", s)
  else if r.1.type = "" then (refusal 400 "type is required", s)
  else
    let s := (s.validateJob (c.traced r.1) (reply.mapError RequestError.text) c.stored).2
    match reply with
    | .error .timeout =>
      (refusal 504 "validation request timed out: no processor replied within 2s", s)
    | .error (.other e) => (refusal 500 ("Failed to validate job: " ++ e), s)
    | .ok resp => ((200, resp.marshal), s)

/-- `GET /jobs/:job_id`. -/
def getJob (s : Service) (stamp : Time → String) (jobID : String) : Answer :=
  if jobID = "" then refusal 400 "job_id is required"
  else
    match s.getJob jobID with
    | none => refusal 404 "Job not found"
    | some d => (200, d.marshal stamp)

/-- `POST /jobs/schedule`. -/
def scheduleJob (s : Service) (c : Context) (body : Option Json) : Answer × Service :=
  let r := Go.unmarshal ScheduleBody.fields {} body
  if !r.2 then (refusal 400 ("Invalid request payload: " ++ c.why), s)
  else if r.1.jobID = "" then (refusal 400 "job_id is required", s)
  else
    match s.scheduleJob r.1.request c.toClock with
    | (.error e, s) => (refusal 500 ("Failed to schedule job: " ++ e), s)
    | (.ok resp, s) => ((202, resp.marshal), s)

/-- The answer to a batch request. -/
def batchAnswer (kind : String) (r : Except String QueuePublishResponse × Service) :
    Answer × Service :=
  match r with
  | (.error e, s) => (refusal 500 (s!"Failed to submit {kind} jobs: " ++ e), s)
  | (.ok resp, s) => ((202, resp.marshal), s)

/-- `POST /jobs/queue`. -/
def submitQueueJobs (s : Service) (body : Option Json) (err : ℕ → Option String)
    (clock : ℕ → Clock) : Answer × Service :=
  batchAnswer "queue" (s.submitQueueJobs (queuePublishRequest body) err clock)

/-- `POST /jobs/stream`. -/
def submitStreamJobs (s : Service) (body : Option Json) (err : ℕ → Option String)
    (clock : ℕ → Clock) : Answer × Service :=
  batchAnswer "stream" (s.submitStreamJobs (queuePublishRequest body) err clock)

/-! ## Runs -/

/-- A request, or the end of the wait of a scheduled job. -/
inductive Request where
  | submitJob (c : Context) (body : Option Json) (err : Option String)
  | scheduleJob (c : Context) (body : Option Json)
  | validateJob (c : Context) (body : Option Json)
      (reply : Except RequestError JobValidationResponse)
  | getJob (jobID : String)
  | submitQueueJobs (body : Option Json) (err : ℕ → Option String) (clock : ℕ → Clock)
  | submitStreamJobs (body : Option Json) (err : ℕ → Option String) (clock : ℕ → Clock)
  | fire (i : ℕ) (err : Option String) (now : Time)

/-- The service after a request. -/
def serve (s : Service) : Request → Service
  | .submitJob c body err => (submitJob s c body err).2
  | .scheduleJob c body => (scheduleJob s c body).2
  | .validateJob c body reply => (validateJob s c body reply).2
  | .getJob _ => s
  | .submitQueueJobs body err clock => (submitQueueJobs s body err clock).2
  | .submitStreamJobs body err clock => (submitStreamJobs s body err clock).2
  | .fire i err now => s.fire i err now

/-- The operation that a request comes to, unless it is refused or only looks. -/
def Request.op : Request → Option Service.Op
  | .submitJob c body err =>
    let r := Job.unmarshal body
    if r.2 ∧ r.1.jobID ≠ "" then some (.submitJob (c.traced r.1) err c.stored) else none
  | .scheduleJob c body =>
    let r := Go.unmarshal ScheduleBody.fields {} body
    if r.2 ∧ r.1.jobID ≠ "" then some (.scheduleJob r.1.request c.toClock) else none
  | .validateJob c body reply =>
    let r := Job.unmarshal body
    if r.2 ∧ r.1.jobID ≠ "" ∧ r.1.type ≠ "" then
      some (.validateJob (c.traced r.1) (reply.mapError RequestError.text) c.stored)
    else none
  | .getJob _ => none
  | .submitQueueJobs body err clock => some (.submitQueueJobs (queuePublishRequest body) err clock)
  | .submitStreamJobs body err clock =>
    some (.submitStreamJobs (queuePublishRequest body) err clock)
  | .fire i err now => some (.fire i err now)

theorem batchAnswer_snd (kind : String) (r : Except String QueuePublishResponse × Service) :
    (batchAnswer kind r).2 = r.2 := by
  obtain ⟨e | resp, s⟩ := r <;> rfl

/-- A request does what its operation does, and nothing where it comes to none. -/
theorem serve_eq (s : Service) (r : Request) : serve s r = r.op.elim s s.step := by
  cases r with
  | submitJob c body err =>
    rw [serve, submitJob, Request.op]
    by_cases hread : (Job.unmarshal body).2 = true
    · by_cases hid : (Job.unmarshal body).1.jobID = ""
      · simp [hread, hid]
      · simp only [hread, hid, Bool.not_true, Bool.false_eq_true, if_false, ne_eq,
          not_false_eq_true, and_self, if_true, Option.elim_some, Service.step]
        rcases s.submitJob (c.traced (Job.unmarshal body).1) err c.stored with ⟨e | resp, s'⟩ <;>
          rfl
    · simp [hread]
  | scheduleJob c body =>
    rw [serve, scheduleJob, Request.op]
    by_cases hread : (Go.unmarshal ScheduleBody.fields {} body).2 = true
    · by_cases hid : (Go.unmarshal ScheduleBody.fields {} body).1.jobID = ""
      · simp [hread, hid]
      · simp only [hread, hid, Bool.not_true, Bool.false_eq_true, if_false, ne_eq,
          not_false_eq_true, and_self, if_true, Option.elim_some, Service.step]
        rcases s.scheduleJob (Go.unmarshal ScheduleBody.fields {} body).1.request c.toClock with
          ⟨e | resp, s'⟩ <;> rfl
    · simp [hread]
  | validateJob c body reply =>
    rw [serve, validateJob, Request.op]
    by_cases hread : (Job.unmarshal body).2 = true
    · by_cases hid : (Job.unmarshal body).1.jobID = ""
      · simp [hread, hid]
      · by_cases htype : (Job.unmarshal body).1.type = ""
        · simp [hread, hid, htype]
        · simp only [hread, hid, htype, Bool.not_true, Bool.false_eq_true, if_false, ne_eq,
            not_false_eq_true, and_self, if_true, Option.elim_some, Service.step]
          rcases reply with (_ | e) | resp <;> rfl
    · simp [hread]
  | getJob jobID => rfl
  | submitQueueJobs body err clock => exact batchAnswer_snd "queue" _
  | submitStreamJobs body err clock => exact batchAnswer_snd "stream" _
  | fire i err now => rfl

/-- The operations of a run of requests. -/
theorem run_serve (s : Service) (rs : List Request) :
    run serve s rs = run Service.step s (rs.filterMap Request.op) := by
  induction rs generalizing s with
  | nil => rfl
  | cons r rs ih =>
    rw [run_cons, ih, serve_eq]
    cases hop : r.op with
    | none => rw [List.filterMap_cons_none hop, Option.elim_none]
    | some op => rw [List.filterMap_cons_some hop, Option.elim_some, run_cons]

/-- What a run of requests records of a job. -/
def auditTrail (rs : List Request) (jobID : String) : List Recording :=
  (Service.trail {} (rs.filterMap Request.op)).filter fun r => r.job.jobID = jobID

/-- **A job shows its audit trail.**  After any run of requests and timers, what is shown of
a job is what the run recorded under its id, all of it and in order. -/
theorem getJob_auditTrail (stamp : Time → String) (rs : List Request) {jobID : String}
    (hid : jobID ≠ "") : getJob (run serve {} rs) stamp jobID =
      match Recording.detail (auditTrail rs jobID) with
      | none => refusal 404 "Job not found"
      | some d => (200, d.marshal stamp) := by
  rw [getJob, if_neg hid, run_serve, Service.getJob_trail]
  rfl

theorem getJob_auditTrail_validated :
    getJob (run serve {}
      [.submitJob { traceID := some "t" } (some (.obj [("job_id", .str "a")])) none,
       .submitJob {} (some (.obj [("job_id", .str "b")])) none,
       .validateJob { stored := 1 } (some (.obj [("job_id", .str "a"), ("type", .str "x")]))
        (.error .timeout)]) Time.formatRFC3339 "a" =
      (200, .obj [("job_id", .str "a"), ("type", .str "generic-message"),
        ("status", .str "VALIDATION_FAILED"), ("delivery_count", .int 0),
        ("delivery_mode", .str "JETSTREAM"), ("trace_id", .str "t"),
        ("history", .arr [
          .obj [("status", .str "SUBMITTED"), ("timestamp", .str "1970-01-01T00:00:00Z")],
          .obj [("status", .str "VALIDATION_FAILED"),
            ("timestamp", .str "1970-01-01T00:00:00Z")]])]) := by
  rw [getJob_auditTrail _ _ (by decide)]
  rfl

end JobHandler

end NatsDemo.Jobs
