import NatsDemo.Control.Observer
import NatsDemo.Control.Tracking

/-!
# What is published and what is listed

The tracker makes its events from the messages on the bus.  `Publication.event` says what a
publication is about, in the words of its publisher; the tracker comes to the same event by way
of headers, bodies and subjects, whatever the publication.
-/

namespace NatsDemo.Control
open Lib Go Jobs Messaging

/-! ## What the publications are about -/

/-- The lifecycle events of the services, by subject and status. -/
def lifecycleKinds : List (String × String) :=
  [("jobs.stored", "STORED"), ("jobs.deduplicated", "DEDUPLICATED"),
   ("jobs.scheduled", "SCHEDULED"), (subjectJobReceived, "RECEIVED"),
   (subjectJobProcessingStarted, "PROCESSING"), (subjectJobCompleted, "COMPLETED"),
   (subjectJobFailed, "FAILED"), (subjectJobQueueReceived, "RECEIVED"),
   (subjectJobQueueCompleted, "COMPLETED"), (subjectJobRequestReceived, "REQUEST_RECEIVED"),
   (subjectJobReplySent, "REPLY_SENT")]

/-- An event of a worker of the queue group. -/
def InQueue (subject : String) : Prop :=
  subject = subjectJobQueueReceived ∨ subject = subjectJobQueueCompleted

instance : DecidablePred InQueue := fun _ => inferInstanceAs (Decidable (_ ∨ _))

/-- An event around a request for validation. -/
def requestEventOf (subject status : String) (job : Job) : Event where
  jobID := job.jobID
  status := status
  subject := subject
  worker := "job-service"
  msgID := job.jobID
  jobType := job.type

/-- A job that its client gave a subject other than the one for jobs. -/
def HasOwnSubject (job : Job) : Prop := job.subject ≠ "" ∧ job.subject ≠ subjectJobSubmitted

instance : DecidablePred HasOwnSubject := fun _ => inferInstanceAs (Decidable (_ ∧ _))

/-- The subject that an event is listed under. -/
def listedSubject (subject : String) : String := (listedSubjects.lookup subject).getD subject

/-- What is listed of a job on a subject of its own: what the log takes that subject to say, with
no status where it says nothing. -/
def ownSubjectEvent (job : Job) (now : Time) : Event where
  jobID := job.jobID
  status := (jobStatuses.lookup job.subject).getD ""
  subject := listedSubject job.subject
  worker := if job.source = "" then "job-service" else job.source
  deliveryMode :=
    if job.deliveryMode ≠ "" then job.deliveryMode
    else if listedSubject job.subject = "jobs.queue" then "CORE"
    else if listedSubject job.subject = "jobs.submitted" then "JETSTREAM" else ""
  msgID := if job.msgID = "" then s!"msg-sub-{job.jobID}-{now}" else job.msgID
  jobType := job.type

/-- The log listens to a subject, and takes it for that of events: it is not one of those that are
for requests and dead letters. -/
def ListensTo (subject : String) : Prop :=
  Subscribed "jobs.>" subject ∧ subject ∉ ["jobs.validate", "jobs.dlq"]

instance : DecidablePred ListensTo := fun _ => inferInstanceAs (Decidable (_ ∧ _))

/-- What is listed of a job on the subject for jobs. -/
def submittedEvent (job : Job) (now : Time) : Event where
  jobID := job.jobID
  status := "PUBLISHED"
  subject := "jobs.submitted"
  worker := if job.source = "" then "job-service" else job.source
  deliveryMode := publishMode job
  msgID := if job.msgID = "" then s!"msg-sub-{job.jobID}-{now}" else job.msgID
  jobType := job.type

namespace Publication

/-- What is to be listed of a publication: the job, what has become of it, and who does it.
Events of the queue group are listed under its subject, and a reprocessed job under the one it
is submitted on again. -/
def event : Publication → Option Event
  | jobSubmitted job now _ =>
    if HasOwnSubject job then
      if ListensTo job.subject then some (ownSubjectEvent job now) else none
    else some (submittedEvent job now)
  | jobQueue job _ _ => some {
      jobID := job.jobID
      status := "PUBLISHED"
      subject := "jobs.queue"
      worker := "job-service"
      deliveryMode := if job.deliveryMode = "" then "CORE" else job.deliveryMode
      msgID := job.jobID
      jobType := job.type }
  | jobLifecycle e _ => some {
      jobID := e.jobID
      status := e.status
      deliveryCount := if e.deliveryCount ≤ 0 then 1 else e.deliveryCount
      subject := if InQueue e.subject then "jobs.queue" else e.subject
      worker := e.workerName
      deliveryMode := if e.deliveryMode = "" ∧ InQueue e.subject then "CORE" else e.deliveryMode
      sequence := e.sequence
      msgID := e.jobID }
  | jobValidate _ _ _ | deadLetter _ _ _ => none
  | requestSent job => some (requestEventOf subjectJobRequestSent "REQUEST_SENT" job)
  | requestTimeout job => some (requestEventOf subjectJobRequestTimeout "REQUEST_TIMEOUT" job)
  | replyReceived job => some (requestEventOf subjectJobReplyReceived "REPLY_RECEIVED" job)
  | replayed data seq => some {
      jobID := (replayedJob data seq).jobID
      status := "REPLAYED"
      subject := "jobs.replayed"
      worker := "replay-consumer"
      deliveryMode := "JETSTREAM"
      sequence := seq
      msgID := s!"replay-seq-{seq}"
      jobType := (replayedJob data seq).type }
  | repaired item _ t2 _ => some {
      jobID := item.jobID
      status := "PUBLISHED"
      subject := "jobs.submitted"
      worker := "demo-control"
      deliveryMode := "JETSTREAM"
      msgID := s!"rep-{item.jobID}-{t2}"
      jobType := item.type }
  | reprocessed item => some {
      jobID := item.jobID
      status := "REPROCESSED"
      subject := "jobs.submitted"
      worker := "demo-control"
      deliveryMode := "JETSTREAM"
      msgID := item.jobID
      jobType := item.type }

/-- Nothing is listed without the id of a job. -/
def told (p : Publication) : Option Event := p.event.filter fun e => e.jobID ≠ ""

/-- A publication as the services make it: lifecycle events are of the kinds above, no further
header replaces those that the tracker reads, and numbers are in the range of their types. -/
structure Plain (p : Publication) : Prop where
  headers : ∀ e ∈ p.furtherHeaders, e.1 ∉ ["Nats-Msg-Id", "X-Message-Id", "X-Source"]
  kind : ∀ e now, p = jobLifecycle e now → (e.subject, e.status) ∈ lifecycleKinds ∧
    (minInt ≤ e.deliveryCount ∧ e.deliveryCount ≤ maxInt) ∧ e.sequence < 2 ^ 64
  sequence : ∀ data seq, p = replayed data seq → seq < 2 ^ 64

end Publication

/-! ## What the tracker reads -/

/-- The payload that the tracker reads in a job. -/
def jobPayload (job : Job) : LifecyclePayload where
  jobID := job.jobID
  type := job.type
  deliveryMode := job.deliveryMode
  msgID := job.msgID

theorem unmarshal_job (job : Job) :
    Go.unmarshal LifecyclePayload.fields {} (some job.marshal) = (jobPayload job, true) := by
  have hheaders (fields : List (String × Json)) (p : LifecyclePayload) :
      decodeFields LifecyclePayload.fields (job.headerField ++ fields) p =
        decodeFields LifecyclePayload.fields fields p := by
    rw [Job.headerField]
    rcases job.headers with _ | _ | ⟨e, m⟩
    · rfl
    · rfl
    · exact decodeFields_cons _ _ _ rfl
  simp only [Go.unmarshal, Job.marshal, List.append_assoc, List.cons_append]
  rw [decodeFields_cons _ _ _ rfl]
  rw [decodeFields_omitEmpty _ _ _ rfl (by intro h; rw [h])]
  rw [decodeFields_omitEmpty _ _ _ rfl (fun _ => rfl)]
  rw [decodeFields_omitEmpty _ _ _ rfl (by intro h; rw [h])]
  rw [decodeFields_omitEmpty _ _ _ rfl (by intro h; rw [h])]
  rw [decodeFields_omitEmpty _ _ _ rfl (fun _ => rfl)]
  rw [decodeFields_omitEmpty _ _ _ rfl (fun _ => rfl)]
  rw [hheaders]
  rw [decodeFields_cons _ _ _ rfl]
  rw [← List.append_nil (omitEmpty "trace_id" job.traceID)]
  rw [decodeFields_omitEmpty _ _ _ rfl (fun _ => rfl)]
  rfl

/-- The payload that the tracker reads in a lifecycle event. -/
def eventPayload (e : JobLifecycle) : LifecyclePayload where
  jobID := e.jobID
  status := e.status
  deliveryCount := e.deliveryCount
  error := e.errMsg
  deliveryMode := e.deliveryMode
  sequence := e.sequence

theorem unmarshal_jobLifecycle {e : JobLifecycle} (now : Time)
    (hcount : minInt ≤ e.deliveryCount ∧ e.deliveryCount ≤ maxInt) (hseq : e.sequence < 2 ^ 64) :
    Go.unmarshal LifecyclePayload.fields {} (jobLifecycle e now).data = (eventPayload e, true) := by
  have hdelivery (p : LifecyclePayload) :
      decodeKey LifecyclePayload.fields "delivery_count" (.int e.deliveryCount) p =
        ({ p with deliveryCount := e.deliveryCount }, true) := if_pos hcount
  have hsequence (p : LifecyclePayload) :
      decodeKey LifecyclePayload.fields "sequence" (.int e.sequence) p =
        ({ p with sequence := e.sequence }, true) := if_pos (by omega)
  simp only [jobLifecycle, Go.unmarshal, List.cons_append, List.nil_append]
  rw [decodeFields_cons _ _ _ rfl]
  rw [decodeFields_cons _ _ _ rfl]
  rw [decodeFields_cons _ _ _ (hdelivery _)]
  rw [List.append_assoc]
  rw [decodeFields_omitEmpty _ _ _ rfl (by intro h; rw [h])]
  rw [decodeFields_omitEmpty _ _ _ rfl (by intro h; rw [h])]
  split_ifs with hzero
  · rw [eventPayload, hzero]
    rfl
  · rw [decodeFields_cons _ _ _ (hsequence _)]
    rfl

/-! ## What the tracker makes of it -/

/-- The id that the subscription hands on. -/
def tapID (m : Msg) : String :=
  if m.header.get "Nats-Msg-Id" = "" then m.header.get "X-Message-Id"
  else m.header.get "Nats-Msg-Id"

/-- A message that can be read gives an event, unless it is of a kind that gives none. -/
theorem onMessage_eq {m : Msg} {p : LifecyclePayload}
    (hread : Go.unmarshal LifecyclePayload.fields {} m.data = (p, true))
    (hvalidate : m.subject ≠ "jobs.validate") (hdlq : m.subject ≠ "jobs.dlq") (t : Tracker)
    (zone : Time → Time) (why : String) (now : Time) : t.onMessage zone why m now =
      if p.jobID = "" then t
      else t.addEvent zone
        (lifecycleEvent m.subject (m.header.get "X-Source") (tapID m) p) now := by
  rw [Tracker.onMessage, Tracker.tap, if_neg hvalidate, Tracker.processLifecycleEvent, hread]
  by_cases hid : p.jobID = ""
  · simp [hid]
  · simp [hid, hvalidate, hdlq, tapID]

/-- Requests for validation do not come to the tracker. -/
theorem onMessage_validate {m : Msg} (hvalidate : m.subject = "jobs.validate") (t : Tracker)
    (zone : Time → Time) (why : String) (now : Time) : t.onMessage zone why m now = t := by
  rw [Tracker.onMessage, Tracker.tap, if_pos hvalidate]

/-- Dead letters are not listed. -/
theorem onMessage_dlq {m : Msg} (hdlq : m.subject = "jobs.dlq") (t : Tracker) (zone : Time → Time)
    (why : String) (now : Time) : t.onMessage zone why m now = t := by
  rw [Tracker.onMessage, Tracker.tap, hdlq, Tracker.processLifecycleEvent]
  by_cases hread : (Go.unmarshal LifecyclePayload.fields {} m.data).2 = true
  · by_cases hid : (Go.unmarshal LifecyclePayload.fields {} m.data).1.jobID = ""
    · simp [hread, hid]
    · simp [hread, hid]
  · simp [hread]

/-- The payload that the tracker reads in an event around a request. -/
def requestPayload (status : String) (job : Job) : LifecyclePayload where
  jobID := job.jobID
  type := job.type
  status := status
  deliveryCount := 1

theorem unmarshal_requestEvent (subject status : String) (job : Job) :
    Go.unmarshal LifecyclePayload.fields {} (requestEvent subject status job).data =
      (requestPayload status job, true) := by
  have hcount (p : LifecyclePayload) :
      decodeKey LifecyclePayload.fields "delivery_count" (.int 1) p =
        ({ p with deliveryCount := 1 }, true) := rfl
  simp only [requestEvent, Go.unmarshal]
  rw [decodeFields_cons _ _ _ (hcount _)]
  rw [decodeFields_cons _ _ _ rfl]
  rw [decodeFields_cons _ _ _ rfl]
  rw [decodeFields_cons _ _ _ rfl]
  rfl

/-- The payload that the tracker reads in the event of a reprocessed entry. -/
def reprocessedPayload (item : DLQMessage) : LifecyclePayload where
  jobID := item.jobID
  type := item.type
  status := "REPROCESSED"
  deliveryCount := 1
  deliveryMode := "JETSTREAM"

theorem unmarshal_reprocessedEvent (item : DLQMessage) :
    Go.unmarshal LifecyclePayload.fields {} (reprocessedEvent item).data =
      (reprocessedPayload item, true) := by
  have hcount (p : LifecyclePayload) :
      decodeKey LifecyclePayload.fields "delivery_count" (.int 1) p =
        ({ p with deliveryCount := 1 }, true) := rfl
  simp only [reprocessedEvent, Go.unmarshal]
  rw [decodeFields_cons _ _ _ (hcount _)]
  rw [decodeFields_cons _ _ _ rfl]
  rw [decodeFields_cons _ _ _ rfl]
  rw [decodeFields_cons _ _ _ rfl]
  rw [decodeFields_cons _ _ _ rfl]
  rfl

/-! ## The kinds of events -/

/-- What the tables of the tracker have for a kind of event: its own status, and the subject of
the queue group for events of that. -/
structure Known (k : String × String) : Prop where
  status : jobStatuses.lookup k.1 = some k.2
  saga : sagaStatuses.lookup k.1 = none
  listed : (listedSubjects.lookup k.1).getD k.1 = if InQueue k.1 then "jobs.queue" else k.1
  validate : k.1 ≠ "jobs.validate"
  dlq : k.1 ≠ "jobs.dlq"
  submitted : k.1 ≠ "jobs.submitted"
  queue : k.1 ≠ "jobs.queue"
  notSaga : ¬ k.1.startsWith "saga."
  subscribed : Subscribed "jobs.>" k.1

theorem known_of_mem {k : String × String} (hk : k ∈ lifecycleKinds) : Known k := by
  have hall : ∀ k ∈ lifecycleKinds, jobStatuses.lookup k.1 = some k.2 ∧
      sagaStatuses.lookup k.1 = none ∧
      (listedSubjects.lookup k.1).getD k.1 = (if InQueue k.1 then "jobs.queue" else k.1) ∧
      k.1 ≠ "jobs.validate" ∧ k.1 ≠ "jobs.dlq" ∧ k.1 ≠ "jobs.submitted" ∧ k.1 ≠ "jobs.queue" ∧
      ¬ k.1.startsWith "saga." ∧ Subscribed "jobs.>" k.1 := by
    decide +kernel
  obtain ⟨status, saga, listed, validate, dlq, submitted, queue, notSaga, subscribed⟩ := hall k hk
  exact ⟨status, saga, listed, validate, dlq, submitted, queue, notSaga, subscribed⟩

/-- A known kind is listed as it is called. -/
theorem lifecycleEvent_known {e : JobLifecycle} (hk : Known (e.subject, e.status)) (now : Time)
    (hid : e.jobID ≠ "") : (Publication.jobLifecycle e now).event =
      some (lifecycleEvent e.subject e.workerName e.jobID (eventPayload e)) := by
  have hstatus : jobStatuses.lookup e.subject = some e.status := hk.status
  have hsaga : sagaStatuses.lookup e.subject = none := hk.saga
  have hlisted : (listedSubjects.lookup e.subject).getD e.subject =
      if InQueue e.subject then "jobs.queue" else e.subject := hk.listed
  have hsubject : (if InQueue e.subject then "jobs.queue" else e.subject) ≠ "jobs.submitted" ∧
      ¬ (if InQueue e.subject then "jobs.queue" else e.subject).startsWith "saga." := by
    split_ifs
    · decide +kernel
    · exact ⟨hk.submitted, hk.notSaga⟩
  have hmode : ((if InQueue e.subject then "jobs.queue" else e.subject) = "jobs.queue" ∨
      (if InQueue e.subject then "jobs.queue" else e.subject) = "jobs.queue.received" ∨
      (if InQueue e.subject then "jobs.queue" else e.subject) = "jobs.queue.completed") ↔
      InQueue e.subject := by
    split_ifs with hqueue
    · simp [hqueue]
    · simp only [hqueue, iff_false, not_or]
      exact ⟨hk.queue, not_or.mp hqueue⟩
  simp only [Publication.event, lifecycleEvent, eventPayload, hstatus, hsaga, hlisted, hmode,
    hsubject, hid]
  by_cases hworker : e.workerName = ""
  · by_cases hempty : e.deliveryMode = ""
    · simp [hworker, hempty]
      rfl
    · simp [hworker, hempty]
      rfl
  · by_cases hempty : e.deliveryMode = ""
    · simp [hworker, hempty]
      rfl
    · simp [hworker, hempty]
      rfl

/-- No saga is on a subject that the log listens to. -/
theorem lookup_sagaStatuses {subject : String} (h : Subscribed "jobs.>" subject) :
    sagaStatuses.lookup subject = none := by
  have hnone : ∀ k ∈ sagaStatuses, ¬ Subscribed "jobs.>" k.1 := by decide
  refine List.lookup_eq_none_iff.mpr fun k hk => ?_
  rw [bne_iff_ne]
  rintro rfl
  exact hnone k hk h

/-- No event is listed under one of the two subjects that the queue group reports on. -/
theorem listedSubject_ne (subject : String) : listedSubject subject ≠ "jobs.queue.received" ∧
    listedSubject subject ≠ "jobs.queue.completed" := by
  rw [listedSubject]
  cases hlookup : listedSubjects.lookup subject with
  | none =>
    constructor <;>
    · rintro rfl
      cases hlookup
  | some listed =>
    have hall : ∀ k ∈ listedSubjects,
        k.2 ≠ "jobs.queue.received" ∧ k.2 ≠ "jobs.queue.completed" := by decide
    obtain ⟨before, after, heq, -⟩ := List.lookup_eq_some_iff.mp hlookup
    exact hall (subject, listed) (by simp [heq])

/-- A job on a subject that the log listens to. -/
theorem lifecycleEvent_subscribed {subject source msgID : String} (job : Job)
    (hsubject : Subscribed "jobs.>" subject) (hsource : source ≠ "") (hmsgID : msgID ≠ "") :
    lifecycleEvent subject source msgID (jobPayload job) = {
      jobID := job.jobID
      status := (jobStatuses.lookup subject).getD ""
      subject := listedSubject subject
      worker := source
      deliveryMode :=
        if job.deliveryMode ≠ "" then job.deliveryMode
        else if listedSubject subject = "jobs.queue" then "CORE"
        else if listedSubject subject = "jobs.submitted" then "JETSTREAM" else ""
      msgID := msgID
      jobType := job.type } := by
  obtain ⟨hreceived, hcompleted⟩ := listedSubject_ne subject
  have hsaga := lookup_sagaStatuses hsubject
  have hlisted : (listedSubjects.lookup subject).getD subject = listedSubject subject := rfl
  simp [lifecycleEvent, jobPayload, hsaga, hlisted, hreceived, hcompleted, hsource, hmsgID]

/-! ## What the publishers set -/

/-- The headers that a submitted job goes with, where its own and those of the propagator leave
them alone. -/
theorem get_jobSubmitted {job : Job} {now : Time} {trace : GoMap String} {key : String}
    (hkey : ∀ e ∈ job.headers.getD [] ++ trace, e.1 ≠ key) :
    (Messaging.jobSubmitted job now trace).header.get key =
      (publisherHeader job now).get key := by
  have hjob : ∀ e ∈ job.headers.getD [], e.1 ≠ key :=
    fun e he => hkey e (List.mem_append_left _ he)
  have htrace : ∀ e ∈ trace, e.1 ≠ key := fun e he => hkey e (List.mem_append_right _ he)
  rw [Messaging.jobSubmitted, get_foldl_set_of_none htrace, get_setCustom_of_none hjob]

namespace Publication

/-- The payload that the tracker reads in what is published. -/
def payload : Publication → LifecyclePayload
  | jobSubmitted job _ _ | jobQueue job _ _ | jobValidate job _ _ => jobPayload job
  | jobLifecycle e _ => eventPayload e
  | requestSent job => requestPayload "REQUEST_SENT" job
  | requestTimeout job => requestPayload "REQUEST_TIMEOUT" job
  | replyReceived job => requestPayload "REPLY_RECEIVED" job
  | replayed data seq => replayPayload data seq
  | deadLetter _ _ _ => {}
  | repaired item t1 _ _ => jobPayload (repairedJob item t1)
  | reprocessed item => reprocessedPayload item

variable {p : Publication}

theorem Plain.unmarshal (hp : p.Plain) {e : Event} (he : p.event = some e) :
    Go.unmarshal LifecyclePayload.fields {} p.msg.data = (p.payload, true) := by
  cases p with
  | jobSubmitted job now trace => exact unmarshal_job job
  | jobQueue job now trace => exact unmarshal_job job
  | jobLifecycle l now =>
    obtain ⟨-, hcount, hseq⟩ := hp.kind l now rfl
    exact unmarshal_jobLifecycle now hcount hseq
  | jobValidate job now trace => exact unmarshal_job job
  | requestSent job => exact unmarshal_requestEvent _ _ job
  | requestTimeout job => exact unmarshal_requestEvent _ _ job
  | replyReceived job => exact unmarshal_requestEvent _ _ job
  | replayed data seq => exact unmarshal_replayMsg data (hp.sequence data seq rfl)
  | deadLetter arch h now => cases he
  | repaired item t1 t2 t3 => exact unmarshal_job (repairedJob item t1)
  | reprocessed item => exact unmarshal_reprocessedEvent item

/-- A submitted job goes to the subject for jobs, or to its own. -/
theorem subject_jobSubmitted (job : Job) (now : Time) (trace : GoMap String) :
    (Messaging.jobSubmitted job now trace).subject =
      if HasOwnSubject job then job.subject else "jobs.submitted" := by
  rw [Messaging.jobSubmitted]
  by_cases hempty : job.subject = ""
  · simp [HasOwnSubject, hempty, subjectJobSubmitted]
  · by_cases hsubmitted : job.subject = subjectJobSubmitted
    · simp [HasOwnSubject, hsubmitted, subjectJobSubmitted]
    · simp [HasOwnSubject, hempty, hsubmitted]

theorem event_jobSubmitted {job : Job} {now : Time} {trace : GoMap String} {e : Event}
    (he : (jobSubmitted job now trace).event = some e) :
    ¬ HasOwnSubject job ∧ submittedEvent job now = e ∨
      HasOwnSubject job ∧ ListensTo job.subject ∧ ownSubjectEvent job now = e := by
  rw [event] at he
  by_cases hown : HasOwnSubject job
  · rw [if_pos hown] at he
    by_cases hlistens : ListensTo job.subject
    · rw [if_pos hlistens, Option.some_inj] at he
      exact .inr ⟨hown, hlistens, he⟩
    · rw [if_neg hlistens] at he
      cases he
  · rw [if_neg hown, Option.some_inj] at he
    exact .inl ⟨hown, he⟩

theorem payload_jobID {e : Event} (he : p.event = some e) : p.payload.jobID = e.jobID := by
  cases p with
  | jobValidate => cases he
  | deadLetter => cases he
  | jobSubmitted job now trace =>
    rcases event_jobSubmitted he with ⟨-, rfl⟩ | ⟨-, -, rfl⟩ <;> rfl
  | _ =>
    obtain rfl := Option.some_inj.mp he
    rfl

/-- What is to be listed is on a subject that the log listens to. -/
theorem Plain.listensTo (hp : p.Plain) {e : Event} (he : p.event = some e) :
    ListensTo p.msg.subject := by
  cases p with
  | jobSubmitted job now trace =>
    rw [msg, subject_jobSubmitted]
    rcases event_jobSubmitted he with ⟨hown, -⟩ | ⟨hown, hlistens, -⟩
    · rw [if_neg hown]
      decide
    · rwa [if_pos hown]
  | jobLifecycle l now =>
    have hk := known_of_mem (hp.kind l now rfl).1
    exact ⟨hk.subscribed, by simp [msg, Messaging.jobLifecycle, hk.validate, hk.dlq]⟩
  | jobValidate => cases he
  | deadLetter => cases he
  | jobQueue => exact show ListensTo subjectJobQueue by decide
  | requestSent => exact show ListensTo subjectJobRequestSent by decide
  | requestTimeout => exact show ListensTo subjectJobRequestTimeout by decide
  | replyReceived => exact show ListensTo subjectJobReplyReceived by decide
  | replayed => exact show ListensTo subjectJobReplayed by decide
  | repaired => exact show ListensTo subjectJobSubmitted by decide
  | reprocessed => exact show ListensTo subjectJobReprocessed by decide

/-- The headers of a submitted job that the tracker reads. -/
theorem Plain.header_jobSubmitted {job : Job} {now : Time} {trace : GoMap String}
    (hp : (jobSubmitted job now trace).Plain) :
    (Messaging.jobSubmitted job now trace).header.get "X-Source" =
        (if job.source = "" then "job-service" else job.source) ∧
      tapID (Messaging.jobSubmitted job now trace) =
        if job.msgID = "" then s!"msg-sub-{job.jobID}-{now}" else job.msgID := by
  have hkeep (key : String) (hkey : key ∈ ["Nats-Msg-Id", "X-Message-Id", "X-Source"]) :
      (Messaging.jobSubmitted job now trace).header.get key =
        (publisherHeader job now).get key := by
    refine get_jobSubmitted fun e he => ?_
    rintro rfl
    exact hp.headers e he hkey
  rw [tapID, hkeep "Nats-Msg-Id" (by simp), hkeep "X-Message-Id" (by simp),
    hkeep "X-Source" (by simp)]
  by_cases hid : job.msgID = ""
  · have hnone : Header.get [] "Nats-Msg-Id" = "" := rfl
    simp [publisherHeader, hid, hnone]
  · simp [publisherHeader, hid]

theorem Plain.header_jobQueue {job : Job} {now : Time} {trace : GoMap String}
    (hp : (jobQueue job now trace).Plain) (hid : job.jobID ≠ "") :
    (Messaging.jobQueue job now trace).header.get "X-Source" = "job-service" ∧
      tapID (Messaging.jobQueue job now trace) = job.jobID := by
  have htrace (key : String) (hkey : key ∈ ["Nats-Msg-Id", "X-Message-Id", "X-Source"]) :
      ∀ e ∈ trace, e.1 ≠ key := by
    rintro e he rfl
    exact hp.headers e he hkey
  rw [tapID, Messaging.jobQueue, get_foldl_set_of_none (htrace "Nats-Msg-Id" (by simp)),
    get_foldl_set_of_none (htrace "X-Source" (by simp))]
  simp [hid]

/-- What the tracker makes of a publication is what the publication is about. -/
theorem Plain.lifecycleEvent_eq (hp : p.Plain) {e : Event} (he : p.event = some e)
    (hid : e.jobID ≠ "") :
    lifecycleEvent p.msg.subject (p.msg.header.get "X-Source") (tapID p.msg) p.payload = e := by
  cases p with
  | jobSubmitted job now trace =>
    obtain ⟨hsource, hmsgID⟩ := hp.header_jobSubmitted
    have hsource' : (if job.source = "" then "job-service" else job.source) ≠ "" := by
      split_ifs with h
      · decide
      · exact h
    have hmsgID' : (if job.msgID = "" then s!"msg-sub-{job.jobID}-{now}" else job.msgID) ≠ "" := by
      split_ifs with h
      · simp
      · exact h
    rw [msg, hsource, hmsgID]
    rw [subject_jobSubmitted]
    rcases event_jobSubmitted he with ⟨hown, rfl⟩ | ⟨hown, hlistens, rfl⟩
    · rw [if_neg hown]
      refine (lifecycleEvent_subscribed job (by decide) hsource' hmsgID').trans ?_
      have hlisted : listedSubject "jobs.submitted" = "jobs.submitted" := by decide
      have hstatus : jobStatuses.lookup "jobs.submitted" = some "PUBLISHED" := by decide
      by_cases hmode : job.deliveryMode = "" <;>
        simp [submittedEvent, publishMode, hlisted, hstatus, hmode]
    · rw [if_pos hown]
      exact lifecycleEvent_subscribed job hlistens.1 hsource' hmsgID'
  | jobQueue job now trace =>
    obtain rfl := Option.some_inj.mp he
    obtain ⟨hsource, hmsgID⟩ := hp.header_jobQueue hid
    rw [msg, hsource, hmsgID]
    have hlistens : Subscribed "jobs.>" "jobs.queue" := by decide
    refine (lifecycleEvent_subscribed job hlistens (by decide) hid).trans ?_
    have hlisted : listedSubject "jobs.queue" = "jobs.queue" := by decide
    have hstatus : jobStatuses.lookup "jobs.queue" = some "PUBLISHED" := by decide
    by_cases hmode : job.deliveryMode = "" <;>
      simp [hlisted, hstatus, hmode]
  | jobLifecycle l now =>
    obtain rfl := Option.some_inj.mp he
    have hk := known_of_mem (hp.kind l now rfl).1
    have hid' : l.jobID ≠ "" := hid
    have hsource : (Messaging.jobLifecycle l now).header.get "X-Source" = l.workerName := by
      simp [Messaging.jobLifecycle]
    have hmsgID : tapID (Messaging.jobLifecycle l now) = l.jobID := by
      simp [tapID, Messaging.jobLifecycle, hid']
    have hevent := Option.some_inj.mp (lifecycleEvent_known hk now hid')
    rw [msg, hsource, hmsgID]
    exact hevent.symm
  | jobValidate => cases he
  | deadLetter => cases he
  | requestSent job =>
    obtain rfl := Option.some_inj.mp he
    rfl
  | requestTimeout job =>
    obtain rfl := Option.some_inj.mp he
    rfl
  | replyReceived job =>
    obtain rfl := Option.some_inj.mp he
    rfl
  | replayed data seq =>
    obtain rfl := Option.some_inj.mp he
    have hsource : (replayMsg data seq).header.get "X-Source" = "replay-consumer" := by
      simp [replayMsg]
    have hmsgID : tapID (replayMsg data seq) = s!"replay-seq-{seq}" := by
      simp [tapID, replayMsg]
    rw [msg, hsource, hmsgID]
    have hne : s!"replay-seq-{seq}" ≠ "" := by simp
    simp only [lifecycleEvent, payload, replayPayload, hne, false_and, if_false]
    rfl
  | repaired item t1 t2 t3 =>
    obtain rfl := Option.some_inj.mp he
    have hsource : (repairedMsg item t1 t2 t3).header.get "X-Source" = "demo-control" := by
      simp [repairedMsg]
    have hmsgID : tapID (repairedMsg item t1 t2 t3) = s!"rep-{item.jobID}-{t2}" := by
      simp [tapID, repairedMsg]
    have hne : s!"rep-{item.jobID}-{t2}" ≠ "" := by simp
    rw [msg, hsource, hmsgID]
    have hlistens : Subscribed "jobs.>" "jobs.submitted" := by decide
    exact lifecycleEvent_subscribed (repairedJob item t1) hlistens (by decide) hne
  | reprocessed item =>
    obtain rfl := Option.some_inj.mp he
    have hid' : item.jobID ≠ "" := hid
    have hsource : (reprocessedEvent item).header.get "X-Source" = "demo-control" := by
      simp [reprocessedEvent]
    have hmsgID : tapID (reprocessedEvent item) = item.jobID := by
      simp [tapID, reprocessedEvent, hid']
    rw [msg, hsource, hmsgID]
    simp only [lifecycleEvent, payload, reprocessedPayload, hid', false_and, if_false]
    rfl

/-- What the log does not listen to makes no difference. -/
theorem onMessage_of_not_listensTo {m : Msg} (hm : Subscribed "jobs.>" m.subject)
    (hnot : ¬ ListensTo m.subject) (t : Tracker) (zone : Time → Time) (why : String) (now : Time) :
    t.onMessage zone why m now = t := by
  have hmem : m.subject ∈ ["jobs.validate", "jobs.dlq"] :=
    not_not.mp fun hnone => hnot ⟨hm, hnone⟩
  rcases List.mem_cons.mp hmem with hvalidate | hdlq
  · exact onMessage_validate hvalidate t zone why now
  · exact onMessage_dlq (List.mem_singleton.mp hdlq) t zone why now

theorem not_listensTo_of_event_eq_none (he : p.event = none) : ¬ ListensTo p.msg.subject := by
  cases p with
  | jobSubmitted job now trace =>
    rw [event] at he
    split_ifs at he with hown hlistens
    rw [msg, subject_jobSubmitted, if_pos hown]
    exact hlistens
  | jobValidate => exact show ¬ ListensTo subjectJobValidate by decide
  | deadLetter => exact show ¬ ListensTo subjectJobDLQ by decide
  | _ => cases he

/-- **A publication is listed as what it is about.**  Whatever its form, the subscription adds
just the event that it is to be listed as, if there is one. -/
theorem Plain.onMessage_eq (hp : p.Plain) (hlistens : Subscribed "jobs.>" p.msg.subject)
    (t : Tracker) (zone : Time → Time) (why : String) (now : Time) :
    t.onMessage zone why p.msg now =
      p.told.elim t fun e => t.addEvent zone e now := by
  cases he : p.event with
  | none =>
    have htold : p.told = none := by
      rw [told, he]
      rfl
    rw [htold, onMessage_of_not_listensTo hlistens (not_listensTo_of_event_eq_none he)]
    rfl
  | some e =>
    obtain ⟨hvalidate, hdlq⟩ : p.msg.subject ≠ "jobs.validate" ∧ p.msg.subject ≠ "jobs.dlq" := by
      simpa using (hp.listensTo he).2
    rw [Control.onMessage_eq (hp.unmarshal he) hvalidate hdlq, payload_jobID he, told, he]
    by_cases hid : e.jobID = ""
    · simp [hid, Option.filter_some]
    · rw [if_neg hid, hp.lifecycleEvent_eq he hid]
      simp [hid, Option.filter_some]

end Publication

end NatsDemo.Control
