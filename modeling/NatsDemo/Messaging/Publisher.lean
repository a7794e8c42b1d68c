import NatsDemo.Go.Time
import NatsDemo.Messaging.Message

/-!
# The publisher

The messages that the publisher builds.  What the trace propagator writes is its own
business, so its headers are a parameter; the custom headers of a submitted job come after
the publisher's own and replace them.
-/

namespace NatsDemo.Messaging
open Go Jobs

/-- Set the headers of a map that have a name. -/
def setCustom (h : Header) : GoMap String → Header
  | [] => h
  | (k, v) :: m => setCustom (if k = "" then h else h.set k v) m

/-- The mode a job without one is published under. -/
def publishMode (job : Job) : String :=
  if job.deliveryMode = "" then "JETSTREAM" else job.deliveryMode

def publisherHeader (job : Job) (now : Time) : Header :=
  let h : Header := Header.set [] "Content-Type"
    (if job.contentType = "" then "application/json" else job.contentType)
  let h := if job.msgID = "" then h else h.set "Nats-Msg-Id" job.msgID
  let h := h.set "X-Message-Id" s!"msg-sub-{job.jobID}-{now}"
  let h := h.set "X-Source" (if job.source = "" then "job-service" else job.source)
  h.set "X-Delivery-Mode" (publishMode job)

/-- The message of `PublishJobSubmitted`, with the headers `trace` of the propagator. -/
def jobSubmitted (job : Job) (now : Time) (trace : GoMap String) : Msg where
  subject := if job.subject = "" then subjectJobSubmitted else job.subject
  header := trace.foldl (fun h e => h.set e.1 e.2)
    (setCustom (publisherHeader job now) (job.headers.getD []))
  data := some job.marshal

/-- The message of `PublishJobQueue`. -/
def jobQueue (job : Job) (now : Time) (trace : GoMap String) : Msg where
  subject := subjectJobQueue
  header := trace.foldl (fun h e => h.set e.1 e.2)
    (((((Header.set [] "Content-Type" "application/json").set "Nats-Msg-Id" job.jobID).set
      "X-Message-Id" s!"msg-q-{job.jobID}-{now}").set "X-Source" "job-service").set
      "X-Delivery-Mode" "CORE")
  data := some job.marshal

/-- What `PublishJobLifecycle` is told. -/
structure JobLifecycle where
  subject : String
  jobID : String
  status : String
  deliveryCount : ℤ := 1
  errMsg : String := ""
  workerName : String := ""
  deliveryMode : String := ""
  sequence : ℕ := 0

/-- The message of `PublishJobLifecycle`. -/
def jobLifecycle (e : JobLifecycle) (now : Time) : Msg where
  subject := e.subject
  header := (((Header.set [] "Content-Type" "application/json").set "Nats-Msg-Id" e.jobID).set
    "X-Message-Id" s!"msg-lf-{e.jobID}-{e.status}-{now}").set "X-Source" e.workerName
  data := some (.obj ([("job_id", .str e.jobID), ("status", .str e.status),
    ("delivery_count", .int e.deliveryCount)] ++ omitEmpty "error" e.errMsg ++
    omitEmpty "delivery_mode" e.deliveryMode ++
    if e.sequence = 0 then [] else [("sequence", .int e.sequence)]))

/-- The request of `RequestJobValidation`. -/
def jobValidate (job : Job) (now : Time) (trace : GoMap String) : Msg where
  subject := subjectJobValidate
  header := trace.foldl (fun h e => h.set e.1 e.2)
    (((Header.set [] "Content-Type" "application/json").set
      "X-Message-Id" s!"msg-val-{job.jobID}-{now}").set "X-Source" "job-service")
  data := some job.marshal

/-- The events around a request, which have no id of their own. -/
def requestEvent (subject status : String) (job : Job) : Msg where
  subject := subject
  header := Header.set [] "X-Source" "job-service"
  data := some (.obj [("delivery_count", .int 1), ("job_id", .str job.jobID),
    ("status", .str status), ("type", .str job.type)])

def requestSent (job : Job) : Msg := requestEvent subjectJobRequestSent "REQUEST_SENT" job
def requestTimeout (job : Job) : Msg := requestEvent subjectJobRequestTimeout "REQUEST_TIMEOUT" job
def replyReceived (job : Job) : Msg := requestEvent subjectJobReplyReceived "REPLY_RECEIVED" job

theorem get_setCustom_of_none {h : Header} {m : GoMap String} {key : String}
    (hm : ∀ e ∈ m, e.1 ≠ key) : (setCustom h m).get key = h.get key := by
  induction m generalizing h with
  | nil => rfl
  | cons e m ih =>
    have he : key ≠ e.1 := (hm e List.mem_cons_self).symm
    have hrest := fun e' h' => hm e' (List.mem_cons_of_mem e h')
    by_cases hk : e.1 = ""
    · simp [setCustom, hk, ih hrest]
    · simp [setCustom, hk, ih hrest, Header.get_set_of_ne _ _ he]

/-- A header that is not among those set keeps its values. -/
theorem get?_foldl_set_of_none {h : Header} {m : GoMap String} {key : String}
    (hm : ∀ e ∈ m, e.1 ≠ key) :
    GoMap.get? (m.foldl (fun h e => Header.set h e.1 e.2) h) key = GoMap.get? h key := by
  induction m generalizing h with
  | nil => rfl
  | cons e m ih =>
    obtain ⟨he, hrest⟩ := List.forall_mem_cons.mp hm
    rw [List.foldl_cons, ih hrest, Header.set, GoMap.get?_set_of_ne _ _ he.symm]

theorem get_foldl_set_of_none {h : Header} {m : GoMap String} {key : String}
    (hm : ∀ e ∈ m, e.1 ≠ key) :
    (m.foldl (fun h e => Header.set h e.1 e.2) h).get key = h.get key := by
  rw [Header.get, get?_foldl_set_of_none hm, Header.get]

/-- Where neither the job nor the propagator names the header, a published message
carries the mode of its job. -/
theorem jobSubmitted_mode {job : Job} {now : Time} {trace : GoMap String}
    (hjob : ∀ e ∈ job.headers.getD [], e.1 ≠ "X-Delivery-Mode")
    (htrace : ∀ e ∈ trace, e.1 ≠ "X-Delivery-Mode") :
    (jobSubmitted job now trace).header.get "X-Delivery-Mode" = publishMode job := by
  rw [jobSubmitted, get_foldl_set_of_none htrace, get_setCustom_of_none hjob]
  simp [publisherHeader]

end NatsDemo.Messaging
