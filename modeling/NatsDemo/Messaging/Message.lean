import NatsDemo.Jobs.Model

/-!
# Messages on the bus

The headers of a message are a map whose keys are compared exactly; reading a header
gives its first value, and the empty string where there is none.
-/

namespace NatsDemo.Messaging
open Go

abbrev Header := GoMap (List String)

namespace Header

/-- `header.Get(key)`. -/
def get (h : Header) (key : String) : String := ((GoMap.get? h key).getD []).headD ""

/-- `header.Set(key, value)`. -/
def set (h : Header) (key value : String) : Header := GoMap.set h key [value]

@[simp] theorem get_set_self (h : Header) (key value : String) :
    (h.set key value).get key = value := by simp [get, set]

@[simp] theorem get_set_of_ne (h : Header) {key key' : String} (value : String)
    (hne : key' ≠ key) : (h.set key value).get key' = h.get key' := by
  simp [get, set, GoMap.get?_set_of_ne _ _ hne]

end Header

/-- A message; `none` is a body that is not JSON. -/
structure Msg where
  subject : String
  header : Header := []
  data : Option Json := none

/-- The identifier that a stream deduplicates by, where the header gives one. -/
def Msg.msgID (m : Msg) : Option String :=
  if m.header.get "Nats-Msg-Id" = "" then none else some (m.header.get "Nats-Msg-Id")

/-- What the body has under a key, if it is an object. -/
def Msg.member (m : Msg) (key : String) : Option Json := m.data.bind (Json.member key)

/-! ## Subjects -/

/-- The tokens of a subject, which its dots separate. -/
def tokens (subject : String) : List (List Char) := subject.toList.splitOn '.'

/-- A pattern matches token by token: a star stands for any one, and a last arrow for any
number of further ones, but not for none.  No token of a subject is empty. -/
def matchTokens : List (List Char) → List (List Char) → Bool
  | [['>']], t :: ts => (t :: ts).all fun t => !t.isEmpty
  | p :: ps, t :: ts => (p = ['*'] || p = t) && !t.isEmpty && matchTokens ps ts
  | [], [] => true
  | _, _ => false

/-- A subscription to the pattern gets what is published on the subject. -/
def Subscribed (pattern subject : String) : Prop := matchTokens (tokens pattern) (tokens subject)

instance (pattern subject : String) : Decidable (Subscribed pattern subject) :=
  inferInstanceAs (Decidable (_ = true))

example : Subscribed "jobs.>" "jobs.request.sent" ∧ ¬ Subscribed "jobs.*" "jobs.request.sent" ∧
    ¬ Subscribed "jobs.>" "jobs" := by decide

def subjectJobValidate : String := "jobs.validate"
def subjectJobSubmitted : String := "jobs.submitted"
def subjectJobReceived : String := "jobs.received"
def subjectJobProcessingStarted : String := "jobs.processing.started"
def subjectJobCompleted : String := "jobs.completed"
def subjectJobFailed : String := "jobs.failed"
def subjectJobQueue : String := "jobs.queue"
def subjectJobQueueReceived : String := "jobs.queue.received"
def subjectJobQueueCompleted : String := "jobs.queue.completed"
def subjectJobRequestReceived : String := "jobs.request.received"
def subjectJobReplySent : String := "jobs.reply.sent"
def subjectJobRequestSent : String := "jobs.request.sent"
def subjectJobRequestTimeout : String := "jobs.request.timeout"
def subjectJobReplyReceived : String := "jobs.reply.received"
def subjectJobReplayed : String := "jobs.replayed"
def subjectJobDLQ : String := "jobs.dlq"
def subjectJobReprocessed : String := "jobs.reprocessed"

def queueGroupJobWorkers : String := "job-workers"

end NatsDemo.Messaging
