import NatsDemo.Jobs.Handler
import NatsDemo.Lib.Embed
import NatsDemo.Lib.Rely
import NatsDemo.Processor.Transit

/-!
# Validation by request and reply

`POST /jobs/validate` of the job service and the callbacks of the processors that answer it.
A request goes out with an inbox of its own; it may reach any number of processors, late or
never, and of the replies that come to the inbox the first counts, unless the requester has
given up.  All along both sides hand events about what they are doing to the connection: `bus`
holds these, in order, whether or not anybody gets them.
-/

namespace NatsDemo.Validation
open Lib Go Jobs Messaging

/-- The errors of `RequestMsg`. -/
inductive NatsError where
  | timeout
  | noResponders
  | other (text : String)

/-- What the caller makes of them. -/
def NatsError.requestError : NatsError → RequestError
  | timeout | noResponders => .timeout
  | other text => .other (s!"NATS request to {subjectJobValidate} failed: " ++ text)

inductive Op where
  | now
  | publish (m : Msg)
  /-- The first half of `RequestMsg`, with the number of the inbox. -/
  | send (m : Msg)
  /-- The second half of it: the wait for the first reply. -/
  | receive (inbox : ℕ)
  | addJob (job : Job) (status : String)
  /-- A call of the callback that got the message of an inbox at the named processor. -/
  | callback (inbox : ℕ) (worker : String) (c : Call Processor.Op Processor.Label)

abbrev Op.Res : Op → Type
  | .now => Time
  | .publish _ | .addJob _ _ => Unit
  | .send _ => ℕ
  | .receive _ => Except NatsError (Option Json)
  | .callback _ _ c => Call.Res Processor.Op.Res Bool c

/-- A request to the endpoint: what surrounds it, its body, the headers of the propagator, and
the text for a reply that cannot be read. -/
structure Post where
  context : Context := {}
  body : Option Json
  trace : GoMap String := []
  why : String := ""

inductive Label where
  | post (p : Post)
  | callback (inbox : ℕ) (worker : String) (m : Msg)

/-- A callback ends without an answer. -/
abbrev Prog := Proc (Call Op Label) (Call.Res Op.Res (Option Answer))

def op (o : Op) : Prog (Op.Res o) := Proc.perform (Call.prim o)

@[simp] theorem op_eq (o : Op) : op o = Proc.call (Call.prim o) Proc.ret := rfl

/-! ## The requester -/

/-- The job of a request, unless it is refused. -/
def Post.job (p : Post) : Except Answer Job :=
  let r := Job.unmarshal p.body
  if !r.2 then .error (refusal 400 ("Invalid request payload: " ++ p.context.why))
  else if r.1.jobID = "" then .error (refusal 400 "job_id is required")
  else if r.1.type = "" then .error (refusal 400 "type is required")
  else .ok (p.context.traced r.1)

/-- The reply as it is read. -/
def readReply (why : String) (reply : Option Json) : Except RequestError JobValidationResponse :=
  let r := Go.unmarshal JobValidationResponse.fields ⟨false, "", ""⟩ reply
  if r.2 then .ok r.1 else .error (.other ("failed to unmarshal validation reply: " ++ why))

/-- `RequestJobValidation`. -/
def requestJobValidation (job : Job) (trace : GoMap String) (why : String) :
    Prog (Except RequestError JobValidationResponse) := do
  let now ← op .now
  op (.publish (requestSent job))
  let inbox ← op (.send (jobValidate job now trace))
  match ← op (.receive inbox) with
  | .error e =>
    op (.publish (requestTimeout job))
    return .error e.requestError
  | .ok reply =>
    match readReply why reply with
    | .error e => return .error e
    | .ok resp =>
      op (.publish (replyReceived job))
      return .ok resp

/-- The status under which the outcome is recorded. -/
def statusOf : Except RequestError JobValidationResponse → String
  | .error _ => "VALIDATION_FAILED"
  | .ok resp => if resp.valid then "VALID" else "INVALID"

/-- `ValidateJob` of the service. -/
def validateJob (job : Job) (trace : GoMap String) (why : String) :
    Prog (Except RequestError JobValidationResponse) := do
  let reply ← requestJobValidation job trace why
  op (.addJob job (statusOf reply))
  return reply

/-- The answer to the request. -/
def answerOf : Except RequestError JobValidationResponse → Answer
  | .error .timeout => refusal 504 "validation request timed out: no processor replied within 2s"
  | .error (.other e) => refusal 500 ("Failed to validate job: " ++ e)
  | .ok resp => (200, resp.marshal)

/-- `ValidateJob` of the handler. -/
def post (p : Post) : Prog Answer :=
  match p.job with
  | .error a => return a
  | .ok job => do
    let reply ← validateJob job p.trace p.why
    return answerOf reply

/-- The handler answers as it does when it is given the reply. -/
theorem validateJob_eq (s : Service) (p : Post)
    (reply : Except RequestError JobValidationResponse) :
    (JobHandler.validateJob s p.context p.body reply).1 =
      match p.job with
      | .error a => a
      | .ok _ => answerOf reply := by
  simp only [JobHandler.validateJob, Post.job]
  split_ifs
  · rfl
  · rfl
  · rfl
  · rcases reply with (_ | e) | resp <;> rfl

/-! ## The parties at work -/

/-- A message on its way, and the replies to its inbox. -/
structure Exchange where
  msg : Msg
  replies : List (Option Json) := []

structure Shared where
  store : JobStore := []
  bus : List Msg := []
  exchanges : List Exchange := []
  enabled : String → Bool := fun _ => false
  clock : Time := 0

/-- What is up to the surroundings: the error of a request, and whether a reply gets through. -/
structure Choice where
  fails : Option NatsError := none
  ok : Bool := true

inductive Input where
  | request (p : Post)
  | deliver (inbox : ℕ) (worker : String)
  | setEnabled (worker : String) (enabled : Bool)
  | tick (d : ℕ)

/-- The reply of a processor, as it is written. -/
def replyOf (resp : Processor.ValidationResponse) : JobValidationResponse :=
  ⟨resp.valid, resp.message, ""⟩

/-- An event of a processor, as it is published. -/
def eventMsg (e : Processor.LifecycleEvent) (now : Time) : Msg :=
  jobLifecycle ⟨e.subject, e.jobID, e.status, e.deliveryCount, e.error, e.worker, e.deliveryMode, 0⟩
    now

namespace Shared

/-- The first reply to an inbox, unless the request fails. -/
def receive (x : Choice) (s : Shared) (inbox : ℕ) : Except NatsError (Option Json) :=
  match x.fails, (s.exchanges[inbox]?).bind fun e => e.replies.head? with
  | some e, _ => .error e
  | none, some reply => .ok reply
  | none, none => .error .timeout

def publish (s : Shared) (m : Msg) : Shared := { s with bus := s.bus ++ [m] }

def respond (s : Shared) (inbox : ℕ) (resp : Processor.ValidationResponse) : Shared :=
  { s with exchanges := s.exchanges.modify inbox fun e =>
      { e with replies := e.replies ++ [some (replyOf resp).marshal] } }

/-- The effect of a call of a callback; it makes no others than the first three. -/
def callback (x : Choice) (s : Shared) (inbox : ℕ) (worker : String) :
    (c : Call Processor.Op Processor.Label) → Call.Res Processor.Op.Res Bool c × Shared
  | .prim .readEnabled => (s.enabled worker, s)
  | .prim (.publishJobLifecycle e) => ((), s.publish (eventMsg e s.clock))
  | .prim (.respond resp) => ((), if x.ok then s.respond inbox resp else s)
  | c => (Processor.someAnswer c, s)

/-- The effect of an operation. -/
def exec (x : Choice) (s : Shared) : (o : Op) → Op.Res o × Shared
  | .now => (s.clock, s)
  | .publish m => ((), s.publish m)
  | .send m => (s.exchanges.length, { s with exchanges := s.exchanges ++ [{ msg := m }] })
  | .receive inbox => (s.receive x inbox, s)
  | .addJob job status => ((), { s with store := s.store.addJob job status s.clock })
  | .callback inbox worker c => s.callback x inbox worker c

/-- The effect of a move of the surroundings. -/
def input (s : Shared) : Input → Shared × List Label
  | .request p => (s, [.post p])
  | .deliver inbox worker =>
    (s, (s.exchanges[inbox]?).toList.map fun e => .callback inbox worker e.msg)
  | .setEnabled worker enabled =>
    ({ s with enabled := fun w => if w = worker then enabled else s.enabled w }, [])
  | .tick d => ({ s with clock := s.clock + d }, [])

end Shared

/-- The programs: a callback is that of the processor, with its calls made in its place. -/
def program : Label → Prog (Option Answer)
  | .post p => do
    let a ← post p
    return some a
  | .callback inbox worker m => do
    let _ ← (Processor.jobValidateCallback worker m).embed
      (fun c => Call.prim (.callback inbox worker c)) fun _ r => r
    return none

/-- The machine of requesters and processors. -/
def world : Machine Shared Input Choice Op Label (Option Answer) Op.Res where
  body := program
  exec := fun o x s => s.exec x o
  env := fun e s => s.input e

abbrev State := Machine.State world
abbrev Thread := Machine.Thread world
abbrev Act := Machine.Act Input Choice

/-- No request has been made yet; the service may have records, and processors may be on. -/
def State.start (store : JobStore) (enabled : String → Bool) : State :=
  { shared := { store, enabled }, threads := [] }

def after (store : JobStore) (enabled : String → Bool) (as : List Act) : State :=
  run Machine.step (State.start store enabled) as

end NatsDemo.Validation
