import NatsDemo.Lib.Threads
import NatsDemo.Messaging.Publisher
import NatsDemo.Processor.App

/-!
# What the processor's code does to the outside

The operations of the worker programs: the sections they run under a lock, and their
calls to the broker.  A call that can fail answers whether it succeeded.  Logging, tracing
and sleeping have no operation.

Some operations name who performs them, for the sake of statements only: a write-back
of the scenario says which branch it stands in, and a publish to `jobs.dlq` says which
message of the stream it is about.
-/

namespace NatsDemo.Processor
open Lib Go Jobs Messaging

/-- What the broker says of a delivery. -/
structure Metadata where
  stream : ℕ
  numDelivered : ℕ

/-- A message handed to a worker; `seq` is what an acknowledgement of it refers to. -/
structure Delivery where
  seq : ℕ
  msg : Msg
  metadata : Option Metadata

/-- The places where a scenario is written back to normal. -/
inductive Branch where
  | crash
  | exceed
  | nak
  | term
  | batch
  deriving DecidableEq

/-- The scenario that leads to a branch. -/
def Branch.scenario : Branch → String
  | .crash => "crash_before_ack"
  | .exceed => "exceed_ack_wait"
  | .nak => "nak_message"
  | .term => "term_message"
  | .batch => "out_of_order_ack"

/-- The answers of a fetch: the messages, none in time, or another error. -/
inductive Fetched where
  | batch (ds : List Delivery)
  | timeout
  | error

instance : Inhabited Fetched := ⟨.timeout⟩

/-- A lifecycle event for the observers. -/
structure LifecycleEvent where
  subject : String
  jobID : String
  status : String
  deliveryCount : ℕ
  error : String
  worker : String
  deliveryMode : String

/-- The reply to a validation request. -/
structure ValidationResponse where
  valid : Bool
  message : String

inductive Op where
  /-- `processingEnabled`, and whether `jsConsumer` is bound. -/
  | loadFlags
  | readEnabled
  | readScenario
  | resetScenario (b : Branch)
  | recordWorkerPull (worker : String)
  | recordWorkerEvent (jobID jobType tag tagColor details : String) (attempt : ℕ)
      (deliveryMode : String)
  | crashGoroutine (worker : String)
  | respawn (worker : String)
  | readAckPolicy
  | ctxDone (ctx : ℕ)
  | unbindConsumer
  | subscribeJetStream
  | now
  | fetch (n : ℕ)
  | ack (seq : ℕ)
  | nak (seq : ℕ)
  | nakWithDelay (seq : ℕ) (delay : ℤ)
  | term (seq : ℕ)
  | inProgress (seq : ℕ)
  | publishDLQ (origin : ℕ) (m : Msg)
  | readWorkers
  | nextCoreWorker (workersCount : ℕ)
  | countAttempt (jobID : String)
  | countQueueMessage (worker : String)
  | publishJobLifecycle (e : LifecycleEvent)
  | respond (resp : ValidationResponse)

abbrev Op.Res : Op → Type
  | .loadFlags => Bool × Bool
  | .readScenario => String × Bool
  | .respawn _ => ℕ
  | .readAckPolicy => String
  | .readEnabled | .ctxDone _ | .ack _ | .nak _ | .nakWithDelay _ _ | .term _ | .inProgress _
  | .publishDLQ _ _ => Bool
  | .now => Time
  | .fetch _ => Fetched
  | .readWorkers | .countAttempt _ => ℕ
  | .nextCoreWorker _ => String
  | .resetScenario _ | .recordWorkerPull _ | .recordWorkerEvent .. | .crashGoroutine _
  | .unbindConsumer | .subscribeJetStream | .countQueueMessage _ | .publishJobLifecycle _
  | .respond _ => Unit

/-- What is left to a supervisor: the worker to respawn, and what to report of the job
that its crash interrupted. -/
structure Supervision where
  worker : String
  jobID : String
  jobType : String
  deliveryMode : String
  attempt : ℕ

/-- The second message of an out-of-order batch, held back while the third one, of the
stream sequence `seq3`, is acknowledged. -/
structure Hole where
  d : Delivery
  job : Job
  deliveryMode : String
  attempt : ℕ
  seq3 : ℕ

/-- The goroutines: an iteration of a pull loop, a call of `handleJetStreamMsg`, a
supervisor, the holder of a hole, and the callbacks of the Core subscription, of a
subscription to the queue group and of that to validation requests. -/
inductive Label where
  | pull (ctx : ℕ) (worker : String)
  | handle (d : Delivery) (worker : String)
  | supervise (s : Supervision)
  | healGap (h : Hole)
  | core (m : Msg)
  | queue (m : Msg) (worker : String)
  | validate (m : Msg) (worker : String)

/-- The programs; the result of a thread says whether its pull loop must end. -/
abbrev Prog := Proc (Call Op Label) (Call.Res Op.Res Bool)

/-- Every call has an answer. -/
def someAnswer : (c : Call Op Label) → Call.Res Op.Res Bool c
  | .prim o => by cases o <;> exact default
  | .fork _ => 0
  | .await _ => false

def op (o : Op) : Prog (Op.Res o) := Proc.perform (Call.prim o)
def fork (l : Label) : Prog ℕ := Proc.perform (Call.fork l)
def await (i : ℕ) : Prog Bool := Proc.perform (Call.await i)

@[simp] theorem op_eq (o : Op) : op o = Proc.call (Call.prim o) Proc.ret := rfl
@[simp] theorem fork_eq (l : Label) : fork l = Proc.call (Call.fork l) Proc.ret := rfl
@[simp] theorem await_eq (i : ℕ) : await i = Proc.call (Call.await i) Proc.ret := rfl

end NatsDemo.Processor
