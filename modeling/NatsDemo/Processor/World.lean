import NatsDemo.Lib.Log
import NatsDemo.Processor.Core
import NatsDemo.Processor.Subscribers
import NatsDemo.Processor.Pool

/-!
# The processor at work

The machine of all the goroutines of the processor on the `App` and the broker.  What the
broker does is kept wide: any message of JOBS that was not settled may be delivered to
any fetch at any time, and every call may fail.  An acknowledged or terminated message is
never delivered again, and a call that fails has done nothing.

A context is known by its number, as in the registry; `puts` counts the requests that set
the scenario.
-/

namespace NatsDemo.Processor
open Lib Go Messaging

/-- A message of the stream JOBS, with its deliveries so far. -/
structure Stored where
  msg : Msg
  delivered : ℕ := 0
  settled : Bool := false

/-- An entry of the stream JOBS_DLQ, and the message of JOBS it was made from. -/
structure DeadLetter where
  origin : ℕ
  msg : Msg

structure Shared where
  app : App := {}
  cancelled : List Bool := []
  puts : ℕ := 0
  jobs : List Stored := []
  /-- The window is that of a stream which does not set one. -/
  dlq : Log String DeadLetter := { window := 120 * Time.second }
  clock : Time := 0

/-- What is not up to the processor in a step: whether a call succeeds, which messages a
fetch gets, if any come in time, how far a subscription gets, and what the local clock showed
when an event was stamped, which is some time before it is recorded. -/
structure Choice where
  ok : Bool := true
  picks : List ℕ := []
  inTime : Bool := true
  binding : Binding := .bound
  shown : Time := 0

/-- The moves of the surroundings: requests of the controls, messages stored in JOBS,
messages for a member of the queue group and validation requests, and the passing of
time. -/
inductive Input where
  | putScenario (scenario : String) (once : Bool)
  | control (a : Section)
  | subscribeValidation (ok : Bool)
  | subscribeQueueGroup (err : ℕ → Option String)
  | setQueueWorkers (workers : ℤ) (err : ℕ → Option String)
  | store (m : Msg)
  | queue (i : ℕ) (m : Msg)
  | validate (m : Msg)
  | tick (d : ℕ)

/-- The delivery of the messages picked that are there and not settled. -/
def deliver (jobs : List Stored) : List ℕ → List Delivery × List Stored
  | [] => ([], jobs)
  | q :: qs =>
    match jobs[q]? with
    | some j =>
      if j.settled then deliver jobs qs
      else
        let r := deliver (jobs.set q { j with delivered := j.delivered + 1 }) qs
        (⟨q, j.msg, some ⟨q + 1, j.delivered + 1⟩⟩ :: r.1, r.2)
    | none => deliver jobs qs

/-- What a section of the controls does to the `App`; crashes and respawns are the work of
the workers themselves. -/
def Section.change (next : ℕ) (a : App) : Section → Change
  | .setEnabled b => ⟨a.setEnabled b, [], []⟩
  | .subscribeCore ok => ⟨a.subscribeCore ok, [], []⟩
  | .unsubscribeCore => ⟨a.unsubscribeCore, [], []⟩
  | .subscribeJetStream now b => ⟨a.subscribeJetStream now b, [], []⟩
  | .unsubscribeJetStream => ⟨a.unsubscribeJetStream, [], []⟩
  | .startWorkers => a.startWorkers next
  | .cancelWorkers => a.cancelWorkers
  | .scaleWorkers n => a.scaleWorkers next n
  | .httpState b => ⟨a.httpState b, [], []⟩
  | .httpRestart => ⟨a.httpRestart, [], []⟩
  | .crash _ | .respawn _ => ⟨a, [], []⟩

namespace Shared

/-- Carry out a change: cancel contexts, and add new ones for the loops it starts. -/
def apply (s : Shared) (c : Change) : Shared :=
  { s with
    app := c.app
    cancelled := s.cancelled.mapIdx (fun i b => b || i ∈ c.cancelled) ++
      c.started.map fun _ => false }

/-- The pull loops that a change starts. -/
def loops (s : Shared) (c : Change) : List Label :=
  c.started.mapIdx fun i w => .pull (s.cancelled.length + i) w

/-- A message is acknowledged or terminated, if the call gets through. -/
def settle (s : Shared) (ok : Bool) (seq : ℕ) : Bool × Shared :=
  (ok, if ok then { s with jobs := s.jobs.modify seq fun j => { j with settled := true } } else s)

def publishDLQ (s : Shared) (ok : Bool) (origin : ℕ) (m : Msg) : Bool × Shared :=
  (ok, if ok then
    { s with dlq := s.dlq.publish s.clock m.msgID ⟨origin, m⟩ } else s)

def fetch (s : Shared) (x : Choice) (n : ℕ) : Fetched × Shared :=
  if x.ok then
    if x.inTime then
      let r := deliver s.jobs (x.picks.take n)
      (.batch r.1, { s with jobs := r.2 })
    else (.timeout, s)
  else (.error, s)

/-! ### What the calls to the broker leave alone -/

theorem settle_frame (s : Shared) (ok : Bool) (seq : ℕ) :
    (s.settle ok seq).2 = { s with jobs := (s.settle ok seq).2.jobs } := by
  cases ok <;> rfl

theorem publishDLQ_frame (s : Shared) (ok : Bool) (origin : ℕ) (m : Msg) :
    (s.publishDLQ ok origin m).2 = { s with dlq := (s.publishDLQ ok origin m).2.dlq } := by
  cases ok <;> rfl

theorem fetch_frame (s : Shared) (x : Choice) (n : ℕ) :
    (s.fetch x n).2 = { s with jobs := (s.fetch x n).2.jobs } := by
  simp only [fetch]
  split_ifs <;> rfl

section
variable (s : Shared) (x : Choice) (ok : Bool) (n seq origin : ℕ) (m : Msg)

@[simp] theorem app_settle : (s.settle ok seq).2.app = s.app := by rw [settle_frame]
@[simp] theorem puts_settle : (s.settle ok seq).2.puts = s.puts := by rw [settle_frame]
@[simp] theorem dlq_settle : (s.settle ok seq).2.dlq = s.dlq := by rw [settle_frame]

@[simp] theorem app_publishDLQ : (s.publishDLQ ok origin m).2.app = s.app := by
  rw [publishDLQ_frame]
@[simp] theorem puts_publishDLQ : (s.publishDLQ ok origin m).2.puts = s.puts := by
  rw [publishDLQ_frame]
@[simp] theorem jobs_publishDLQ : (s.publishDLQ ok origin m).2.jobs = s.jobs := by
  rw [publishDLQ_frame]

@[simp] theorem app_fetch : (s.fetch x n).2.app = s.app := by rw [fetch_frame]
@[simp] theorem puts_fetch : (s.fetch x n).2.puts = s.puts := by rw [fetch_frame]
@[simp] theorem dlq_fetch : (s.fetch x n).2.dlq = s.dlq := by rw [fetch_frame]

end

/-- The effect of an operation. -/
def exec (x : Choice) (s : Shared) : (o : Op) → Op.Res o × Shared
  | .loadFlags => ((s.app.processingEnabled, s.app.jsConsumer), s)
  | .readScenario => ((s.app.activeScenario, s.app.scenarioOnce), s)
  | .resetScenario _ => ((), { s with app := s.app.resetScenario })
  | .recordWorkerPull w => ((), { s with app := s.app.recordWorkerPull w })
  | .recordWorkerEvent jobID jobType tag tagColor details attempt mode =>
    ((), { s with app := s.app.recordWorkerEvent jobID jobType tag tagColor details attempt mode
                    x.shown })
  | .crashGoroutine w => ((), { s with app := s.app.crashGoroutine w })
  | .respawn w => (s.cancelled.length, s.apply (s.app.respawn s.cancelled.length w))
  | .readAckPolicy => (s.app.consumerConfig.ackPolicy, s)
  | .ctxDone ctx => ((s.cancelled[ctx]?).getD true, s)
  | .unbindConsumer => ((), { s with app := s.app.unsubscribeJetStream })
  | .subscribeJetStream => ((), { s with app := s.app.subscribeJetStream s.clock x.binding })
  | .now => (s.clock, s)
  | .fetch n => s.fetch x n
  | .ack seq => s.settle x.ok seq
  | .nak _ => (x.ok, s)
  | .nakWithDelay _ _ => (x.ok, s)
  | .term seq => s.settle x.ok seq
  | .inProgress _ => (x.ok, s)
  | .publishDLQ origin m => s.publishDLQ x.ok origin m
  | .readWorkers => (s.app.consumerConfig.workers, s)
  | .nextCoreWorker n =>
    ((s.app.nextCoreWorker n).1, { s with app := (s.app.nextCoreWorker n).2 })
  | .countAttempt jobID =>
    ((s.app.countAttempt jobID).1, { s with app := (s.app.countAttempt jobID).2 })
  | .readEnabled => (s.app.processingEnabled, s)
  | .countQueueMessage w => ((), { s with app := s.app.countQueueMessage w })
  | .publishJobLifecycle _ => ((), s)
  | .respond _ => ((), s)

/-- The effect of a move of the surroundings, and the goroutines it starts. -/
def input (s : Shared) : Input → Shared × List Label
  | .putScenario scenario once =>
    ({ s with app := s.app.putScenario scenario once, puts := s.puts + 1 }, [])
  | .control a =>
    let c := a.change s.cancelled.length s.app
    (s.apply c, s.loops c)
  | .subscribeValidation ok => ({ s with app := s.app.subscribeValidation ok }, [])
  | .subscribeQueueGroup err => ({ s with app := s.app.subscribeQueueGroup err }, [])
  | .setQueueWorkers workers err => ({ s with app := s.app.setQueueWorkers workers err }, [])
  | .store m =>
    ({ s with jobs := s.jobs ++ [{ msg := m }] }, if s.app.sub then [.core m] else [])
  | .queue i m => (s, (s.app.queueSubs[i]?).toList.map fun w => .queue m w)
  | .validate m => (s, if s.app.valSub then [.validate m s.app.name] else [])
  | .tick d => ({ s with clock := s.clock + d }, [])

end Shared

/-- The programs of the goroutines. -/
def program (arch : Platform) : Label → Prog Bool
  | .pull ctx w => jsPullLoop ctx w
  | .handle d w => handleJetStreamMsg arch d w
  | .supervise s => supervise s
  | .healGap h => healGap h
  | .core m => jobSubmittedCallback arch m
  | .queue m w => handleQueueMessage w m
  | .validate m w => jobValidateCallback w m

/-- The machine of the processor. -/
def world (arch : Platform) : Machine Shared Input Choice Op Label Bool Op.Res where
  body := program arch
  exec := fun o x s => s.exec x o
  env := fun e s => s.input e

abbrev State (arch : Platform) := Machine.State (world arch)
abbrev Thread (arch : Platform) := Machine.Thread (world arch)
abbrev Act := Machine.Act Input Choice

def stepWorld (arch : Platform) (s : State arch) (a : Act) : State arch := Machine.step s a

/-- Nothing has happened: neither a goroutine nor a message is there. -/
def State.empty (arch : Platform) : State arch := { shared := {}, threads := [] }

/-- The goroutines that `Run` starts come from the first inputs of a run. -/
def startUp : List Act :=
  [.env (.control (.subscribeJetStream 0 .bound)), .env (.control .startWorkers),
    .env (.control (.subscribeCore true))]

/-- The subscriptions of mode "all" come on top. -/
def startAll : List Act :=
  startUp ++ [.env (.subscribeValidation true), .env (.subscribeQueueGroup fun _ => none)]

/-- The next calls of a goroutine, when all of them succeed. -/
def calls (i n : ℕ) : List Act := List.replicate n (.op i {})

/-- An iteration of a pull loop that fetches the message `q` and starts its handling. -/
def pulling (i q : ℕ) : List Act := calls i 3 ++ .op i { picks := [q] } :: calls i 1

/-- A JetStream job as it comes over the bus. -/
def jetStreamMsg (jobID : String) (payload : List (String × Json)) : Msg where
  subject := subjectJobSubmitted
  header := [("X-Delivery-Mode", ["JETSTREAM"])]
  data := some (.obj [("job_id", .str jobID), ("payload", .obj payload)])

end NatsDemo.Processor
