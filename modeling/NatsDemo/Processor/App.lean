import NatsDemo.Go.Map
import NatsDemo.Go.Number
import NatsDemo.Go.Time

/-!
# The state of the processor

The fields of `App` that the workers and the controls read and write, and the sections
they run under `mu` and `scenarioMu`, one definition for each.  A context is known by
the number of the pull loop that runs on it, and `workerCancels` is the list of these
numbers.  A section that starts or stops loops gives a `Change`: what becomes of the
`App`, which contexts are cancelled, and which loops are started on new contexts, these
being numbered from `next` on.
-/

namespace NatsDemo.Processor
open Go

inductive GoroutineStatus where
  | running
  | degraded
  | crashed
  | paused
  deriving DecidableEq

structure ConsumerConfig where
  type : String := "durable"
  workers : ℕ := 1
  ordering : String := "normal"
  deliverPolicy : String := "all"
  ackPolicy : String := "explicit"

structure ProcessorEvent where
  jobID : String
  jobType : String
  tag : String
  tagColor : String
  details : String
  timestamp : String
  deliveryMode : String
  attempt : ℤ

/-- The name of the pull worker in a slot. -/
def workerName (i : ℕ) : String := s!"processor-{i}"

/-- The defaults are what `Init` sets.  `sub`, `valSub` and `jsConsumer` say whether the
Core subscription, the one to validation requests and the JetStream consumer are bound,
`queueSubs` names the workers of the active subscriptions to the queue group, and
`name` is the `PROCESSOR_NAME`. -/
structure App where
  name : String := workerName 1
  processingEnabled : Bool := true
  sub : Bool := false
  valSub : Bool := false
  jsConsumer : Bool := false
  consumerConfig : ConsumerConfig := {}
  consumerName : String := "job-processor"
  workerCancels : List ℕ := []
  activeScenario : String := "normal"
  scenarioOnce : Bool := true
  activeGoroutines : ℕ := 1
  goroutineStatus : GoroutineStatus := .running
  crashedWorker : String := ""
  attempts : GoMap ℕ := []
  coreWorkerCounter : ℕ := 0
  consumerDistribution : GoMap ℕ := (List.range' 1 5).map fun i => (workerName i, 0)
  queueWorkersCount : ℕ := 1
  queueSubs : List String := []
  queueDistribution : GoMap ℕ := (List.range' 1 5).map fun i => (workerName i, 0)
  /-- The newest first. -/
  events : List ProcessorEvent := []

namespace App

/-! ## Events and counters -/

/-- `eventTracker.Record` under the capacity 50 of `Init`. -/
def record (e : ProcessorEvent) (a : App) : App :=
  { a with events := (e :: a.events).take 50 }

/-- `shown` is what the local clock shows when the event is stamped. -/
def recordWorkerEvent (jobID jobType tag tagColor details : String) (attempt : ℤ)
    (deliveryMode : String) (shown : Time) (a : App) : App :=
  a.record ⟨jobID, jobType, tag, tagColor, details, Time.formatClock shown,
    if deliveryMode = "" then "JETSTREAM" else deliveryMode, attempt⟩

def recordWorkerPull (worker : String) (a : App) : App :=
  let count := (GoMap.get? a.consumerDistribution worker).getD 0 + 1
  { a with consumerDistribution := GoMap.set a.consumerDistribution worker count }

def countQueueMessage (worker : String) (a : App) : App :=
  let count := (GoMap.get? a.queueDistribution worker).getD 0 + 1
  { a with queueDistribution := GoMap.set a.queueDistribution worker count }

/-- Count one more attempt of a Core job, and give the count. -/
def countAttempt (jobID : String) (a : App) : ℕ × App :=
  let n := (GoMap.get? a.attempts jobID).getD 0 + 1
  (n, { a with attempts := GoMap.set a.attempts jobID n })

/-- The worker a Core job is counted for, in turn, on a counter of 64 bits. -/
def nextCoreWorker (workersCount : ℕ) (a : App) : String × App :=
  (workerName (a.coreWorkerCounter % workersCount + 1),
    { a with coreWorkerCounter := (a.coreWorkerCounter + 1) % 2 ^ 64 })

/-! ## Scenarios -/

/-- The request `PUT /processor/scenario`. -/
def putScenario (scenario : String) (once : Bool) (a : App) : App :=
  { a with activeScenario := if scenario = "" then "normal" else scenario, scenarioOnce := once }

/-- The write-back of a scenario that is to fire once. -/
def resetScenario (a : App) : App := { a with activeScenario := "normal" }

end App

/-! ## The worker pool -/

structure Change where
  app : App
  cancelled : List ℕ := []
  started : List String := []

/-- What `fmt.Sscanf(wName, "processor-%d", &idx)` scans. -/
def scanWorker (wName : String) : Option ℤ :=
  let pre := "processor-".toList
  if pre.isPrefixOf wName.toList then
    let cs := (wName.toList.drop pre.length).dropWhile (· = ' ')
    let neg := cs.head? = some '-'
    let ds := (if neg ∨ cs.head? = some '+' then cs.tail else cs).takeWhile Char.isDigit
    let n : ℕ := ds.foldl (fun acc c => 10 * acc + (c.toNat - '0'.toNat)) 0
    if ds = [] ∨ 2 ^ 63 ≤ n then none else some (if neg then -n else n)
  else none

/-- A requested pool size, between 1 and 5. -/
def clampWorkers (targetCount : ℤ) : ℕ :=
  if targetCount ≤ 0 then 1 else if 5 < targetCount then 5 else targetCount.toNat

namespace App

def scaleWorkers (next : ℕ) (targetCount : ℤ) (a : App) : Change :=
  let target := if a.consumerConfig.ordering = "ordered" then 1 else clampWorkers targetCount
  let current := a.workerCancels.length
  -- the sizes differ in one direction only, so this is the list after either loop
  let cancels := a.workerCancels.take target ++ List.range' next (target - current)
  let a' : App := { a with
    consumerConfig := { a.consumerConfig with workers := target }
    workerCancels := cancels
    activeGoroutines := cancels.length
    goroutineStatus := .running
    crashedWorker := "" }
  ⟨a', a.workerCancels.drop target, (List.range' (current + 1) (target - current)).map workerName⟩

def startWorkers (next : ℕ) (a : App) : Change :=
  let configured := if a.consumerConfig.workers = 0 then 1 else a.consumerConfig.workers
  let workersCount := if a.consumerConfig.ordering = "ordered" then 1 else configured
  let a' : App := { a with
    workerCancels := List.range' next workersCount
    activeGoroutines := workersCount
    goroutineStatus := .running
    crashedWorker := "" }
  ⟨a', a.workerCancels, (List.range' 1 workersCount).map workerName⟩

/-- The section of a simulated crash; the counter stops at zero. -/
def crashGoroutine (worker : String) (a : App) : App :=
  let active := a.activeGoroutines - 1
  { a with
    activeGoroutines := active
    crashedWorker := worker
    goroutineStatus := if 0 < active then .degraded else .crashed }

/-- The section of the supervisor, 5.5 s after the crash. -/
def respawn (next : ℕ) (worker : String) (a : App) : Change :=
  let total := a.workerCancels.length
  let active := a.activeGoroutines + 1
  let a' : App := { a with
    activeGoroutines := active
    goroutineStatus := if total ≤ active then .running else a.goroutineStatus
    crashedWorker := if total ≤ active then "" else a.crashedWorker
    workerCancels := match scanWorker worker with
      | some idx =>
        if 1 ≤ idx ∧ idx ≤ total then a.workerCancels.set (idx - 1).toNat next
        else a.workerCancels ++ [next]
      | none => a.workerCancels ++ [next] }
  ⟨a', [], [worker]⟩

/-! ## Switching the processor on and off -/

def setEnabled (enabled : Bool) (a : App) : App := { a with processingEnabled := enabled }

def subscribeCore (ok : Bool) (a : App) : App := { a with sub := a.sub || ok }

def unsubscribeCore (a : App) : App := { a with sub := false }

end App

/-- How far the broker calls of `subscribeJetStream` got. -/
inductive Binding where
  | noStream
  | createFailed
  | bound
  deriving DecidableEq

namespace App

/-- An ephemeral consumer is named after the clock, unless it has a name of its own. -/
def consumerNameAt (now : Time) (a : App) : String :=
  if a.consumerConfig.type = "ephemeral" then
    if a.consumerName = "" ∨ a.consumerName = "job-processor" ∨
        a.consumerName = "processor-durable" then s!"ephemeral-{now % 100000}"
    else a.consumerName
  else "job-processor"

def subscribeJetStream (now : Time) (b : Binding) (a : App) : App :=
  if a.jsConsumer then a
  else match b with
    | .noStream => a
    | .createFailed => { a with consumerName := a.consumerNameAt now }
    | .bound => { a with consumerName := a.consumerNameAt now, jsConsumer := true }

def unsubscribeJetStream (a : App) : App := { a with jsConsumer := false }

/-- The loops stopped by `processor.state.set` with `enabled` false. -/
def cancelWorkers (a : App) : Change := ⟨{ a with workerCancels := [] }, a.workerCancels, []⟩

def subscribeValidation (ok : Bool) (a : App) : App := { a with valSub := a.valSub || ok }

/-- The calls of `QueueSubscribe` before the first that fails; `err` gives the error of the
call for a worker, if it fails. -/
def subscribed (err : ℕ → Option String) (n : ℕ) : List ℕ :=
  (List.range' 1 n).takeWhile fun i => (err i).isNone

/-- The old subscriptions go first, and those made before a failure stay. -/
def subscribeQueueGroup (err : ℕ → Option String) (a : App) : App :=
  { a with queueSubs := (subscribed err a.queueWorkersCount).map workerName }

/-- The error that `subscribeQueueGroup` returns. -/
def queueGroupError (err : ℕ → Option String) (n : ℕ) : Option String :=
  (List.range' 1 n).findSome? fun i => (err i).map fun e =>
    s!"failed to subscribe {workerName i} to queue group job-workers: {e}"

/-- The request `queuegroup.config.set`. -/
def setQueueWorkers (workers : ℤ) (err : ℕ → Option String) (a : App) : App :=
  { a with queueWorkersCount := clampWorkers workers }.subscribeQueueGroup err

/-- The request `POST /processor/restart`. -/
def httpRestart (a : App) : App :=
  { a with goroutineStatus := .running, activeGoroutines := 1 }

/-- The request `PUT /processor/state`. -/
def httpState (enabled : Bool) (a : App) : App :=
  { a with
    processingEnabled := enabled
    goroutineStatus := if enabled then .running else .paused
    activeGoroutines := if enabled then 1 else 0 }

end App

end NatsDemo.Processor
