import NatsDemo.Processor.Worker

/-!
# The Core NATS subscriber

The callback that `SubscribeJobSubmitted` registers, around the handler that
`buildCoreJobHandler` makes for it.  Each of the two filters by the delivery mode in its
own way.
-/

namespace NatsDemo.Processor
open Lib Go Jobs Messaging

/-- The lifecycle event of one status of a Core job. -/
def coreEvent (job : Job) (mode worker : String) (attemptCount : ℕ)
    (subject status errMsg : String) : Prog Unit :=
  op (.publishJobLifecycle ⟨subject, job.jobID, status, attemptCount, errMsg, worker, mode⟩)

/-- The part of the Core handler behind its filter. -/
def processCore (arch : Platform) (job : Job) (mode : String) : Prog Bool := do
  let workers ← op .readWorkers
  let worker ← op (.nextCoreWorker (if workers = 0 then 1 else workers))
  let attemptCount ← op (.countAttempt job.jobID)
  let event := coreEvent job mode worker attemptCount
  event subjectJobReceived "RECEIVED" ""
  event subjectJobProcessingStarted "PROCESSING" ""
  if Handling.failureFires arch job.payload attemptCount then
    let count := (job.payload.int arch "simulate_failure_count").getD 0
    event subjectJobFailed "FAILED" s!"Simulated failure attempt {attemptCount} of {count}"
  else
    event subjectJobCompleted "COMPLETED" ""
  return false

/-- `buildCoreJobHandler`. -/
def coreJobHandler (arch : Platform) (job : Job) : Prog Bool :=
  let mode := if job.deliveryMode = "" then "CORE" else job.deliveryMode
  if mode = "JETSTREAM" then return false else processCore arch job mode

/-- The callback of `SubscribeJobSubmitted`; a missing header leaves the word to the body. -/
def jobSubmittedCallback (arch : Platform) (m : Msg) : Prog Bool :=
  match Job.parse m.data with
  | none => return false
  | some job =>
    let header := m.header.get "X-Delivery-Mode"
    let mode := if header = "" then job.deliveryMode else header
    if mode = "JETSTREAM" then return false else coreJobHandler arch job

end NatsDemo.Processor
