import NatsDemo.Processor.Ops

/-!
# The queue group and the validation requests

The other two subjects the processor listens on in mode "all".  A message of `jobs.queue`
goes to one member of the queue group; a request on `jobs.validate` is answered, unless
the processor is off.
-/

namespace NatsDemo.Processor
open Lib Go Jobs Messaging

/-- `handleQueueMessage`. -/
def handleQueueMessage (workerName : String) (m : Msg) : Prog Bool :=
  match Job.parse m.data with
  | none => return false
  | some job => do
    op (.countQueueMessage workerName)
    op (.publishJobLifecycle
      ⟨subjectJobQueueReceived, job.jobID, "RECEIVED", 1, "", workerName, "CORE"⟩)
    op (.publishJobLifecycle
      ⟨subjectJobQueueCompleted, job.jobID, "COMPLETED", 1, "", workerName, "CORE"⟩)
    return false

/-- The types of jobs that validation knows. -/
def supportedTypes : List String := ["image-processing", "data-sync", "email-alert"]

/-- The checks of a validation request. -/
def validationOf (job : Job) : ValidationResponse :=
  if job.jobID = "" then ⟨false, "job_id is required"⟩
  else if job.type ∉ supportedTypes then ⟨false, s!"unsupported job type: {job.type}"⟩
  else if (job.payload.getD []).isEmpty then ⟨false, "payload is required"⟩
  else ⟨true, "Job configuration is valid."⟩

/-- The handler of `subscribeValidation`; no reply stands for `ErrProcessorDisabled`. -/
def validationHandler (workerName : String) (job : Job) : Prog (Option ValidationResponse) := do
  let enabled ← op .readEnabled
  if enabled then
    op (.publishJobLifecycle
      ⟨subjectJobRequestReceived, job.jobID, "REQUEST_RECEIVED", 1, "", workerName, ""⟩)
    op (.publishJobLifecycle
      ⟨subjectJobReplySent, job.jobID, "REPLY_SENT", 1, "", workerName, ""⟩)
    return some (validationOf job)
  else return none

/-- The callback of `SubscribeJobValidate`; a request that does not parse is refused at
once. -/
def jobValidateCallback (workerName : String) (m : Msg) : Prog Bool :=
  match Job.parse m.data with
  | none => do
    op (.respond ⟨false, "Invalid request payload"⟩)
    return false
  | some job => do
    match ← validationHandler workerName job with
    | none => return false
    | some resp =>
      op (.respond resp)
      return false

end NatsDemo.Processor
