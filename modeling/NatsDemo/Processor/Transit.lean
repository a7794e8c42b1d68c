import NatsDemo.Jobs.Outgoing
import NatsDemo.Processor.World

/-!
# From the job service to the processor

What the processor runs for a message is what it would run for the job that the service
published, had the job not been written and read on the way: the same operations, with the
same reports, dead letters and replies, whatever is answered to them.
-/

namespace NatsDemo.Processor
open Lib Go Jobs Messaging

/-- The message that a callback or a handling is about. -/
def Label.msg : Label → Option Msg
  | .handle d _ => some d.msg
  | .core m | .queue m _ | .validate m _ => some m
  | _ => none

/-- What a goroutine would run if its message were the given job. -/
def programOf (arch : Platform) (job : Job) : Label → Prog Bool
  | .handle d w =>
    if headerMode d.msg = "CORE" ∨ job.deliveryMode = "CORE" then do
      let _ ← op (.ack d.seq)
      return false
    else Handling.process arch ⟨d, w, job, headerMode d.msg⟩
  | .core m =>
    let header := m.header.get "X-Delivery-Mode"
    let mode := if header = "" then job.deliveryMode else header
    if mode = "JETSTREAM" then return false else coreJobHandler arch job
  | .queue _ w => do
    op (.countQueueMessage w)
    op (.publishJobLifecycle ⟨subjectJobQueueReceived, job.jobID, "RECEIVED", 1, "", w, "CORE"⟩)
    op (.publishJobLifecycle ⟨subjectJobQueueCompleted, job.jobID, "COMPLETED", 1, "", w, "CORE"⟩)
    return false
  | .validate _ w => do
    match ← validationHandler w job with
    | none => return false
    | some resp =>
      op (.respond resp)
      return false
  | l => program arch l

variable {arch : Platform} {job : Job}

/-! ## What the programs look at -/

namespace Handling

theorem overrideScenario_reread {p : Payload} (hp : p.Wf) (scenario : String) :
    overrideScenario (p.map Go.reread) scenario = overrideScenario p scenario := by
  simp only [overrideScenario, Payload.text_reread hp, Payload.flag_reread hp]

theorem failureFires_reread {p : Payload} (hp : p.Wf) (n : ℕ) :
    failureFires arch (p.map Go.reread) n ↔ failureFires arch p n := by
  simp only [failureFires, Payload.int_reread hp, Payload.flag_reread hp]

theorem maxDeliveryAttempts_reread {p : Payload} (hp : p.Wf) :
    maxDeliveryAttempts arch (p.map Go.reread) = maxDeliveryAttempts arch p :=
  Payload.positive_reread hp arch _ _

theorem nakDelaySec_reread {p : Payload} (hp : p.Wf) :
    nakDelaySec arch (p.map Go.reread) = nakDelaySec arch p := Payload.positive_reread hp arch _ _

theorem dlqReason_congr {h h' : Handling} (hcount : h'.attemptCount = h.attemptCount)
    (hmax : maxDeliveryAttempts arch h'.job.payload = maxDeliveryAttempts arch h.job.payload) :
    h'.dlqReason arch = h.dlqReason arch := by
  unfold dlqReason
  rw [hcount, hmax]

/-- What a dead letter is made of. -/
theorem dlqMsg_congr {h h' : Handling} (hworker : h'.worker = h.worker)
    (hcount : h'.attemptCount = h.attemptCount) (hid : h'.job.jobID = h.job.jobID)
    (htype : h'.job.type = h.job.type) (hreason : h'.dlqReason arch = h.dlqReason arch)
    (hpayload : marshalMap h'.job.payload = marshalMap h.job.payload) :
    h'.dlqMsg arch = h.dlqMsg arch := by
  funext now
  rw [dlqMsg, dlqMsg, hworker, hcount, hid, htype, hreason, hpayload]

/-- The handling of the job as it is read from what was written of it. -/
def reread (h : Handling) : Handling := { h with job := h.job.reread }

section
variable (h : Handling)

@[simp] theorem reread_d : h.reread.d = h.d := rfl
@[simp] theorem reread_payload : h.reread.job.payload = h.job.payload.map Go.reread := rfl
@[simp] theorem reread_attemptCount : h.reread.attemptCount = h.attemptCount := rfl
@[simp] theorem reread_recordWorkerEvent : h.reread.recordWorkerEvent = h.recordWorkerEvent := rfl
@[simp] theorem reread_ackIfWanted : h.reread.ackIfWanted = h.ackIfWanted := rfl
@[simp] theorem reread_recordPull : h.reread.recordPull = h.recordPull := rfl
@[simp] theorem reread_complete : h.reread.complete = h.complete := rfl

@[simp] theorem reread_runBranch (once : Bool) (b : Branch) :
    h.reread.runBranch once b = h.runBranch once b := by cases b <;> rfl

end

variable {h : Handling} (hp : h.job.payload.Wf)
include hp

theorem dlqReason_reread : h.reread.dlqReason arch = h.dlqReason arch :=
  dlqReason_congr rfl (maxDeliveryAttempts_reread hp)

theorem dlqMsg_reread : h.reread.dlqMsg arch = h.dlqMsg arch :=
  dlqMsg_congr rfl rfl rfl rfl (dlqReason_reread hp) (Payload.marshalMap_reread hp)

theorem routeToDLQ_reread : h.reread.routeToDLQ arch = h.routeToDLQ arch := by
  rw [routeToDLQ, routeToDLQ, dlqMsg_reread hp, dlqReason_reread hp, reread_d,
    reread_recordWorkerEvent, reread_ackIfWanted]

theorem retry_reread : h.reread.retry arch = h.retry arch := by
  rw [retry, retry, reread_payload, maxDeliveryAttempts_reread hp, nakDelaySec_reread hp, reread_d,
    reread_recordWorkerEvent, reread_attemptCount]

theorem evaluate_reread : h.reread.evaluate arch = h.evaluate arch := by
  simp only [evaluate, reread_payload, failureFires_reread hp, maxDeliveryAttempts_reread hp,
    routeToDLQ_reread hp, retry_reread hp, reread_complete, reread_attemptCount]

theorem process_reread : h.reread.process arch = h.process arch := by
  simp only [process, evaluate_reread hp, reread_recordPull, reread_recordWorkerEvent,
    reread_payload, overrideScenario_reread hp, reread_attemptCount, reread_runBranch]

end Handling

theorem coreJobHandler_reread (hp : job.payload.Wf) :
    coreJobHandler arch job.reread = coreJobHandler arch job := by
  simp only [coreJobHandler, processCore, Job.reread, Handling.failureFires_reread hp,
    Payload.int_reread hp]
  rfl

theorem validationOf_reread (hp : job.payload.Wf) : validationOf job.reread = validationOf job := by
  simp only [validationOf, Job.reread, Payload.isEmpty_reread hp]

theorem validationHandler_reread (hp : job.payload.Wf) (w : String) :
    validationHandler w job.reread = validationHandler w job := by
  rw [validationHandler, validationHandler, validationOf_reread hp]
  rfl

/-! ## The way -/

/-- A goroutine whose message was written from a job runs what it would run for the job. -/
theorem program_transit (hjob : job.Wf) {l : Label} {m : Msg} (hl : l.msg = some m)
    (hm : m.data = some job.marshal) : program arch l = programOf arch job l := by
  have hparse : Job.parse m.data = some job.reread := by rw [hm, Job.parse_marshal_reread hjob]
  cases l with
  | handle d w =>
    obtain rfl : d.msg = m := Option.some_inj.mp hl
    rw [program, programOf, handleJetStreamMsg, Handling.ofDelivery, hparse]
    dsimp only
    have hmode : job.reread.deliveryMode = job.deliveryMode := rfl
    rw [hmode]
    split_ifs
    · rfl
    · exact Handling.process_reread (h := ⟨d, w, job, headerMode d.msg⟩) hjob.payload
  | core m' =>
    obtain rfl : m' = m := Option.some_inj.mp hl
    rw [program, programOf, jobSubmittedCallback, hparse]
    dsimp only
    rw [coreJobHandler_reread hjob.payload]
    rfl
  | queue m' w =>
    obtain rfl : m' = m := Option.some_inj.mp hl
    rw [program, programOf, handleQueueMessage, hparse]
    rfl
  | validate m' w =>
    obtain rfl : m' = m := Option.some_inj.mp hl
    rw [program, programOf, jobValidateCallback, hparse]
    dsimp only
    exact (validationHandler_reread hjob.payload w).symm ▸ rfl
  | _ => cases hl

/-- The message of a job that is handed over; a job that is scheduled is only told of. -/
def sentMsg (now : Time) (trace : GoMap String) : Sent → Option Msg
  | .submitted job => some (jobSubmitted job now trace)
  | .queued job => some (jobQueue job now trace)
  | .scheduled _ _ => none

theorem data_sentMsg {x : Sent} {now : Time} {trace : GoMap String} {m : Msg}
    (h : sentMsg now trace x = some m) : m.data = some x.job.marshal := by
  cases x with
  | submitted job => rw [← Option.some_inj.mp h]; rfl
  | queued job => rw [← Option.some_inj.mp h]; rfl
  | scheduled job note => cases h

/-- **The way changes nothing.**  In any run of the job service in which fewer than `2 ^ 53`
jobs are asked for by the number, every job that it publishes, immediately, in a batch or after
a wait, is run by each goroutine of the processor that gets its message as that job. -/
theorem published_transit (arch : Platform) {rs : List JobHandler.Request}
    (hbound : (rs.map JobHandler.Request.asked).sum < 2 ^ 53) :
    ∀ x ∈ (run JobHandler.serve {} rs).sent, ∀ now trace m, sentMsg now trace x = some m →
      ∀ l : Label, l.msg = some m → program arch l = programOf arch x.job l := by
  intro x hx now trace m hm l hl
  exact program_transit (JobHandler.wf_of_mem_sent hbound x hx) hl (data_sentMsg hm)

theorem published_transit_headers :
    let job : Job := {
      jobID := "a"
      type := "generic-message"
      deliveryMode := "JETSTREAM"
      headers := some [("X-B", "2"), ("X-A", "1")]
      payload := some [("simulate_failure", .bool true), ("note", .str "x")] }
    let m := jobSubmitted job 7 [("traceparent", "t")]
    let d : Delivery := ⟨0, m, some ⟨1, 3⟩⟩
    program .amd64 (.handle d "processor-1") = programOf .amd64 job (.handle d "processor-1") := by
  intro job m d
  let r : JobHandler.Request := .submitJob {} (some (.obj [("job_id", .str "a"),
    ("headers", .obj [("X-A", .str "1"), ("X-B", .str "2")]),
    ("payload", .obj [("note", .str "x"), ("simulate_failure", .bool true)])])) none
  have hbound : ([r].map JobHandler.Request.asked).sum < 2 ^ 53 := by decide +kernel
  refine published_transit .amd64 hbound (.submitted job) ?_ 7 [("traceparent", "t")] m rfl _ rfl
  exact List.Mem.head []

end NatsDemo.Processor
