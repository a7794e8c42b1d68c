import NatsDemo.Processor.Core

/-!
# Which engine processes a job

A message on `jobs.submitted` reaches both engines.  Three filters decide which of them
goes on to process it, and each has its own default for a message without a header: the
Core callback asks the body, the pull worker takes it for CORE.
-/

namespace NatsDemo.Processor
open Lib Go Jobs Messaging

/-- The operation by which the Core engine reports that it processes a job. -/
def StartsCore : Call Op Label → Prop
  | .prim (.publishJobLifecycle e) => e.subject = subjectJobProcessingStarted
  | _ => False

/-- The operation by which a pull worker reports that it processes a job. -/
def StartsJetStream : Call Op Label → Prop
  | .prim (.recordWorkerEvent _ _ tag _ _ _ _) => tag = "[PROCESSING]"
  | _ => False

/-- What the header says, which may be nothing, and what the body says. -/
def CorePasses (header body : String) : Prop := header ≠ "JETSTREAM" ∧ body ≠ "JETSTREAM"

def JetStreamPasses (header body : String) : Prop :=
  header ≠ "" ∧ header ≠ "CORE" ∧ body ≠ "CORE"

instance (header body : String) : Decidable (CorePasses header body) :=
  inferInstanceAs (Decidable (_ ∧ _))

instance (header body : String) : Decidable (JetStreamPasses header body) :=
  inferInstanceAs (Decidable (_ ∧ _ ∧ _))

theorem processCore_must (arch : Platform) (job : Job) (mode : String) :
    (processCore arch job mode).Must StartsCore := by
  simp [processCore, coreEvent, StartsCore]

theorem process_must (arch : Platform) (h : Handling) :
    (h.process arch).Must StartsJetStream := by
  by_cases hre : 1 < h.attemptCount <;>
    simp [Handling.process, Handling.recordPull, Handling.recordWorkerEvent, StartsJetStream, hre]

/-! ## The two engines -/

section
variable {arch : Platform} {m : Msg} {job : Job}

theorem core_must (hjob : Job.parse m.data = some job)
    (hpass : CorePasses (m.header.get "X-Delivery-Mode") job.deliveryMode) :
    (jobSubmittedCallback arch m).Must StartsCore := by
  obtain ⟨hheader, hbody⟩ := hpass
  by_cases hempty : m.header.get "X-Delivery-Mode" = ""
  · by_cases hb : job.deliveryMode = "" <;>
      simpa [jobSubmittedCallback, hjob, hempty, hbody, hb, coreJobHandler] using
        processCore_must arch job _
  · by_cases hb : job.deliveryMode = "" <;>
      simpa [jobSubmittedCallback, hjob, hempty, hheader, hbody, hb, coreJobHandler] using
        processCore_must arch job _

/-- What the Core engine does not take, it drops. -/
theorem callback_eq_ret (hjob : Job.parse m.data = some job)
    (hpass : ¬ CorePasses (m.header.get "X-Delivery-Mode") job.deliveryMode) :
    jobSubmittedCallback arch m = .ret false := by
  by_cases hheader : m.header.get "X-Delivery-Mode" = "JETSTREAM"
  · simp [jobSubmittedCallback, hjob, hheader]
  · have hbody : job.deliveryMode = "JETSTREAM" := by
      by_contra hbody
      exact hpass ⟨hheader, hbody⟩
    by_cases hempty : m.header.get "X-Delivery-Mode" = ""
    · simp [jobSubmittedCallback, hjob, hempty, hbody]
    · simp [jobSubmittedCallback, hjob, hempty, hheader, hbody, coreJobHandler]

theorem core_avoids (hjob : Job.parse m.data = some job)
    (hpass : ¬ CorePasses (m.header.get "X-Delivery-Mode") job.deliveryMode) :
    (jobSubmittedCallback arch m).Avoids StartsCore := by
  rw [callback_eq_ret hjob hpass]
  trivial

variable {d : Delivery} {worker : String}

theorem ofDelivery_of_passes (hjob : Job.parse d.msg.data = some job)
    (hpass : JetStreamPasses (d.msg.header.get "X-Delivery-Mode") job.deliveryMode) :
    Handling.ofDelivery d worker =
      some ⟨d, worker, job, d.msg.header.get "X-Delivery-Mode"⟩ := by
  obtain ⟨hempty, hheader, hbody⟩ := hpass
  simp [Handling.ofDelivery, hjob, headerMode, hempty, hheader, hbody]

theorem ofDelivery_of_not_passes (hjob : Job.parse d.msg.data = some job)
    (hpass : ¬ JetStreamPasses (d.msg.header.get "X-Delivery-Mode") job.deliveryMode) :
    Handling.ofDelivery d worker = none := by
  by_cases hempty : d.msg.header.get "X-Delivery-Mode" = ""
  · simp [Handling.ofDelivery, hjob, headerMode, hempty]
  · by_cases hheader : d.msg.header.get "X-Delivery-Mode" = "CORE"
    · simp [Handling.ofDelivery, hjob, headerMode, hheader]
    · have hbody : job.deliveryMode = "CORE" := by
        by_contra hbody
        exact hpass ⟨hempty, hheader, hbody⟩
      simp [Handling.ofDelivery, hjob, headerMode, hempty, hbody]

theorem jetStream_must (hjob : Job.parse d.msg.data = some job)
    (hpass : JetStreamPasses (d.msg.header.get "X-Delivery-Mode") job.deliveryMode) :
    (handleJetStreamMsg arch d worker).Must StartsJetStream := by
  rw [handleJetStreamMsg, ofDelivery_of_passes hjob hpass]
  exact process_must arch _

theorem jetStream_avoids (hjob : Job.parse d.msg.data = some job)
    (hpass : ¬ JetStreamPasses (d.msg.header.get "X-Delivery-Mode") job.deliveryMode) :
    (handleJetStreamMsg arch d worker).Avoids StartsJetStream := by
  rw [handleJetStreamMsg, ofDelivery_of_not_passes hjob hpass]
  simp [StartsJetStream]

end

/-! ## Exactly one of them -/

/-- In every execution one of the engines processes the message and the other does not. -/
def HandledOnce (arch : Platform) (d : Delivery) (worker : String) : Prop :=
  (jobSubmittedCallback arch d.msg).Must StartsCore ∧
      (handleJetStreamMsg arch d worker).Avoids StartsJetStream ∨
    (jobSubmittedCallback arch d.msg).Avoids StartsCore ∧
      (handleJetStreamMsg arch d worker).Must StartsJetStream

/-- The header and the body name the mode in a way that the filters agree on: no header
or CORE goes with any body but JETSTREAM, JETSTREAM with any body but CORE, and another
header only with one of these two. -/
def ModesAgree (header body : String) : Prop :=
  (header = "" ∨ header = "CORE") ∧ body ≠ "JETSTREAM" ∨
    header = "JETSTREAM" ∧ body ≠ "CORE" ∨
    (header ≠ "" ∧ header ≠ "CORE" ∧ header ≠ "JETSTREAM") ∧
      (body = "JETSTREAM" ∨ body = "CORE")

instance (header body : String) : Decidable (ModesAgree header body) :=
  inferInstanceAs (Decidable (_ ∨ _ ∨ _))

theorem modesAgree_iff {header body : String} : ModesAgree header body ↔
    (CorePasses header body ∧ ¬ JetStreamPasses header body) ∨
      (¬ CorePasses header body ∧ JetStreamPasses header body) := by
  have hne : ("JETSTREAM" : String) ≠ "CORE" := by decide
  by_cases hj : header = "JETSTREAM"
  · subst hj
    simp [ModesAgree, CorePasses, JetStreamPasses]
  · by_cases hbj : body = "JETSTREAM"
    · subst hbj
      simp [ModesAgree, CorePasses, JetStreamPasses, hj]
    · simp only [ModesAgree, CorePasses, JetStreamPasses, hj, hbj]
      tauto

/-- **When exactly one engine processes a job.**  For every message whose body parses,
this is so if and only if its header and its body agree. -/
theorem handledOnce_iff (arch : Platform) {d : Delivery} {job : Job}
    (hjob : Job.parse d.msg.data = some job) (worker : String) :
    HandledOnce arch d worker ↔
      ModesAgree (d.msg.header.get "X-Delivery-Mode") job.deliveryMode := by
  rw [modesAgree_iff, HandledOnce]
  by_cases hc : CorePasses (d.msg.header.get "X-Delivery-Mode") job.deliveryMode
  · have hmust : (jobSubmittedCallback arch d.msg).Must StartsCore := core_must hjob hc
    have hnot := hmust.not_avoids someAnswer
    by_cases hj : JetStreamPasses (d.msg.header.get "X-Delivery-Mode") job.deliveryMode
    · have hmustj : (handleJetStreamMsg arch d worker).Must StartsJetStream :=
        jetStream_must hjob hj
      simp [hc, hj, hnot, hmustj.not_avoids someAnswer]
    · have hj' : (handleJetStreamMsg arch d worker).Avoids StartsJetStream :=
        jetStream_avoids hjob hj
      simp [hc, hj, hmust, hj']
  · have hc' : (jobSubmittedCallback arch d.msg).Avoids StartsCore := core_avoids hjob hc
    have hnot : ¬ (jobSubmittedCallback arch d.msg).Must StartsCore :=
      fun hmust => hmust.not_avoids someAnswer hc'
    by_cases hj : JetStreamPasses (d.msg.header.get "X-Delivery-Mode") job.deliveryMode
    · have hj' : (handleJetStreamMsg arch d worker).Must StartsJetStream :=
        jetStream_must hjob hj
      simp [hc, hj, hc', hj']
    · have hj' : (handleJetStreamMsg arch d worker).Avoids StartsJetStream :=
        jetStream_avoids hjob hj
      have hnotj : ¬ (handleJetStreamMsg arch d worker).Must StartsJetStream :=
        fun hmust => hmust.not_avoids someAnswer hj'
      simp [hc, hj, hnot, hnotj]

/-- A job that names no mode, delivered under a JETSTREAM header. -/
theorem handledOnce_jetStream_header :
    HandledOnce .amd64 ⟨1, ⟨subjectJobSubmitted, [("X-Delivery-Mode", ["JETSTREAM"])],
      some (.obj [("job_id", .str "j1")])⟩, some ⟨1, 1⟩⟩ "processor-1" :=
  (handledOnce_iff .amd64 rfl "processor-1").mpr (by decide)

/-- A JETSTREAM job published without headers. -/
def headerless : Delivery where
  seq := 1
  msg := ⟨subjectJobSubmitted, [],
    some (.obj [("job_id", .str "j1"), ("delivery_mode", .str "JETSTREAM")])⟩
  metadata := some ⟨1, 1⟩

/-- The Core callback leaves it to the pull workers, and these take it for CORE and
discard it. -/
theorem not_handledOnce_headerless : ¬ HandledOnce .amd64 headerless "processor-1" := by
  have hjob : Job.parse headerless.msg.data =
      some { jobID := "j1", deliveryMode := "JETSTREAM" } := rfl
  have hcore : (jobSubmittedCallback .amd64 headerless.msg).Avoids StartsCore :=
    core_avoids hjob (by decide)
  have hjs : (handleJetStreamMsg .amd64 headerless "processor-1").Avoids StartsJetStream :=
    jetStream_avoids hjob (by decide)
  rintro (⟨hmust, -⟩ | ⟨-, hmust⟩)
  · exact hmust.not_avoids someAnswer hcore
  · exact hmust.not_avoids someAnswer hjs

/-- A published job has modes that agree if it names none, or one of the two. -/
theorem modesAgree_publishMode (job : Job) :
    ModesAgree (publishMode job) job.deliveryMode ↔
      job.deliveryMode = "" ∨ job.deliveryMode = "JETSTREAM" ∨ job.deliveryMode = "CORE" := by
  by_cases hempty : job.deliveryMode = ""
  · simp [publishMode, ModesAgree, hempty]
  · by_cases hj : job.deliveryMode = "JETSTREAM"
    · simp [publishMode, ModesAgree, hj]
    · by_cases hc : job.deliveryMode = "CORE" <;>
        simp [publishMode, ModesAgree, hempty, hj, hc]

end NatsDemo.Processor
