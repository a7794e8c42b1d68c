import NatsDemo.Processor.World

/-!
# Who makes which calls

The goroutines are of seven kinds, and most calls are made by one or two of them.  What
is left of a goroutine's program at any time makes only the calls of its kind.
-/

namespace NatsDemo.Processor
open Lib Go Jobs Messaging

inductive Kind where
  | pull
  | handle
  | supervise
  | healGap
  | core
  | queue
  | validate
  deriving DecidableEq

def Label.kind : Label → Kind
  | .pull _ _ => .pull
  | .handle _ _ => .handle
  | .supervise _ => .supervise
  | .healGap _ => .healGap
  | .core _ => .core
  | .queue _ _ => .queue
  | .validate _ _ => .validate

/-- The kinds of goroutines that make a call. -/
def users : Call Op Label → List Kind
  | .prim o =>
    match o with
    | .loadFlags | .ctxDone _ | .fetch _ | .unbindConsumer | .subscribeJetStream => [.pull]
    | .readScenario | .resetScenario _ => [.pull, .handle]
    | .recordWorkerPull _ | .crashGoroutine _ | .readAckPolicy | .now | .nak _
    | .nakWithDelay _ _ | .term _ | .publishDLQ _ _ => [.handle]
    | .recordWorkerEvent .. => [.pull, .handle, .supervise, .healGap]
    | .respawn _ => [.supervise]
    | .ack _ => [.pull, .handle, .healGap]
    | .inProgress _ => [.healGap]
    | .readWorkers | .nextCoreWorker _ | .countAttempt _ => [.core]
    | .countQueueMessage _ => [.queue]
    | .publishJobLifecycle _ => [.core, .queue, .validate]
    | .readEnabled | .respond _ => [.validate]
  | .fork l =>
    match l with
    | .pull _ _ => [.pull, .supervise]
    | .handle _ _ | .healGap _ => [.pull]
    | .supervise _ => [.handle]
    | .core _ | .queue _ _ | .validate _ _ => []
  | .await _ => [.pull]

/-- The calls that the goroutines of a kind do not make. -/
def Foreign (κ : Kind) (o : Call Op Label) : Prop := κ ∉ users o

/-! ## The branches of a handling -/

/-- The calls that the code of a branch makes. -/
inductive BranchCall : Branch → Call Op Label → Prop
  | reset (b b' : Branch) : BranchCall b (.prim (.resetScenario b'))
  | event (b : Branch) (jobID jobType tag tagColor details : String) (attempt : ℕ)
      (mode : String) :
    BranchCall b (.prim (.recordWorkerEvent jobID jobType tag tagColor details attempt mode))
  | crash (worker : String) : BranchCall .crash (.prim (.crashGoroutine worker))
  | supervise (s : Supervision) : BranchCall .crash (.fork (.supervise s))
  | policy : BranchCall .exceed (.prim .readAckPolicy)
  | ack (seq : ℕ) : BranchCall .exceed (.prim (.ack seq))
  | nak (seq : ℕ) : BranchCall .nak (.prim (.nak seq))
  | term (seq : ℕ) : BranchCall .term (.prim (.term seq))

theorem runBranch_calls (h : Handling) (once : Bool) (b : Branch) :
    (h.runBranch once b).Avoids fun o => ¬ BranchCall b o := by
  cases b <;> cases once <;>
    simp [Handling.runBranch, Handling.crashBeforeAck, Handling.exceedAckWait,
      Handling.nakMessage, Handling.termMessage, Handling.resetIfOnce,
      Handling.recordWorkerEvent, Handling.ackIfWanted, BranchCall.reset, BranchCall.event,
      BranchCall.crash, BranchCall.supervise, BranchCall.policy, BranchCall.ack, BranchCall.nak,
      BranchCall.term]

/-- A branch avoids what is none of its calls. -/
theorem runBranch_avoids_of {φ : Call Op Label → Prop} (h : Handling) (once : Bool) {b : Branch}
    (hφ : ∀ o, BranchCall b o → ¬ φ o) : (h.runBranch once b).Avoids φ :=
  (runBranch_calls h once b).mono fun o ho hcall => hφ o hcall ho

/-! ## The calls of each kind -/

section
variable {arch : Platform}

theorem uses_handleAll (ctx : ℕ) (worker : String) (ds : List Delivery) :
    (handleAll ctx worker ds).Avoids (Foreign .pull) := by
  induction ds with
  | nil => simp [handleAll, again, Foreign, users]
  | cons d ds ih =>
    refine ⟨by simp [Foreign, users], fun t => ⟨by simp [Foreign, users], fun stop => ?_⟩⟩
    cases stop with
    | true => trivial
    | false => exact ih

theorem uses_pullBatch (ctx : ℕ) (worker : String) (once : Bool) :
    (pullBatch ctx worker once).Avoids (Foreign .pull) := by
  simp only [pullBatch, op_eq, Proc.call_bind, Proc.ret_bind, Proc.avoids_call]
  refine ⟨by simp [Foreign, users], fun f => ?_⟩
  split
  next d1 d2 d3 =>
    cases once <;>
      simp [handleOutOfOrderBatch, Handling.recordBatchEvent, Handling.resetIfOnce, again,
        Foreign, users]
  next ds _ => exact uses_handleAll ctx worker ds
  next => simp [again, Foreign, users]

theorem uses_pullOne (ctx : ℕ) (worker : String) :
    (pullOne ctx worker).Avoids (Foreign .pull) := by
  simp only [pullOne, op_eq, Proc.call_bind, Proc.ret_bind, Proc.avoids_call]
  refine ⟨by simp [Foreign, users], fun f => ?_⟩
  cases f with
  | batch ds => exact uses_handleAll ctx worker ds
  | _ => simp [again, Foreign, users]

theorem uses_jsPullLoop (ctx : ℕ) (worker : String) :
    (jsPullLoop ctx worker).Avoids (Foreign .pull) := by
  simp only [jsPullLoop, op_eq, Proc.call_bind, Proc.ret_bind, Proc.avoids_call, Proc.avoids_ite]
  refine ⟨by simp [Foreign, users], fun done => ?_⟩
  split_ifs
  · trivial
  · refine ⟨by simp [Foreign, users], fun flags => ?_⟩
    split_ifs
    · refine ⟨by simp [Foreign, users], fun r => ?_⟩
      split_ifs
      · exact uses_pullBatch ctx worker r.2
      · exact uses_pullOne ctx worker
    · simp [again, Foreign, users]

theorem uses_runBranch (h : Handling) (once : Bool) (b : Branch) :
    (h.runBranch once b).Avoids (Foreign .handle) := by
  refine runBranch_avoids_of h once fun o hcall => ?_
  cases hcall <;> simp [Foreign, users]

theorem uses_evaluate (h : Handling) : (h.evaluate arch).Avoids (Foreign .handle) := by
  simp only [Handling.evaluate, Proc.avoids_ite]
  split_ifs
  · simp [Handling.routeToDLQ, Handling.recordWorkerEvent, Handling.ackIfWanted, Foreign, users]
  · by_cases hd : 0 < Handling.nakDelaySec arch h.job.payload <;>
      simp [Handling.retry, hd, Handling.recordWorkerEvent, Foreign, users]
  · simp [Handling.complete, Handling.recordWorkerEvent, Handling.ackIfWanted, Foreign, users]

theorem uses_process (h : Handling) : (h.process arch).Avoids (Foreign .handle) := by
  have hpull : h.recordPull.Avoids (Foreign .handle) := by
    by_cases hre : 1 < h.attemptCount <;>
      simp [Handling.recordPull, hre, Handling.recordWorkerEvent, Foreign, users]
  refine hpull.bind fun _ => ⟨by simp [Foreign, users], fun _ => ⟨by simp [Foreign, users], ?_⟩⟩
  intro r
  dsimp only [Proc.bind]
  split
  next b _ => exact uses_runBranch h r.2 b
  next => exact uses_evaluate h

theorem uses_core (m : Msg) : (jobSubmittedCallback arch m).Avoids (Foreign .core) := by
  simp only [jobSubmittedCallback, coreJobHandler]
  cases Job.parse m.data with
  | none => trivial
  | some job => simp [processCore, coreEvent, Foreign, users]

theorem uses_queue (worker : String) (m : Msg) :
    (handleQueueMessage worker m).Avoids (Foreign .queue) := by
  rw [handleQueueMessage]
  cases Job.parse m.data <;> simp [Foreign, users]

theorem uses_validate (worker : String) (m : Msg) :
    (jobValidateCallback worker m).Avoids (Foreign .validate) := by
  rw [jobValidateCallback]
  cases Job.parse m.data with
  | none => simp [Foreign, users]
  | some job =>
    refine ⟨by simp [Foreign, users], fun enabled => ?_⟩
    cases enabled with
    | true => simp [Foreign, users, Proc.bind]
    | false => trivial

theorem uses_program (arch : Platform) (l : Label) :
    (program arch l).Avoids (Foreign l.kind) := by
  cases l with
  | pull ctx worker => exact uses_jsPullLoop ctx worker
  | handle d worker =>
    simp only [program, handleJetStreamMsg]
    cases Handling.ofDelivery d worker with
    | none => simp [Foreign, users, Label.kind]
    | some h => exact uses_process h
  | supervise s => simp [program, supervise, Foreign, users, Label.kind]
  | healGap h => simp [program, healGap, Foreign, users, Label.kind]
  | core m => exact uses_core m
  | queue m worker => exact uses_queue worker m
  | validate m worker => exact uses_validate worker m

/-- A program makes no calls that are foreign to its kind. -/
theorem program_avoids {l : Label} {φ : Call Op Label → Prop} (hφ : ∀ o, φ o → Foreign l.kind o) :
    (program arch l).Avoids φ := (uses_program arch l).mono hφ

/-- The next call of a goroutine is one that its kind makes. -/
theorem kind_of_rest {t : Thread arch} {o : Call Op Label}
    {k : Call.Res Op.Res Bool o → Prog Bool} (hr : t.rest = .call o k) :
    t.label.kind ∈ users o := by
  have h := t.traced.avoids (uses_program arch t.label)
  rw [hr] at h
  exact not_not.mp h.1

end

end NatsDemo.Processor
