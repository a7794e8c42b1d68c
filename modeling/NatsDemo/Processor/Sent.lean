import NatsDemo.Processor.EventLog
import NatsDemo.Processor.Scenario
import NatsDemo.Processor.Seen

/-!
# What a handling sends

A worker tells the broker of a message that it is done, refused or terminated, and it may
send a dead letter about it.  All a handling sends follows from the message and the scenario
that it reads: `Handling.sends` says what, whether or not the calls succeed.
-/

namespace NatsDemo.Processor
open Lib Go Jobs Messaging

/-- What is sent about the message under a sequence number. -/
inductive Sent where
  | ack (seq : ℕ)
  | nak (seq : ℕ)
  | nakWithDelay (seq : ℕ) (delay : ℤ)
  | term (seq : ℕ)
  | deadLetter (seq : ℕ)
  deriving DecidableEq

/-- What a call sends, whether or not it succeeds. -/
def sentOf : Done → Option Sent
  | ⟨.prim (.ack seq), _⟩ => some (.ack seq)
  | ⟨.prim (.nak seq), _⟩ => some (.nak seq)
  | ⟨.prim (.nakWithDelay seq delay), _⟩ => some (.nakWithDelay seq delay)
  | ⟨.prim (.term seq), _⟩ => some (.term seq)
  | ⟨.prim (.publishDLQ seq _), _⟩ => some (.deadLetter seq)
  | _ => none

/-- The four ways to settle a delivery with the broker. -/
def Sent.Settles (seq : ℕ) : Sent → Prop
  | .ack s | .nak s | .nakWithDelay s _ | .term s => s = seq
  | .deadLetter _ => False

instance (seq : ℕ) : DecidablePred (Sent.Settles seq) := fun x => by
  cases x <;> rw [Sent.Settles] <;> infer_instance

@[simp] theorem settles_ack {s seq : ℕ} : (Sent.ack s).Settles seq ↔ s = seq := Iff.rfl
@[simp] theorem settles_nak {s seq : ℕ} : (Sent.nak s).Settles seq ↔ s = seq := Iff.rfl
@[simp] theorem settles_nakWithDelay {s seq : ℕ} {delay : ℤ} :
    (Sent.nakWithDelay s delay).Settles seq ↔ s = seq := Iff.rfl
@[simp] theorem settles_term {s seq : ℕ} : (Sent.term s).Settles seq ↔ s = seq := Iff.rfl
@[simp] theorem not_settles_deadLetter {s seq : ℕ} : ¬ (Sent.deadLetter s).Settles seq := id

/-- A report to the log or to the counters of the workers. -/
def Reports : Call Op Label → Prop
  | .prim (.recordWorkerPull _) | .prim (.recordWorkerEvent ..) => True
  | _ => False

instance : DecidablePred Reports := fun o => by
  rw [Reports.eq_def]
  split <;> infer_instance

section
variable {seq : ℕ} {delay : ℤ} {m : Msg} {ok : Bool} {u : Unit}

@[simp] theorem sentOf_ack : sentOf ⟨.prim (.ack seq), ok⟩ = some (.ack seq) := rfl
@[simp] theorem sentOf_nak : sentOf ⟨.prim (.nak seq), ok⟩ = some (.nak seq) := rfl
@[simp] theorem sentOf_nakWithDelay :
    sentOf ⟨.prim (.nakWithDelay seq delay), ok⟩ = some (.nakWithDelay seq delay) := rfl
@[simp] theorem sentOf_term : sentOf ⟨.prim (.term seq), ok⟩ = some (.term seq) := rfl
@[simp] theorem sentOf_publishDLQ :
    sentOf ⟨.prim (.publishDLQ seq m), ok⟩ = some (.deadLetter seq) := rfl
@[simp] theorem sentOf_event (jobID jobType tag tagColor details : String) (attempt : ℕ)
    (mode : String) : sentOf
      ⟨.prim (.recordWorkerEvent jobID jobType tag tagColor details attempt mode), u⟩ = none := rfl
@[simp] theorem sentOf_resetScenario (b : Branch) :
    sentOf ⟨.prim (.resetScenario b), u⟩ = none := rfl
@[simp] theorem sentOf_readAckPolicy (policy : String) :
    sentOf ⟨.prim .readAckPolicy, policy⟩ = none := rfl
@[simp] theorem sentOf_readScenario (r : String × Bool) :
    sentOf ⟨.prim .readScenario, r⟩ = none := rfl
@[simp] theorem sentOf_now (now : Time) : sentOf ⟨.prim .now, now⟩ = none := rfl
@[simp] theorem sentOf_crashGoroutine (worker : String) :
    sentOf ⟨.prim (.crashGoroutine worker), u⟩ = none := rfl
@[simp] theorem sentOf_fork (l : Label) (i : ℕ) : sentOf ⟨.fork l, i⟩ = none := rfl
@[simp] theorem sentOf_await (i : ℕ) : sentOf ⟨.await i, ok⟩ = none := rfl

theorem sentOf_of_reports {e : Done} (he : Reports e.1) : sentOf e = none := by
  obtain ⟨o, r⟩ := e
  cases o with
  | prim o => cases o <;> first | exact he.elim | rfl
  | _ => exact he.elim

end

namespace Handling

/-- What the code of a branch sends. -/
def branchSends (h : Handling) : Branch → List Sent
  | .crash | .batch => []
  | .exceed => [.ack h.d.seq]
  | .nak => [.nak h.d.seq]
  | .term => [.term h.d.seq]

/-- What is sent for a message that no scenario takes. -/
def evaluationSends (arch : Platform) (h : Handling) : List Sent :=
  if failureFires arch h.job.payload h.attemptCount then
    if maxDeliveryAttempts arch h.job.payload ≤ h.attemptCount then
      [.deadLetter h.d.seq, .ack h.d.seq]
    else if 0 < nakDelaySec arch h.job.payload then
      [.nakWithDelay h.d.seq (nakDelay (nakDelaySec arch h.job.payload))]
    else [.nak h.d.seq]
  else [.ack h.d.seq]

/-- What is sent under a scenario. -/
def sends (arch : Platform) (h : Handling) (scenario : String) : List Sent :=
  match branchOf (overrideScenario h.job.payload scenario) h.attemptCount with
  | some b => h.branchSends b
  | none => h.evaluationSends arch

/-- The simulated crash, under a scenario. -/
def Crashes (h : Handling) (scenario : String) : Prop :=
  overrideScenario h.job.payload scenario = "crash_before_ack" ∧ h.attemptCount = 1

instance (h : Handling) (scenario : String) : Decidable (h.Crashes scenario) :=
  inferInstanceAs (Decidable (_ ∧ _))

end Handling

/-- Every answer says that the consumer wants acknowledgements. -/
def Wanted (answer : ℕ → (c : Call Op Label) → Call.Res Op.Res Bool c) : Prop :=
  ∀ k, answer k (.prim .readAckPolicy) ≠ "none"

/-- The end of a handling, by what it read of the scenario. -/
def Handling.conclude (arch : Platform) (h : Handling) (r : String × Bool) : Prog Bool :=
  match Handling.branchOf (Handling.overrideScenario h.job.payload r.1) h.attemptCount with
  | some b => h.runBranch r.2 b
  | none => h.evaluate arch

section
variable {arch : Platform} {answer : ℕ → (c : Call Op Label) → Call.Res Op.Res Bool c} {n : ℕ}

theorem crashes_iff {h : Handling} {scenario : String} :
    h.Crashes scenario ↔ Handling.branchOf
      (Handling.overrideScenario h.job.payload scenario) h.attemptCount = some .crash := by
  simp only [Handling.Crashes, Handling.branchOf]
  split_ifs with hcrash <;> simp [hcrash]

/-! ## The parts of a handling -/

theorem sent_ackIfWanted (hwanted : Wanted answer) (h : Handling) :
    (h.ackIfWanted.transcript answer n).filterMap sentOf = [.ack h.d.seq] := by
  simp [Handling.ackIfWanted, List.filterMap_cons, hwanted n]

theorem sent_resetIfOnce {α : Type} (once : Bool) (b : Branch) (p : Prog α) :
    ((Handling.resetIfOnce once b >>= fun _ => p).transcript answer n).filterMap sentOf =
      (p.transcript answer (n + once.toNat)).filterMap sentOf := by
  cases once with
  | false => rfl
  | true => rfl

theorem sent_nakMessage (h : Handling) (once : Bool) :
    ((h.runBranch once .nak).transcript answer n).filterMap sentOf = [.nak h.d.seq] := by
  refine (sent_resetIfOnce once .nak _).trans ?_
  simp [Handling.recordWorkerEvent, List.filterMap_cons]

theorem sent_runBranch (hwanted : Wanted answer) (h : Handling) (once : Bool) (b : Branch) :
    ((h.runBranch once b).transcript answer n).filterMap sentOf = h.branchSends b := by
  cases b with
  | crash =>
    refine (sent_resetIfOnce once .crash _).trans ?_
    simp [Handling.recordWorkerEvent, List.filterMap_cons, Handling.branchSends]
  | exceed =>
    refine (sent_resetIfOnce once .exceed _).trans ?_
    simp [Handling.recordWorkerEvent, Proc.transcript_bind, List.filterMap_cons,
      sent_ackIfWanted hwanted, Handling.branchSends]
  | nak => exact sent_nakMessage h once
  | term =>
    refine (sent_resetIfOnce once .term _).trans ?_
    simp [Handling.recordWorkerEvent, List.filterMap_cons, Handling.branchSends]
  | batch => rfl

/-- The refusal of a job that failed does not ask whether acknowledgements are wanted. -/
theorem sent_retry (h : Handling) : ((h.retry arch).transcript answer n).filterMap sentOf =
    if 0 < Handling.nakDelaySec arch h.job.payload then
      [.nakWithDelay h.d.seq (Handling.nakDelay (Handling.nakDelaySec arch h.job.payload))]
    else [.nak h.d.seq] := by
  split_ifs with hdelay <;>
    simp [Handling.retry, hdelay, Handling.recordWorkerEvent, List.filterMap_cons]

theorem sent_evaluate (hwanted : Wanted answer) (h : Handling) :
    ((h.evaluate arch).transcript answer n).filterMap sentOf = h.evaluationSends arch := by
  rw [Handling.evaluate, Handling.evaluationSends]
  split_ifs with hfires hmax hdelay
  · simp [Handling.routeToDLQ, Handling.recordWorkerEvent, Proc.transcript_bind,
      List.filterMap_cons, sent_ackIfWanted hwanted]
  · rw [sent_retry, if_pos hdelay]
  · rw [sent_retry, if_neg hdelay]
  · simp [Handling.complete, Handling.recordWorkerEvent, Proc.transcript_bind,
      List.filterMap_cons, sent_ackIfWanted hwanted]

theorem sent_conclude (hwanted : Wanted answer) (h : Handling) (r : String × Bool) :
    ((h.conclude arch r).transcript answer n).filterMap sentOf = h.sends arch r.1 := by
  rw [Handling.conclude, Handling.sends]
  split
  · exact sent_runBranch hwanted h _ _
  · exact sent_evaluate hwanted h

theorem returns_runBranch (h : Handling) (once : Bool) (b : Branch) :
    (h.runBranch once b).Returns (decide (b = .crash)) := by
  cases b <;> cases once <;>
    simp [Handling.runBranch, Handling.crashBeforeAck, Handling.exceedAckWait,
      Handling.nakMessage, Handling.termMessage, Handling.resetIfOnce,
      Handling.recordWorkerEvent, Handling.ackIfWanted]

theorem returns_evaluate (arch : Platform) (h : Handling) : (h.evaluate arch).Returns false := by
  rw [Handling.evaluate]
  split_ifs
  · simp [Handling.routeToDLQ, Handling.recordWorkerEvent, Handling.ackIfWanted]
  · simp [Handling.retry, Handling.recordWorkerEvent]
  · simp [Handling.complete, Handling.recordWorkerEvent, Handling.ackIfWanted]

/-- Only the simulated crash ends the loop. -/
theorem result_conclude (h : Handling) (r : String × Bool) :
    (h.conclude arch r).result answer n = decide (h.Crashes r.1) := by
  rw [Handling.conclude]
  split
  next b hb =>
    rw [(returns_runBranch h r.2 b).result_eq]
    simp only [crashes_iff, hb, Option.some.injEq]
  next hb =>
    rw [(returns_evaluate arch h).result_eq]
    simp only [crashes_iff, hb, reduceCtorEq, decide_false]

/-! ## The whole of a handling -/

/-- What a handling reports before it reads the scenario. -/
def Handling.start (h : Handling) : Prog Unit := do
  h.recordPull
  h.recordWorkerEvent "[PROCESSING]" "#FBBF24" "Executing business logic"

theorem process_eq (arch : Platform) (h : Handling) :
    h.process arch = h.start >>= fun _ => op .readScenario >>= h.conclude arch := by
  by_cases hre : 1 < h.attemptCount <;>
    simp [Handling.start, Handling.process, Handling.recordPull, hre,
      Handling.recordWorkerEvent] <;> rfl

theorem reports_start {h : Handling} {e : Done} (he : e ∈ h.start.transcript answer n) :
    Reports e.1 := by
  have hstart : h.start.Avoids fun o => ¬ Reports o := by
    by_cases hre : 1 < h.attemptCount <;>
      simp [Handling.start, Handling.recordPull, hre, Handling.recordWorkerEvent, Reports]
  exact not_not.mp (hstart.not_mem_transcript e he)

variable (arch answer n) in
/-- A handling starts with reports, reads the scenario, and concludes by what it read. -/
theorem exists_read (h : Handling) : ∃ k,
    (h.process arch).transcript answer n =
      h.start.transcript answer n ++ ⟨.prim .readScenario, answer k (.prim .readScenario)⟩ ::
        (h.conclude arch (answer k (.prim .readScenario))).transcript answer (k + 1) ∧
    (h.process arch).result answer n =
      (h.conclude arch (answer k (.prim .readScenario))).result answer (k + 1) := by
  refine ⟨n + (h.start.transcript answer n).length, ?_, ?_⟩
  · rw [process_eq, Proc.transcript_bind]
    rfl
  · rw [process_eq, Proc.result_bind]
    rfl

/-- The scenario is not read again. -/
theorem conclude_avoids_read (h : Handling) (r : String × Bool) :
    (h.conclude arch r).Avoids (· = .prim .readScenario) := by
  rw [Handling.conclude]
  split
  next b _ =>
    refine runBranch_avoids_of h r.2 fun o hcall => ?_
    cases hcall <;> simp
  next =>
    rw [Handling.evaluate]
    split_ifs
    · simp [Handling.routeToDLQ, Handling.recordWorkerEvent, Handling.ackIfWanted]
    · simp [Handling.retry, Handling.recordWorkerEvent]
    · simp [Handling.complete, Handling.recordWorkerEvent, Handling.ackIfWanted]

variable (arch answer n) in
/-- A handling reads one scenario, and sends what it concludes from that. -/
theorem exists_conclude (h : Handling) : ∃ k,
    (∀ r', (⟨.prim .readScenario, r'⟩ : Done) ∈ (h.process arch).transcript answer n ↔
      r' = answer k (.prim .readScenario)) ∧
    ((h.process arch).transcript answer n).filterMap sentOf =
      ((h.conclude arch (answer k (.prim .readScenario))).transcript answer (k + 1)).filterMap
        sentOf ∧
    (h.process arch).result answer n =
      (h.conclude arch (answer k (.prim .readScenario))).result answer (k + 1) ∧
    ∃ e ∈ (h.process arch).transcript answer n, Reports e.1 := by
  obtain ⟨k, htranscript, hresult⟩ := exists_read arch answer n h
  have hquiet : (h.start.transcript answer n).filterMap sentOf = [] :=
    List.filterMap_eq_nil_iff.mpr fun e he => sentOf_of_reports (reports_start he)
  refine ⟨k, ?_, ?_, hresult, ?_⟩
  · intro r'
    rw [htranscript, List.mem_append, List.mem_cons]
    constructor
    · rintro (hmem | heq | hmem)
      · exact (reports_start hmem).elim
      · cases heq
        rfl
      · exact absurd rfl ((conclude_avoids_read h _).not_mem_transcript _ hmem)
    · rintro rfl
      exact Or.inr (Or.inl rfl)
  · rw [htranscript, List.filterMap_append, hquiet,
      List.filterMap_cons_none (sentOf_readScenario _), List.nil_append]
  · have hne : h.start.transcript answer n ≠ [] := List.cons_ne_nil _ _
    obtain ⟨e, he⟩ := List.exists_mem_of_ne_nil _ hne
    rw [htranscript]
    exact ⟨e, List.mem_append_left _ he, reports_start he⟩

variable (arch n) in
/-- What a handling reads decides what it sends and what it returns. -/
theorem process_spec (hwanted : Wanted answer) (h : Handling) : ∃ r : String × Bool,
    (∃ k, r = answer k (.prim .readScenario)) ∧
    (∀ r', (⟨.prim .readScenario, r'⟩ : Done) ∈ (h.process arch).transcript answer n ↔ r' = r) ∧
    ((h.process arch).transcript answer n).filterMap sentOf = h.sends arch r.1 ∧
    (h.process arch).result answer n = decide (h.Crashes r.1) ∧
    ∃ e ∈ (h.process arch).transcript answer n, Reports e.1 := by
  obtain ⟨k, hread, hsent, hresult, hreports⟩ := exists_conclude arch answer n h
  refine ⟨answer k (.prim .readScenario), ⟨k, rfl⟩, hread, ?_, ?_, hreports⟩
  · rw [hsent, sent_conclude hwanted]
  · rw [hresult, result_conclude]

/-! ## One settlement for each delivery -/

variable (arch) in
/-- What a handling sends settles its message once, unless it crashes. -/
theorem countP_sends (h : Handling) (scenario : String) :
    (h.sends arch scenario).countP (Sent.Settles h.d.seq) =
      if h.Crashes scenario then 0 else 1 := by
  rw [Handling.sends]
  simp only [crashes_iff]
  split
  next b hb =>
    cases b with
    | batch => exact absurd hb (branchOf_ne_batch _ _)
    | _ => simp [hb, Handling.branchSends]
  next hb =>
    rw [hb, if_neg (by simp), Handling.evaluationSends]
    split_ifs <;> simp

/-- A worker simulates a crash: it handles the message, as a first delivery, under the
scenario for it. -/
def SimulatesCrash (d : Delivery) (worker : String) (calls : List Done) : Prop :=
  ∃ h r, Handling.ofDelivery d worker = some h ∧ ⟨.prim .readScenario, r⟩ ∈ calls ∧
    h.Crashes r.1

theorem handleJetStreamMsg_of_handled {d : Delivery} {worker : String} {h : Handling}
    (hh : Handling.ofDelivery d worker = some h) :
    handleJetStreamMsg arch d worker = h.process arch := by
  rw [handleJetStreamMsg, hh]

/-- **One settlement for each delivery.**  Whatever the message, the scenario and the outcome
of the calls, where acknowledgements are wanted, a worker sends one acknowledgement, refusal or
termination of its message.  Only the simulated crash sends nothing, and ends the loop. -/
theorem settles_once (arch : Platform) (d : Delivery) (worker : String)
    (answer : ℕ → (c : Call Op Label) → Call.Res Op.Res Bool c) (hwanted : Wanted answer) :
    let calls := (handleJetStreamMsg arch d worker).transcript answer 0
    ((handleJetStreamMsg arch d worker).result answer 0 = true ↔
      SimulatesCrash d worker calls) ∧
    (SimulatesCrash d worker calls → calls.filterMap sentOf = []) ∧
    (¬ SimulatesCrash d worker calls →
      (calls.filterMap sentOf).countP (Sent.Settles d.seq) = 1) := by
  intro calls
  cases hh : Handling.ofDelivery d worker with
  | none =>
    have hnot : ¬ SimulatesCrash d worker calls := by
      rintro ⟨h, r, hh', -⟩
      rw [hh] at hh'
      cases hh'
    have hcalls : calls = [⟨.prim (.ack d.seq), answer 0 (.prim (.ack d.seq))⟩] := by
      simp [calls, handleJetStreamMsg, hh]
    refine ⟨iff_of_false ?_ hnot, fun hcrash => absurd hcrash hnot, fun _ => ?_⟩
    · simp [handleJetStreamMsg, hh]
    · simp [hcalls]
  | some h =>
    have hprogram : handleJetStreamMsg arch d worker = h.process arch :=
      handleJetStreamMsg_of_handled hh
    obtain rfl := d_of_ofDelivery hh
    obtain ⟨r, -, hread, hsent, hresult, -⟩ :=
      process_spec arch 0 hwanted h
    have hcalls : calls = (h.process arch).transcript answer 0 :=
      congrArg (·.transcript answer 0) hprogram
    have hcrash : SimulatesCrash h.d worker calls ↔ h.Crashes r.1 := by
      rw [hcalls]
      constructor
      · rintro ⟨h', r', hh', hmem, hcrash⟩
        obtain rfl := Option.some_inj.mp (hh.symm.trans hh')
        rwa [(hread r').mp hmem] at hcrash
      · intro hcrash
        exact ⟨h, r, hh, (hread r).mpr rfl, hcrash⟩
    have hcount := countP_sends arch h r.1
    rw [hprogram, hresult, decide_eq_true_iff, hcrash, hcalls, hsent]
    refine ⟨Iff.rfl, fun hc => ?_, fun hc => ?_⟩
    · rw [Handling.sends, crashes_iff.mp hc]
      rfl
    · rw [hcount, if_neg hc]

end

/-- The answers under a scenario, where all goes well. -/
def smoothAnswer (scenario : String × Bool) : (c : Call Op Label) → Call.Res Op.Res Bool c
  | .prim .readScenario => scenario
  | .prim .readAckPolicy => "explicit"
  | .prim (.ack _) | .prim (.nak _) | .prim (.nakWithDelay _ _) | .prim (.term _) => true
  | .prim (.publishDLQ _ _) => true
  | c => someAnswer c

theorem wanted_smoothAnswer (scenario : String × Bool) :
    Wanted fun _ => smoothAnswer scenario := by
  intro k
  have hpolicy : ("explicit" : String) ≠ "none" := by decide
  exact hpolicy

/-- The first delivery of a job, when the workers are to crash. -/
theorem settles_crashing :
    let d : Delivery := ⟨7, jetStreamMsg "j1" [], some ⟨7, 1⟩⟩
    (handleJetStreamMsg .amd64 d "processor-1").result
      (fun _ => smoothAnswer ("crash_before_ack", true)) 0 = true := by
  intro d
  refine (settles_once .amd64 d "processor-1" _ (wanted_smoothAnswer _)).1.mpr ?_
  refine ⟨_, ("crash_before_ack", true), rfl, ?_, by decide⟩
  exact List.mem_cons_of_mem _ (List.mem_cons_of_mem _ (List.mem_cons_of_mem _ List.mem_cons_self))

end NatsDemo.Processor
