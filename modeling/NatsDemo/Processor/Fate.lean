import NatsDemo.Processor.Config
import NatsDemo.Processor.Sent

/-!
# The fate of a message

What a delivery comes to, by the calls made in handling it: a message is completed,
discarded, refused, routed to the dead letter queue, terminated, or left alone by a worker
that crashes.  Of a job whose payload asks for failures it is shown which of its deliveries
are refused, and how the last one ends.
-/

namespace NatsDemo.Processor
open Lib Go Jobs Messaging

/-! ## Fates -/

inductive Fate where
  | completed
  | discarded
  | retried
  | routed
  | terminated
  | crashed
  deriving DecidableEq

/-- To refuse a message, so that it is delivered again. -/
def Sent.Refuses (seq : ℕ) : Sent → Prop
  | .nak s | .nakWithDelay s _ => s = seq
  | _ => False

instance (seq : ℕ) : DecidablePred (Sent.Refuses seq)
  | .nak s => inferInstanceAs (Decidable (s = seq))
  | .nakWithDelay s _ => inferInstanceAs (Decidable (s = seq))
  | .ack _ | .term _ | .deadLetter _ => inferInstanceAs (Decidable False)

/-- The fate of a message, by the calls made, whether or not they succeed.  A message that is
acknowledged without any report is discarded. -/
def fateOf (seq : ℕ) (calls : List Done) : Fate :=
  let sent := calls.filterMap sentOf
  if .term seq ∈ sent then .terminated
  else if ∃ s ∈ sent, s.Refuses seq then .retried
  else if .ack seq ∈ sent then
    if .deadLetter seq ∈ sent then .routed
    else if ∃ e ∈ calls, Reports e.1 then .completed
    else .discarded
  else .crashed

@[simp] theorem refuses_nak {s seq : ℕ} : (Sent.nak s).Refuses seq ↔ s = seq := Iff.rfl
@[simp] theorem refuses_nakWithDelay {s seq : ℕ} {delay : ℤ} :
    (Sent.nakWithDelay s delay).Refuses seq ↔ s = seq := Iff.rfl
@[simp] theorem not_refuses_ack {s seq : ℕ} : ¬ (Sent.ack s).Refuses seq := id
@[simp] theorem not_refuses_term {s seq : ℕ} : ¬ (Sent.term s).Refuses seq := id
@[simp] theorem not_refuses_deadLetter {s seq : ℕ} : ¬ (Sent.deadLetter s).Refuses seq := id

/-- The fate of a message that is handled, under a scenario. -/
def Handling.fate (arch : Platform) (h : Handling) (scenario : String) : Fate :=
  match branchOf (overrideScenario h.job.payload scenario) h.attemptCount with
  | some .crash | some .batch => .crashed
  | some .exceed => .completed
  | some .nak => .retried
  | some .term => .terminated
  | none =>
    if failureFires arch h.job.payload h.attemptCount then
      if maxDeliveryAttempts arch h.job.payload ≤ h.attemptCount then .routed else .retried
    else .completed

/-- The answers that a handling can get under a scenario: the policy is that of some state of
the processor. -/
structure Under (arch : Platform) (scenario : String)
    (answer : ℕ → (c : Call Op Label) → Call.Res Op.Res Bool c) : Prop where
  scenario : ∀ n, (answer n (.prim .readScenario)).1 = scenario
  ackPolicy : ∀ n, ∃ as, answer n (.prim .readAckPolicy) =
    (run (stepWorld arch) (State.empty arch) as).shared.app.consumerConfig.ackPolicy

section
variable {arch : Platform} {scenario : String} {n : ℕ}
  {answer : ℕ → (c : Call Op Label) → Call.Res Op.Res Bool c}

theorem Under.wanted (hanswer : Under arch scenario answer) : Wanted answer := by
  intro n
  obtain ⟨as, has⟩ := hanswer.ackPolicy n
  rw [has, (configured_run arch as).ackPolicy]
  decide

theorem fateOf_process (hanswer : Under arch scenario answer) (h : Handling) :
    fateOf h.d.seq ((h.process arch).transcript answer n) = h.fate arch scenario := by
  obtain ⟨r, ⟨k, hk⟩, -, hsent, -, hreports⟩ :=
    process_spec arch n hanswer.wanted h
  have hscenario : r.1 = scenario := by rw [hk, hanswer.scenario]
  rw [hscenario] at hsent
  rw [fateOf, hsent, Handling.sends, Handling.fate]
  simp only [hreports, if_true]
  cases hbranch : Handling.branchOf (Handling.overrideScenario h.job.payload scenario)
      h.attemptCount with
  | some b => cases b <;> simp [Handling.branchSends]
  | none =>
    simp only [Handling.evaluationSends]
    split_ifs <;> simp_all

/-- The fate of a delivery: that of its handling, or it is discarded. -/
theorem fateOf_handleJetStreamMsg (hanswer : Under arch scenario answer) (d : Delivery)
    (worker : String) :
    fateOf d.seq ((handleJetStreamMsg arch d worker).transcript answer 0) =
      (Handling.ofDelivery d worker).elim .discarded fun h => h.fate arch scenario := by
  cases hh : Handling.ofDelivery d worker with
  | none => simp [handleJetStreamMsg, hh, fateOf, Reports]
  | some h =>
    rw [handleJetStreamMsg_of_handled hh]
    obtain rfl := d_of_ofDelivery hh
    exact fateOf_process hanswer h

/-! ## What a fate can be told by -/

/-- The report that a job has completed. -/
def ReportsCompleted (job : Job) : Call Op Label → Prop
  | .prim (.recordWorkerEvent jobID jobType tag _ _ _ _) =>
    jobID = job.jobID ∧ jobType = job.type ∧ tag = "[COMPLETED]"
  | _ => False

/-- A dead letter about a job is sent. -/
def SendsLetter (job : Job) : Call Op Label → Prop
  | .prim (.publishDLQ _ m) => LetterOf job m
  | _ => False

/-- The calls come to the fate, and it can be told by them: the job is reported as completed
just if it is, and a dead letter about it is sent just if it is routed. -/
structure ComesTo (job : Job) (seq : ℕ) (calls : List Done) (f : Fate) : Prop where
  fate : fateOf seq calls = f
  completed : (∃ e ∈ calls, ReportsCompleted job e.1) ↔ f = .completed
  routed : (∃ e ∈ calls, SendsLetter job e.1) ↔ f = .routed

section
variable {arch : Platform} {scenario : String} {n : ℕ}
  {answer : ℕ → (c : Call Op Label) → Call.Res Op.Res Bool c}

theorem marked_of_sendsLetter {job : Job} {o : Call Op Label} (ho : SendsLetter job o) :
    Marked o := by
  cases o with
  | prim o => cases o <;> first | exact ho.elim | trivial
  | _ => exact ho.elim

/-- Only the slow processing ends a scenario with the report of a completion. -/
theorem completed_runBranch (h : Handling) (once : Bool) (b : Branch) :
    (∃ e ∈ (h.runBranch once b).transcript answer n, ReportsCompleted h.job e.1) ↔
      b = .exceed := by
  refine Proc.exists_mem_transcript_iff (fun hb => ?_) fun hb => ?_
  · -- the reset and the acknowledgement may or may not be called for; the report comes after
    subst hb
    refine Proc.Must.of_end (fun _ => ?_) (Handling.resetIfOnce once .exceed)
    refine Or.inr fun _ => ?_
    refine Proc.Must.of_end (fun _ => ?_) h.ackIfWanted
    exact Or.inl ⟨rfl, rfl, rfl⟩
  · cases b <;> cases once <;>
      simp [Handling.runBranch, Handling.crashBeforeAck, Handling.nakMessage,
        Handling.termMessage, Handling.resetIfOnce, Handling.recordWorkerEvent,
        ReportsCompleted] at hb ⊢

theorem completed_evaluate (h : Handling) :
    (∃ e ∈ (h.evaluate arch).transcript answer n, ReportsCompleted h.job e.1) ↔
      ¬ Handling.failureFires arch h.job.payload h.attemptCount := by
  rw [Handling.evaluate]
  refine Proc.exists_mem_transcript_iff (fun hfires => ?_) fun hfires => ?_
  · rw [if_neg hfires]
    exact Or.inl ⟨rfl, rfl, rfl⟩
  · rw [if_pos (not_not.mp hfires)]
    split_ifs
    · simp [Handling.routeToDLQ, Handling.recordWorkerEvent, Handling.ackIfWanted,
        ReportsCompleted]
    · simp [Handling.retry, Handling.recordWorkerEvent, ReportsCompleted]

theorem letter_evaluate (h : Handling) :
    (∃ e ∈ (h.evaluate arch).transcript answer n, SendsLetter h.job e.1) ↔ h.exhausted arch := by
  rw [Handling.evaluate]
  refine Proc.exists_mem_transcript_iff (fun hexhausted => ?_) fun hnot => ?_
  · rw [if_pos hexhausted.1, if_pos hexhausted.2]
    exact Or.inr fun now => Or.inl (letterOf_dlqMsg arch h now)
  · split_ifs with hfires hmax
    · exact absurd ⟨hfires, hmax⟩ hnot
    · exact (retry_avoids arch h).mono fun _ => marked_of_sendsLetter
    · exact (complete_avoids h).mono fun _ => marked_of_sendsLetter

/-- What a handling concludes with tells its fate. -/
theorem told_conclude (h : Handling) (r : String × Bool) :
    ((∃ e ∈ (h.conclude arch r).transcript answer n, ReportsCompleted h.job e.1) ↔
      h.fate arch r.1 = .completed) ∧
    ((∃ e ∈ (h.conclude arch r).transcript answer n, SendsLetter h.job e.1) ↔
      h.fate arch r.1 = .routed) := by
  rw [Handling.conclude, Handling.fate]
  cases Handling.branchOf (Handling.overrideScenario h.job.payload r.1) h.attemptCount with
  | some b =>
    have hnone : (h.runBranch r.2 b).Avoids (SendsLetter h.job) :=
      (runBranch_avoids h r.2 b).mono fun _ => marked_of_sendsLetter
    constructor
    · rw [completed_runBranch]
      cases b <;> simp
    · refine iff_of_false ?_ (by cases b <;> simp)
      rintro ⟨e, he, hletter⟩
      exact hnone.not_mem_transcript e he hletter
  | none =>
    constructor
    · rw [completed_evaluate]
      split_ifs with hfires <;> simp [hfires]
    · rw [letter_evaluate, Handling.exhausted]
      split_ifs <;> simp [*]

theorem comesTo_process (hanswer : Under arch scenario answer) (h : Handling) :
    ComesTo h.job h.d.seq ((h.process arch).transcript answer n) (h.fate arch scenario) := by
  obtain ⟨k, htranscript, -⟩ := exists_read arch answer n h
  obtain ⟨hcompleted, hrouted⟩ := @told_conclude arch (k + 1) answer h
    (answer k (.prim .readScenario))
  -- before it concludes, a handling tells nothing
  have hend {φ : Call Op Label → Prop} (hstart : h.start.Avoids φ)
      (hread : ¬ φ (.prim .readScenario)) :
      (∃ e ∈ (h.process arch).transcript answer n, φ e.1) ↔
        ∃ e ∈ (h.conclude arch (answer k (.prim .readScenario))).transcript answer (k + 1),
          φ e.1 := by
    rw [htranscript]
    constructor
    · rintro ⟨e, he, hφ⟩
      rcases List.mem_append.mp he with he | he
      · exact absurd hφ (hstart.not_mem_transcript e he)
      · rcases List.mem_cons.mp he with rfl | he
        · exact absurd hφ hread
        · exact ⟨e, he, hφ⟩
    · rintro ⟨e, he, hφ⟩
      exact ⟨e, List.mem_append_right _ (List.mem_cons_of_mem _ he), hφ⟩
  rw [hanswer.scenario] at hcompleted hrouted
  refine ⟨fateOf_process hanswer h, (hend ?_ id).trans hcompleted, (hend ?_ id).trans hrouted⟩
  all_goals
    by_cases hre : 1 < h.attemptCount <;>
      simp [Handling.start, Handling.recordPull, hre, Handling.recordWorkerEvent,
        ReportsCompleted, SendsLetter]

end

/-! ## Retries -/

/-- A number of the payload, without its fraction. -/
def truncated (p : Payload) (key : String) : Option ℤ :=
  match p.entry key with
  | some (.float q) => some (truncate q)
  | _ => none

/-- The number, if it is there, is within the range of an `int`. -/
def InRange (p : Payload) (key : String) : Prop :=
  ∀ k, truncated p key = some k → minInt ≤ k ∧ k ≤ maxInt

/-- The payload asks for failures. -/
def SimulatesFailure (p : Payload) : Prop := p.entry "simulate_failure" = some (.bool true)

/-- How many deliveries are to fail; zero stands for all. -/
def failureCount (p : Payload) : ℤ := (truncated p "simulate_failure_count").getD 0

/-- On which delivery a failed job is given up. -/
def lastAttempt (p : Payload) : ℤ :=
  match truncated p "max_delivery_attempts" with
  | some k => if 0 < k then k else 3
  | none => 3

/-- Delivered again after each refusal, a message is refused until its delivery `k`, which
comes to the fate `f`. -/
structure EndsOn (comesTo : ℕ → Fate → Prop) (k : ℤ) (f : Fate) : Prop where
  pos : 1 ≤ k
  retried : ∀ i : ℕ, 1 ≤ i → i < k → comesTo i .retried
  last : ∀ i : ℕ, i = k → comesTo i f

theorem int_eq_truncated {p : Payload} {key : String} (h : InRange p key) :
    p.int arch key = truncated p key := by
  rw [Payload.int, truncated]
  cases hentry : p.entry key with
  | none => rfl
  | some v =>
    cases v with
    | float q =>
      have hrange : minInt ≤ truncate q ∧ truncate q ≤ maxInt :=
        h _ (by simp [truncated, hentry])
      simp only [intOfFloat, if_pos hrange]
    | _ => rfl

theorem maxDeliveryAttempts_eq {p : Payload} (h : InRange p "max_delivery_attempts") :
    Handling.maxDeliveryAttempts arch p = lastAttempt p := by
  rw [Handling.maxDeliveryAttempts, Payload.positive, int_eq_truncated h]
  rfl

theorem one_le_lastAttempt (p : Payload) : 1 ≤ lastAttempt p := by
  rw [lastAttempt]
  cases truncated p "max_delivery_attempts" with
  | none => decide
  | some k =>
    dsimp only
    split_ifs <;> omega

theorem flag_eq_true_iff {p : Payload} {key : String} :
    p.flag key = true ↔ p.entry key = some (.bool true) := by
  rw [Payload.flag]
  cases hentry : p.entry key with
  | none => simp
  | some v => cases v <;> simp

theorem failureFires_iff {p : Payload} (h : InRange p "simulate_failure_count") (k : ℕ) :
    Handling.failureFires arch p k ↔
      SimulatesFailure p ∧ (failureCount p = 0 ∨ (k : ℤ) ≤ failureCount p) := by
  rw [Handling.failureFires, int_eq_truncated h, flag_eq_true_iff]
  rfl

/-- The fate of a delivery of a job while no scenario is in force. -/
theorem fate_of_normal (h : Handling) (hno : ¬ Overrides h.job.payload) :
    h.fate arch "normal" =
      if Handling.failureFires arch h.job.payload h.attemptCount then
        if Handling.maxDeliveryAttempts arch h.job.payload ≤ h.attemptCount then .routed
        else .retried
      else .completed := by
  have hnone : Handling.branchOf "normal" h.attemptCount = none := by
    simp [Handling.branchOf]
  rw [Handling.fate, overrideScenario_of_not hno, hnone]

theorem ofDelivery_of_mode {m : Msg} {job : Job} (hjob : Job.parse m.data = some job)
    (hmode : headerMode m ≠ "CORE") (hmode' : job.deliveryMode ≠ "CORE") (seq : ℕ)
    (metadata : Option Metadata) (worker : String) :
    Handling.ofDelivery ⟨seq, m, metadata⟩ worker =
      some ⟨⟨seq, m, metadata⟩, worker, job, headerMode m⟩ := by
  simp only [Handling.ofDelivery, hjob, hmode, hmode', or_self, if_false]

end

/-- What the deliveries of the message of a job come to, the `i`-th of which has the count
`i`. -/
def DeliveryComesTo (arch : Platform) (m : Msg) (job : Job) (seq : ℕ → ℕ) (stream : ℕ)
    (worker : ℕ → String) (answer : ℕ → ℕ → (c : Call Op Label) → Call.Res Op.Res Bool c)
    (i : ℕ) (f : Fate) : Prop :=
  ComesTo job (seq i) ((handleJetStreamMsg arch ⟨seq i, m, some ⟨stream, i⟩⟩
    (worker i)).transcript (answer i) 0) f

/-- **The law of retries.**  While no scenario is in force, a job that asks for no failures, or
for a negative number of them, completes on its first delivery.  One that asks for fewer
failures than it has attempts is refused as often, and then completes; any other is refused
until its last attempt, and routed to the dead letter queue on that.  The job is reported as
completed on the delivery that completes and on no other, and its dead letter is sent on the
delivery that is routed and on no other. -/
theorem retry_law (arch : Platform) {m : Msg} {job : Job} (hjob : Job.parse m.data = some job)
    (hmode : headerMode m ≠ "CORE") (hmode' : job.deliveryMode ≠ "CORE")
    (hno : ¬ Overrides job.payload) (hcount : InRange job.payload "simulate_failure_count")
    (hlast : InRange job.payload "max_delivery_attempts") (seq : ℕ → ℕ) (stream : ℕ)
    (worker : ℕ → String)
    {answer : ℕ → ℕ → (c : Call Op Label) → Call.Res Op.Res Bool c}
    (hanswer : ∀ i, Under arch "normal" (answer i)) :
    let comesTo := DeliveryComesTo arch m job seq stream worker answer
    let p := job.payload
    (¬ SimulatesFailure p ∨ failureCount p < 0 → EndsOn comesTo 1 .completed) ∧
    (SimulatesFailure p → 1 ≤ failureCount p → failureCount p < lastAttempt p →
      EndsOn comesTo (failureCount p + 1) .completed) ∧
    (SimulatesFailure p → failureCount p = 0 ∨ lastAttempt p ≤ failureCount p →
      EndsOn comesTo (lastAttempt p) .routed) := by
  intro comesTo p
  have hone := one_le_lastAttempt p
  have hfires (i : ℕ) : Handling.failureFires arch p i ↔
      SimulatesFailure p ∧ (failureCount p = 0 ∨ (i : ℤ) ≤ failureCount p) :=
    failureFires_iff hcount i
  have hcomes (i : ℕ) : comesTo i
      (if Handling.failureFires arch p i then if lastAttempt p ≤ i then .routed else .retried
      else .completed) := by
    have hh := ofDelivery_of_mode hjob hmode hmode' (seq i) (some ⟨stream, i⟩) (worker i)
    have hprocess := comesTo_process (n := 0) (hanswer i)
      ⟨⟨seq i, m, some ⟨stream, i⟩⟩, worker i, job, headerMode m⟩
    rw [← handleJetStreamMsg_of_handled hh, fate_of_normal _ hno, maxDeliveryAttempts_eq hlast]
      at hprocess
    exact hprocess
  refine ⟨fun hnot => ?_, fun hF hlow hhigh => ?_, fun hF hall => ?_⟩
  · have hnone (i : ℕ) (hi : (i : ℤ) = 1) : ¬ Handling.failureFires arch p i := by
      rw [hfires]
      rintro ⟨hF, hor⟩
      have hneg := hnot.resolve_left (not_not.mpr hF)
      omega
    refine ⟨le_refl 1, fun i hi hlt => ?_, fun i hi => ?_⟩
    · omega
    · have hi' := hcomes i
      rwa [if_neg (hnone i hi)] at hi'
  · refine ⟨by omega, fun i hi hlt => ?_, fun i hi => ?_⟩
    · have hfire : Handling.failureFires arch p i := (hfires i).mpr ⟨hF, Or.inr (by omega)⟩
      have hi' := hcomes i
      rwa [if_pos hfire, if_neg (by omega)] at hi'
    · have hfire : ¬ Handling.failureFires arch p i := by
        rw [hfires]
        rintro ⟨-, hor⟩
        omega
      have hi' := hcomes i
      rwa [if_neg hfire] at hi'
  · have hfire (i : ℕ) (hi : (i : ℤ) ≤ lastAttempt p) : Handling.failureFires arch p i :=
      (hfires i).mpr ⟨hF, hall.imp_right hi.trans⟩
    refine ⟨hone, fun i _ hlt => ?_, fun i hi => ?_⟩
    · have hi' := hcomes i
      rwa [if_pos (hfire i hlt.le), if_neg (by omega)] at hi'
    · have hi' := hcomes i
      rwa [if_pos (hfire i hi.le), if_pos hi.ge] at hi'

theorem under_smoothAnswer (arch : Platform) (scenario : String) :
    Under arch scenario fun _ => smoothAnswer (scenario, false) :=
  ⟨fun _ => rfl, fun _ => ⟨[], rfl⟩⟩

/-- A job that always fails is routed to the dead letter queue on its third delivery. -/
theorem retry_law_failing :
    EndsOn (DeliveryComesTo .amd64 (jetStreamMsg "j1" [("simulate_failure", .bool true)])
      { jobID := "j1", payload := some [("simulate_failure", .bool true)] } id 7
      (fun _ => "processor-1") fun _ _ => smoothAnswer ("normal", false)) 3 .routed := by
  let job : Job := { jobID := "j1", payload := some [("simulate_failure", .bool true)] }
  have hjob : Job.parse (jetStreamMsg "j1" [("simulate_failure", .bool true)]).data = some job :=
    rfl
  have hrange {key : String} (hkey : truncated job.payload key = none) :
      InRange job.payload key := by
    intro k hk
    rw [hkey] at hk
    cases hk
  have hno : ¬ Overrides job.payload := by decide
  have hlaw := retry_law .amd64 hjob (by decide) (by decide) hno (hrange (by decide))
    (hrange (by decide)) id 7 (fun _ => "processor-1") fun _ => under_smoothAnswer .amd64 "normal"
  exact hlaw.2.2 rfl (Or.inl (by decide))

end NatsDemo.Processor
