import NatsDemo.Processor.Fate

/-!
# The batch and the single message

Under the scenario for it, three messages that are fetched at once are handled as a batch,
and fewer one by one.  The batch acknowledges whatever it got: it neither looks whether the
body parsed, nor at the mode, nor at the failures that the payload asks for.
-/

namespace NatsDemo.Processor
open Lib Go Jobs Messaging

/-- The goroutine that a call starts. -/
def forkOf : Done → Option Label
  | ⟨.fork l, _⟩ => some l
  | _ => none

/-- The calls of a goroutine, and of those it starts. -/
def withForks (arch : Platform)
    (answer : ℕ → (c : Call Op Label) → Call.Res Op.Res Bool c) (calls : List Done) :
    List Done :=
  calls ++ (calls.filterMap forkOf).flatMap fun l => (program arch l).transcript answer 0

/-- The calls made for a batch of three messages: `answer` and `held` are the answers to the
worker and to the goroutine that holds back the second message. -/
def batchCalls (arch : Platform) (d1 d2 d3 : Delivery) (worker : String)
    (answer held : ℕ → (c : Call Op Label) → Call.Res Op.Res Bool c) : List Done :=
  withForks arch held ((handleOutOfOrderBatch d1 d2 d3 worker).transcript answer 0)

/-- A delivery that goes through under the scenario of the batch: its body parses, it is not a
CORE message, and neither its payload nor a simulated failure keeps it from completion. -/
def GoesThrough (arch : Platform) (d : Delivery) : Prop :=
  ∃ job, Job.parse d.msg.data = some job ∧ headerMode d.msg ≠ "CORE" ∧
    job.deliveryMode ≠ "CORE" ∧
    let scenario := Handling.overrideScenario job.payload "out_of_order_ack"
    let attempt := d.metadata.elim 1 Metadata.numDelivered
    scenario ≠ "term_message" ∧
      (attempt = 1 → scenario ≠ "crash_before_ack" ∧ scenario ≠ "nak_message") ∧
      (Handling.failureFires arch job.payload attempt →
        attempt = 1 ∧ scenario = "exceed_ack_wait")

section
variable {arch : Platform} {n : ℕ}
  {answer held : ℕ → (c : Call Op Label) → Call.Res Op.Res Bool c}

/-- The goroutine that closes the gap of a batch. -/
def gapOf (d2 d3 : Delivery) (worker : String) : Label :=
  let h2 := Handling.ofBatch d2 worker
  .healGap ⟨d2, h2.job, h2.deliveryMode, h2.batchAttempts, (Handling.ofBatch d3 worker).sequence⟩

/-- What is picked out of the calls of a batch, but for its reports. -/
theorem filterMap_handleOutOfOrderBatch {ι : Type} {f : Done → Option ι}
    {g : Call Op Label → Option ι} (hf : ∀ o r, f ⟨o, r⟩ = g o)
    (hreports : ∀ o, Reports o → g o = none) (hawait : ∀ i, g (.await i) = none)
    (d1 d2 d3 : Delivery) (worker : String) :
    ((handleOutOfOrderBatch d1 d2 d3 worker).transcript answer n).filterMap f =
      (g (.prim (.ack d1.seq))).toList ++ ((g (.fork (gapOf d2 d3 worker))).toList ++
        ((g (.prim (.ack d3.seq))).toList ++ [])) := by
  have hreport (o : Call Op Label) (ho : Reports o) (r : Call.Res Op.Res Bool o) :
      f ⟨o, r⟩ = none := (hf o r).trans (hreports o ho)
  refine Proc.filterMap_call_none (hreport _ (by trivial)) (fun _ => ?_) n
  refine Proc.filterMap_call (hf _) fun _ => Proc.filterMap_ite ?_ ?_
  on_goal 1 => refine Proc.filterMap_call_none (hreport _ (by trivial)) fun _ => ?_
  -- the rest is the same whether or not the first acknowledgement got through
  all_goals
    refine Proc.filterMap_call_none (hreport _ (by trivial)) fun _ => ?_
    refine Proc.filterMap_call (hf _) fun gap => ?_
    have hend (n : ℕ) : ((Proc.call (.await gap) fun _ => .ret () : Prog Unit).transcript
        answer n).filterMap f = [] :=
      Proc.filterMap_call_none (fun r => (hf _ r).trans (hawait gap)) (fun _ _ => rfl) n
    refine Proc.filterMap_call (hf _) fun _ => Proc.filterMap_ite ?_ hend
    exact Proc.filterMap_call_none (hreport _ (by trivial)) fun _ => hend

theorem sentOf_eq (o : Call Op Label) (r : Call.Res Op.Res Bool o) :
    sentOf ⟨o, r⟩ = sentOf ⟨o, someAnswer o⟩ := by
  cases o with
  | prim o => cases o <;> rfl
  | _ => rfl

/-- What the batch sends, of itself and through the goroutine that it starts. -/
theorem sent_batchCalls (d1 d2 d3 : Delivery) (worker : String) :
    (batchCalls arch d1 d2 d3 worker answer held).filterMap sentOf =
      [.ack d1.seq, .ack d3.seq, .ack d2.seq] := by
  have hsent : ((handleOutOfOrderBatch d1 d2 d3 worker).transcript answer 0).filterMap sentOf =
      [.ack d1.seq, .ack d3.seq] :=
    filterMap_handleOutOfOrderBatch sentOf_eq (fun o ho => sentOf_of_reports (e := ⟨o, _⟩) ho)
      (fun _ => rfl) d1 d2 d3 worker
  have hforks : ((handleOutOfOrderBatch d1 d2 d3 worker).transcript answer 0).filterMap forkOf =
      [gapOf d2 d3 worker] := by
    refine filterMap_handleOutOfOrderBatch (g := fun o => forkOf ⟨o, someAnswer o⟩) ?_ ?_
      (fun _ => rfl) d1 d2 d3 worker
    · intro o r
      cases o <;> rfl
    · intro o ho
      cases o with
      | prim o => rfl
      | _ => exact ho.elim
  have hgap : ((program arch (gapOf d2 d3 worker)).transcript held 0).filterMap sentOf =
      (some (Sent.ack d2.seq)).toList ++ [] := by
    refine Proc.filterMap_call_none (fun _ => rfl) (fun _ => ?_) 0
    refine Proc.filterMap_call_none (fun _ => rfl) fun _ => ?_
    refine Proc.filterMap_call (fun _ => rfl) fun _ => Proc.filterMap_ite ?_ ?_
    · exact Proc.filterMap_call_none (fun _ => rfl) fun _ _ => rfl
    · exact fun _ => rfl
  rw [batchCalls, withForks, List.filterMap_append, hsent, hforks, List.flatMap_singleton, hgap]
  rfl

/-- Whatever the messages are, the batch completes all three. -/
theorem fateOf_batchCalls (d1 d2 d3 : Delivery) (worker : String) :
    ∀ d ∈ [d1, d2, d3],
      fateOf d.seq (batchCalls arch d1 d2 d3 worker answer held) = .completed := by
  have hreports : ∃ e ∈ batchCalls arch d1 d2 d3 worker answer held, Reports e.1 :=
    ⟨_, List.mem_append_left _ List.mem_cons_self, by trivial⟩
  intro d hd
  have hack : Sent.ack d.seq ∈ [Sent.ack d1.seq, .ack d3.seq, .ack d2.seq] := by
    simp only [List.mem_cons, List.not_mem_nil, or_false] at hd
    rcases hd with rfl | rfl | rfl <;> simp
  simp only [fateOf, sent_batchCalls, hack, hreports, if_true]
  simp

/-- Under a scenario a message completes if no scenario drops it, and no simulated failure but
that of a slow first delivery befalls it. -/
theorem fate_eq_completed_iff (h : Handling) (value : String) :
    h.fate arch value = .completed ↔
      let scenario := Handling.overrideScenario h.job.payload value
      scenario ≠ "term_message" ∧
        (h.attemptCount = 1 → scenario ≠ "crash_before_ack" ∧ scenario ≠ "nak_message") ∧
        (Handling.failureFires arch h.job.payload h.attemptCount →
          h.attemptCount = 1 ∧ scenario = "exceed_ack_wait") := by
  dsimp only
  rw [Handling.fate]
  generalize Handling.overrideScenario h.job.payload value = scenario
  by_cases hcrash : scenario = "crash_before_ack" ∧ h.attemptCount = 1
  · rw [Handling.branchOf, if_pos hcrash]
    simp [hcrash]
  by_cases hexceed : scenario = "exceed_ack_wait" ∧ h.attemptCount = 1
  · rw [Handling.branchOf, if_neg hcrash, if_pos hexceed]
    simp [hexceed]
  by_cases hnak : scenario = "nak_message" ∧ h.attemptCount = 1
  · rw [Handling.branchOf, if_neg hcrash, if_neg hexceed, if_pos hnak]
    simp [hnak]
  by_cases hterm : scenario = "term_message"
  · rw [Handling.branchOf, if_neg hcrash, if_neg hexceed, if_neg hnak, if_pos hterm]
    simp [hterm]
  · rw [Handling.branchOf, if_neg hcrash, if_neg hexceed, if_neg hnak, if_neg hterm]
    have hfirst : h.attemptCount = 1 →
        scenario ≠ "crash_before_ack" ∧ scenario ≠ "nak_message" :=
      fun hone => ⟨fun heq => hcrash ⟨heq, hone⟩, fun heq => hnak ⟨heq, hone⟩⟩
    have hslow : ¬ (h.attemptCount = 1 ∧ scenario = "exceed_ack_wait") :=
      fun hslow => hexceed hslow.symm
    rw [and_iff_right hterm, and_iff_right hfirst]
    split_ifs with hfires
    · simp [hfires, hslow]
    · simp [hfires, hslow]
    · simp [hfires]

theorem goesThrough_iff (d : Delivery) (worker : String) :
    ((Handling.ofDelivery d worker).elim .discarded fun h => h.fate arch "out_of_order_ack") =
      .completed ↔ GoesThrough arch d := by
  rw [Handling.ofDelivery, GoesThrough]
  cases hjob : Job.parse d.msg.data with
  | none => simp
  | some job =>
    dsimp only
    simp only [Option.some.injEq, exists_eq_left']
    split_ifs with hcore
    · refine iff_of_false (by simp) ?_
      rintro ⟨hmode, hmode', -⟩
      exact hcore.elim hmode hmode'
    · obtain ⟨hmode, hmode'⟩ := not_or.mp hcore
      rw [Option.elim_some, fate_eq_completed_iff, and_iff_right hmode, and_iff_right hmode']
      rfl

end

/-- The batch gives its messages the fates that they have one by one, under the scenario that
it is for. -/
def BatchAgrees (arch : Platform) (d1 d2 d3 : Delivery) (worker : String)
    (answer held : ℕ → (c : Call Op Label) → Call.Res Op.Res Bool c)
    (single : Delivery → ℕ → (c : Call Op Label) → Call.Res Op.Res Bool c) : Prop :=
  ∀ d ∈ [d1, d2, d3], fateOf d.seq (batchCalls arch d1 d2 d3 worker answer held) =
    fateOf d.seq ((handleJetStreamMsg arch d worker).transcript (single d) 0)

theorem agrees_iff (arch : Platform) {d1 d2 d3 d : Delivery} (hd : d ∈ [d1, d2, d3])
    (worker : String) (answer held : ℕ → (c : Call Op Label) → Call.Res Op.Res Bool c)
    {single : ℕ → (c : Call Op Label) → Call.Res Op.Res Bool c}
    (hsingle : Under arch "out_of_order_ack" single) :
    fateOf d.seq (batchCalls arch d1 d2 d3 worker answer held) =
      fateOf d.seq ((handleJetStreamMsg arch d worker).transcript single 0) ↔
        GoesThrough arch d := by
  rw [fateOf_batchCalls d1 d2 d3 worker d hd, fateOf_handleJetStreamMsg hsingle d worker,
    eq_comm, goesThrough_iff]

/-- **When the batch agrees with the single message.**  All three messages fare in the batch as
they do one by one if and only if all three go through. -/
theorem batchAgrees_iff (arch : Platform) (d1 d2 d3 : Delivery) (worker : String)
    (answer held : ℕ → (c : Call Op Label) → Call.Res Op.Res Bool c)
    {single : Delivery → ℕ → (c : Call Op Label) → Call.Res Op.Res Bool c}
    (hsingle : ∀ d, Under arch "out_of_order_ack" (single d)) :
    BatchAgrees arch d1 d2 d3 worker answer held single ↔
      ∀ d ∈ [d1, d2, d3], GoesThrough arch d :=
  forall₂_congr fun d hd => agrees_iff arch hd worker answer held (hsingle d)

/-- A job without a payload of its own. -/
def plainJob (jobID : String) (seq : ℕ) : Delivery :=
  ⟨seq, jetStreamMsg jobID [], some ⟨seq, 1⟩⟩

theorem goesThrough_plainJob (jobID : String) (seq : ℕ) :
    GoesThrough .amd64 (plainJob jobID seq) := by
  have hmode : headerMode (plainJob jobID seq).msg = "JETSTREAM" := rfl
  have hscenario : Handling.overrideScenario (some []) "out_of_order_ack" = "out_of_order_ack" :=
    by decide
  refine ⟨{ jobID, payload := some [] }, rfl, by simp [hmode], by simp, ?_⟩
  dsimp only
  rw [hscenario]
  refine ⟨by decide, fun _ => by decide, ?_⟩
  intro hfires
  cases hfires.1

theorem batchAgrees_plain :
    BatchAgrees .amd64 (plainJob "j1" 1) (plainJob "j2" 2) (plainJob "j3" 3) "processor-1"
      (fun _ => smoothAnswer ("out_of_order_ack", false))
      (fun _ => smoothAnswer ("out_of_order_ack", false))
      fun _ _ => smoothAnswer ("out_of_order_ack", false) := by
  refine (batchAgrees_iff .amd64 _ _ _ _ _ _ fun _ => under_smoothAnswer _ _).mpr ?_
  simp only [List.forall_mem_cons]
  exact ⟨goesThrough_plainJob _ _, goesThrough_plainJob _ _, goesThrough_plainJob _ _,
    List.forall_mem_nil _⟩

/-- A job that is to fail. -/
def failingJob : Delivery := ⟨2, jetStreamMsg "j2" [("simulate_failure", .bool true)], some ⟨2, 1⟩⟩

theorem not_goesThrough_failingJob : ¬ GoesThrough .amd64 failingJob := by
  rintro ⟨job, hjob, -, -, -, -, hfires⟩
  obtain rfl := Option.some_inj.mp hjob
  exact absurd (hfires (by decide)) (by decide)

/-- The batch completes it, where a worker that handles it alone refuses it. -/
theorem not_batchAgrees :
    ¬ ∀ answer held single, (∀ d, Under .amd64 "out_of_order_ack" (single d)) →
      BatchAgrees .amd64 (plainJob "j1" 1) failingJob (plainJob "j3" 3) "processor-1"
        answer held single := by
  intro hall
  let answer : ℕ → (c : Call Op Label) → Call.Res Op.Res Bool c :=
    fun _ => smoothAnswer ("out_of_order_ack", false)
  have hanswer : Under .amd64 "out_of_order_ack" answer :=
    under_smoothAnswer .amd64 "out_of_order_ack"
  have hmem : failingJob ∈ [plainJob "j1" 1, failingJob, plainJob "j3" 3] := by simp
  have hagrees := hall answer answer (fun _ => answer) (fun _ => hanswer) failingJob hmem
  exact not_goesThrough_failingJob
    ((agrees_iff .amd64 hmem "processor-1" answer answer hanswer).mp hagrees)

end NatsDemo.Processor
