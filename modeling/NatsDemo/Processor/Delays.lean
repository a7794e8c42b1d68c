import NatsDemo.Go.Rounding
import NatsDemo.Jobs.Service
import NatsDemo.Processor.Fate

/-!
# Delays in whole seconds

A number of seconds becomes a `time.Duration` by a multiplication on 64 bits, with nothing
to stop it at the largest number that fits.  Beyond that number every delay is too short,
whichever way the product wraps.
-/

namespace NatsDemo.Processor
open Lib Go Jobs Messaging

/-- The largest number of seconds that a `time.Duration` holds. -/
def maxSeconds : ℤ := 9223372036

section
variable {n : ℤ}

theorem nakDelay_of_le (hn : 0 < n) (h : n ≤ maxSeconds) :
    Handling.nakDelay n = n * 1000000000 := by
  have hmax : n ≤ 9223372036 := h
  refine Int.bmod_eq_of_le ?_ ?_
  · norm_num
    omega
  · norm_num
    omega

/-- No duration is as long as that, whatever it was made from. -/
theorem nakDelay_lt (h : maxSeconds < n) (k : ℤ) : Handling.nakDelay k < n * 1000000000 := by
  have hmax : 9223372036 < n := h
  have hlt : Handling.nakDelay k < (((2 ^ 64 : ℕ) : ℤ) + 1) / 2 := Int.bmod_lt (by norm_num)
  norm_num at hlt
  omega

/-! ## Scheduled jobs -/

theorem delayOf_of_no_deliverAt {req : ScheduleJobRequest} (hat : req.deliverAt = none)
    (now : Time) : Service.delayOf req now =
      if Handling.nakDelay req.deliverAfterSec ≤ 0 then 5 * 1000000000
      else Handling.nakDelay req.deliverAfterSec := by
  rw [Service.delayOf, hat]
  rfl

/-- The wait is as long as was asked for, or shorter. -/
theorem delayOf_spec {req : ScheduleJobRequest} (hat : req.deliverAt = none) (now : Time)
    (hn : 0 < req.deliverAfterSec) :
    if req.deliverAfterSec ≤ maxSeconds then
      Service.delayOf req now = req.deliverAfterSec * 1000000000
    else Service.delayOf req now < req.deliverAfterSec * 1000000000 := by
  rw [delayOf_of_no_deliverAt hat]
  split_ifs with hle hwrap hwrap
  · rw [nakDelay_of_le hn hle] at hwrap
    omega
  · exact nakDelay_of_le hn hle
  · have hmax : ¬ req.deliverAfterSec ≤ 9223372036 := hle
    omega
  · exact nakDelay_lt (not_le.mp hle) _

example : Service.delayOf { jobID := "j1", deliverAfterSec := 18446744074 } 0 = 290448384 := by
  decide

theorem timers_scheduleJob {req : ScheduleJobRequest} (hid : req.jobID ≠ "") (s : Service)
    (clock : Clock) : (s.scheduleJob req clock).2.timers =
      s.timers ++ [(Service.scheduledJob req, Service.delayOf req clock.measured)] := by
  rw [Service.scheduleJob, if_neg hid]

/-- The timer of a scheduled job waits so long. -/
theorem timers_scheduleJob_iff {req : ScheduleJobRequest} (hid : req.jobID ≠ "")
    (hat : req.deliverAt = none) (hn : 0 < req.deliverAfterSec) (s : Service) (clock : Clock) :
    (s.scheduleJob req clock).2.timers =
        s.timers ++ [(Service.scheduledJob req, req.deliverAfterSec * 1000000000)] ↔
      req.deliverAfterSec ≤ maxSeconds := by
  have hspec := delayOf_spec hat clock.measured hn
  rw [timers_scheduleJob hid, List.append_cancel_left_eq, List.singleton_inj, Prod.mk_right_inj]
  split_ifs at hspec with hle
  · exact iff_of_true hspec hle
  · exact iff_of_false hspec.ne hle

end

/-! ## Refused jobs -/

/-- A scenario is in force that refuses the message, whatever its job. -/
def Handling.NaksUnder (h : Handling) (scenario : String) : Prop :=
  branchOf (overrideScenario h.job.payload scenario) h.attemptCount = some .nak

instance (h : Handling) (scenario : String) : Decidable (h.NaksUnder scenario) :=
  inferInstanceAs (Decidable (_ = _))

/-- The calls that refuse a message. -/
def Refusal : Call Op Label → Prop
  | .prim (.nak _) | .prim (.nakWithDelay _ _) => True
  | _ => False

theorem refusal_of_sentOf {e : Done} {x : Sent} {seq : ℕ} (he : sentOf e = some x)
    (hx : x.Refuses seq) : Refusal e.1 := by
  obtain ⟨o, r⟩ := e
  cases o with
  | prim o => cases o <;> cases he <;> first | exact trivial | exact hx.elim
  | _ => cases he

section
variable {arch : Platform} {answer : ℕ → (c : Call Op Label) → Call.Res Op.Res Bool c} {n : ℕ}

theorem runBranch_avoids_refusal (h : Handling) (once : Bool) {b : Branch} (hb : b ≠ .nak) :
    (h.runBranch once b).Avoids Refusal := by
  refine runBranch_avoids_of h once fun o hcall => ?_
  cases hcall with
  | nak => exact absurd rfl hb
  | _ => exact id

variable (arch) in
/-- A message is refused by the scenario for it, or because its job failed. -/
theorem conclude_cases (h : Handling) (r : String × Bool) :
    h.NaksUnder r.1 ∨
      (Handling.branchOf (Handling.overrideScenario h.job.payload r.1) h.attemptCount = none ∧
        h.conclude arch r = h.retry arch) ∨
      (h.conclude arch r).Avoids Refusal := by
  rw [Handling.conclude]
  split
  next b hb =>
    by_cases hnak : b = .nak
    · exact Or.inl (hb.trans (congrArg some hnak))
    · exact Or.inr (Or.inr (runBranch_avoids_refusal h r.2 hnak))
  next hb =>
    rw [Handling.evaluate]
    split_ifs
    · refine Or.inr (Or.inr ?_)
      simp [Handling.routeToDLQ, Handling.recordWorkerEvent, Handling.ackIfWanted, Refusal]
    · exact Or.inr (Or.inl ⟨hb, rfl⟩)
    · refine Or.inr (Or.inr ?_)
      simp [Handling.complete, Handling.recordWorkerEvent, Handling.ackIfWanted, Refusal]

/-- What is sent for a message that is refused. -/
theorem sent_of_refused (h : Handling)
    (hrefused : ∃ x ∈ ((h.process arch).transcript answer n).filterMap sentOf,
      x.Refuses h.d.seq) :
    ∃ r : String × Bool,
      (∀ r', (⟨.prim .readScenario, r'⟩ : Done) ∈ (h.process arch).transcript answer n ↔
        r' = r) ∧
      ((h.process arch).transcript answer n).filterMap sentOf =
        if h.NaksUnder r.1 then [.nak h.d.seq]
        else if 0 < Handling.nakDelaySec arch h.job.payload then
          [.nakWithDelay h.d.seq (Handling.nakDelay (Handling.nakDelaySec arch h.job.payload))]
        else [.nak h.d.seq] := by
  obtain ⟨k, hread, hsent, -⟩ := exists_conclude arch answer n h
  refine ⟨answer k (.prim .readScenario), hread, ?_⟩
  rw [hsent] at hrefused ⊢
  rcases conclude_cases arch h (answer k (.prim .readScenario)) with
    hnak | ⟨hnone, hretry⟩ | havoids
  · rw [if_pos hnak, Handling.conclude, hnak]
    exact sent_nakMessage h _
  · have hnot : ¬ h.NaksUnder (answer k (.prim .readScenario)).1 := by
      rw [Handling.NaksUnder, hnone]
      exact Option.some_ne_none _ ∘ Eq.symm
    rw [hretry, sent_retry, if_neg hnot]
  · obtain ⟨x, hx, hrefuses⟩ := hrefused
    obtain ⟨e, he, hsentOf⟩ := List.mem_filterMap.mp hx
    exact absurd (refusal_of_sentOf hsentOf hrefuses) (havoids.not_mem_transcript e he)

/-- A number of seconds that fits is read from a payload as it was written. -/
theorem nakDelaySec_of_le {p : Payload} {k : ℤ} (hk : 0 < k) (hle : k ≤ maxSeconds)
    (hentry : p.entry "nak_delay_seconds" = some (Json.int k).toValue) :
    Handling.nakDelaySec arch p = k := by
  have hmax : k ≤ 9223372036 := hle
  have hdigits : |k| < 2 ^ 53 := by
    rw [abs_of_pos hk]
    omega
  have hfloat : IsFloat64 (k : ℚ) := by
    refine ⟨k, 0, by simp, hdigits, by norm_num, ?_⟩
    calc |(k : ℚ)| < 2 ^ 53 := by exact_mod_cast hdigits
      _ < 2 ^ 1024 := pow_lt_pow_right₀ one_lt_two (by norm_num)
  have hvalue : (Json.int k).toValue = .float k := by
    rw [Json.toValue, Value.ofNumber, hfloat.round]
    rfl
  have hint : p.int arch "nak_delay_seconds" = some k := by
    rw [Payload.int, hentry, hvalue]
    refine congrArg some (intOfFloat_intCast arch ?_ ?_)
    · exact le_trans (by decide) hk.le
    · exact le_trans hmax (by decide)
  rw [Handling.nakDelaySec, Payload.positive, hint]
  exact if_pos hk

/-- A refused job waits for as long as its payload says if the number of seconds fits, and it
was not a scenario that refused it. -/
theorem sent_refused_iff {h : Handling} {k : ℤ} (hk : 0 < k)
    (hentry : h.job.payload.entry "nak_delay_seconds" = some (Json.int k).toValue)
    (hrefused : ∃ x ∈ ((h.process arch).transcript answer n).filterMap sentOf,
      x.Refuses h.d.seq) :
    ((h.process arch).transcript answer n).filterMap sentOf =
        [.nakWithDelay h.d.seq (k * 1000000000)] ↔
      k ≤ maxSeconds ∧ ∀ r : String × Bool,
        (⟨.prim .readScenario, r⟩ : Done) ∈ (h.process arch).transcript answer n →
          ¬ h.NaksUnder r.1 := by
  obtain ⟨r, hread, hsent⟩ := sent_of_refused h hrefused
  rw [hsent]
  simp only [hread, forall_eq]
  by_cases hnaks : h.NaksUnder r.1
  · rw [if_pos hnaks]
    refine iff_of_false ?_ fun hcond => hcond.2 hnaks
    simp
  · rw [if_neg hnaks]
    constructor
    · intro heq
      refine ⟨?_, hnaks⟩
      by_contra hgt
      split_ifs at heq with hpos
      · rw [List.singleton_inj, Sent.nakWithDelay.injEq] at heq
        exact absurd heq.2 (nakDelay_lt (not_le.mp hgt) _).ne
      · simp at heq
    · rintro ⟨hle, -⟩
      rw [nakDelaySec_of_le hk hle hentry, if_pos hk, nakDelay_of_le hk hle]

end

/-- **When a delay in seconds is honoured.**  A scheduled job waits for exactly as many seconds
as its request says, and a job refused for its failure for as many as its payload says, if and
only if the number fits into a `time.Duration`. -/
theorem delay_honoured_iff (arch : Platform) {n : ℤ} (hn : 0 < n) :
    (∀ (s : Service) (req : ScheduleJobRequest) (clock : Clock), req.jobID ≠ "" →
      req.deliverAfterSec = n → req.deliverAt = none →
        ((s.scheduleJob req clock).2.timers =
            s.timers ++ [(Service.scheduledJob req, n * 1000000000)] ↔ n ≤ maxSeconds)) ∧
    ∀ (d : Delivery) (worker : String) (h : Handling)
      (answer : ℕ → (c : Call Op Label) → Call.Res Op.Res Bool c),
      Handling.ofDelivery d worker = some h →
      h.job.payload.entry "nak_delay_seconds" = some (Json.int n).toValue →
        let calls := (handleJetStreamMsg arch d worker).transcript answer 0
        (∃ x ∈ calls.filterMap sentOf, x.Refuses d.seq) →
          (calls.filterMap sentOf = [.nakWithDelay d.seq (n * 1000000000)] ↔
            n ≤ maxSeconds ∧ ∀ r : String × Bool,
              (⟨.prim .readScenario, r⟩ : Done) ∈ calls → ¬ h.NaksUnder r.1) := by
  constructor
  · rintro s req clock hid rfl hat
    exact timers_scheduleJob_iff hid hat hn s clock
  · intro d worker h answer hh hentry calls hrefused
    have hcalls : calls = (h.process arch).transcript answer 0 :=
      congrArg (·.transcript answer 0) (handleJetStreamMsg_of_handled hh)
    obtain rfl := d_of_ofDelivery hh
    rw [hcalls] at hrefused ⊢
    exact sent_refused_iff hn hentry hrefused

/-- The first delivery of a job that fails, and is to wait for so many seconds. -/
def waiting (n : ℤ) : Delivery :=
  ⟨7, jetStreamMsg "j1" [("simulate_failure", .bool true), ("nak_delay_seconds", .int n)],
    some ⟨7, 1⟩⟩

def waitingJob (n : ℤ) : Job where
  jobID := "j1"
  payload := some [("nak_delay_seconds", (Json.int n).toValue), ("simulate_failure", .bool true)]

theorem ofDelivery_waiting {n : ℤ} (hfits : (Job.unmarshal (waiting n).msg.data).2 = true) :
    Handling.ofDelivery (waiting n) "processor-1" =
      some ⟨waiting n, "processor-1", waitingJob n, "JETSTREAM"⟩ := by
  have hjob : Job.parse (waiting n).msg.data = some (waitingJob n) := by
    rw [Job.parse, if_pos hfits]
    rfl
  have hmode : ("JETSTREAM" : String) ≠ "CORE" := by decide
  have hnone : ("" : String) ≠ "CORE" := by decide
  exact ofDelivery_of_mode hjob hmode hnone 7 (some ⟨7, 1⟩) "processor-1"

/-- Five seconds are five seconds, for a scheduled job and for a refused one. -/
theorem delay_honoured_five :
    (({} : Service).scheduleJob { jobID := "j1", deliverAfterSec := 5 } {}).2.timers =
        [(Service.scheduledJob { jobID := "j1", deliverAfterSec := 5 }, 5 * 1000000000)] ∧
      ((handleJetStreamMsg .amd64 (waiting 5) "processor-1").transcript
        (fun _ => smoothAnswer ("normal", false)) 0).filterMap sentOf =
          [.nakWithDelay 7 (5 * 1000000000)] := by
  have hhonoured := delay_honoured_iff .amd64 (n := 5) (by decide)
  have hh := ofDelivery_waiting (n := 5) (by decide +kernel)
  constructor
  · exact (hhonoured.1 {} _ {} (by decide) rfl rfl).mpr (by decide)
  · refine (hhonoured.2 (waiting 5) "processor-1" _ _ hh rfl (by decide +kernel)).mpr
      ⟨by decide, fun r hr => ?_⟩
    rw [handleJetStreamMsg_of_handled hh] at hr
    obtain ⟨k, hread, -⟩ := exists_conclude .amd64 (fun _ => smoothAnswer ("normal", false)) 0
      ⟨waiting 5, "processor-1", waitingJob 5, "JETSTREAM"⟩
    rw [(hread r).mp hr]
    decide

/-- Every scheduled job waits for as many seconds as its request says. -/
def SchedulesHonoured : Prop :=
  ∀ (s : Service) (req : ScheduleJobRequest) (clock : Clock), req.jobID ≠ "" →
    0 < req.deliverAfterSec → req.deliverAfterSec ≤ maxInt → req.deliverAt = none →
      (s.scheduleJob req clock).2.timers =
        s.timers ++ [(Service.scheduledJob req, req.deliverAfterSec * 1000000000)]

/-- Every refused job is to wait for as many seconds as its payload says. -/
def RefusalsHonoured : Prop :=
  ∀ (arch : Platform) (n : ℤ) (d : Delivery) (worker : String) (h : Handling)
    (answer : ℕ → (c : Call Op Label) → Call.Res Op.Res Bool c), 0 < n →
      Handling.ofDelivery d worker = some h →
      h.job.payload.entry "nak_delay_seconds" = some (Json.int n).toValue →
        let calls := (handleJetStreamMsg arch d worker).transcript answer 0
        (∃ x ∈ calls.filterMap sentOf, x.Refuses d.seq) →
          calls.filterMap sentOf = [.nakWithDelay d.seq (n * 1000000000)]

/-- A wait of 585 years is one of 0.29 seconds. -/
theorem not_delays_honoured : ¬ SchedulesHonoured ∧ ¬ RefusalsHonoured := by
  constructor
  · intro h
    have htimers := h {} { jobID := "j1", deliverAfterSec := 18446744074 } {} (by decide)
      (by decide) (by decide) rfl
    have hshort := (timers_scheduleJob_iff (by decide) rfl (by decide) {} {}).mp htimers
    exact absurd hshort (by decide)
  · intro h
    have hh := ofDelivery_waiting (n := 18446744074) (by decide +kernel)
    have hsent := h .amd64 18446744074 (waiting 18446744074) "processor-1" _
      (fun _ => smoothAnswer ("normal", false)) (by decide) hh rfl (by decide +kernel)
    exact absurd hsent (by decide +kernel)

end NatsDemo.Processor
