import NatsDemo.Jobs.Records

/-!
# What becomes of a scheduled job

The submission that a timer makes when it fires is like any other, but nobody looks at its
result.  A job that was published shows it; one that was not stays as it was scheduled.
-/

namespace NatsDemo.Jobs
open Go Lib

namespace Service

/-- The status in the last entry of a job's history. -/
def lastStatus (s : Service) (id : String) : Option String :=
  (s.getJob id).bind fun detail => detail.history.getLast?.map JobHistoryItem.status

/-- The record of a job tells how its submission went. -/
def ShowsOutcome (s : Service) (id : String) (err : Option String) : Prop :=
  ∃ status, s.lastStatus id = some status ∧ status ≠ "SCHEDULED" ∧
    (status = "SUBMITTED" ↔ err = none)

/-- The timer of a request. -/
def timerOf (req : ScheduleJobRequest) (clock : Clock) : Job × ℤ :=
  (scheduledJob req, delayOf req clock.measured)

section
variable {s : Service} {req : ScheduleJobRequest} {clock : Clock} {id : String}

theorem lastStatus_addJob (s : Service) (job : Job) (status : String) (now : Time)
    (sent : List Sent) (timers : List (Job × ℤ)) :
    lastStatus { s with
      store := s.store.addJob job status now, sent := sent, timers := timers } job.jobID =
        some status := by
  rw [lastStatus, getJob, JobStore.get?_addJob_self]
  simp [JobDetail.update]

theorem scheduleJob_of_isOk (h : (s.scheduleJob req clock).1.isOk = true) :
    req.jobID ≠ "" ∧ (s.scheduleJob req clock).2.lastStatus req.jobID = some "SCHEDULED" ∧
      (s.scheduleJob req clock).2.timers = s.timers ++ [timerOf req clock] := by
  rw [scheduleJob] at h ⊢
  split_ifs at h ⊢ with hid
  · cases h
  · exact ⟨hid, lastStatus_addJob s (scheduledJob req) "SCHEDULED" clock.stored _ _, rfl⟩

/-- A timer that fires leaves the record as it was, unless the job is published. -/
theorem lastStatus_fire {i : ℕ} (htimer : s.timers[i]? = some (timerOf req clock))
    (hid : req.jobID ≠ "") (err : Option String) (now' : Time) :
    (s.fire i err now').lastStatus req.jobID =
      if err = none then some "SUBMITTED" else s.lastStatus req.jobID := by
  have hid' : (timerOf req clock).1.jobID ≠ "" := hid
  simp only [fire, htimer]
  rw [submitJob, if_neg hid']
  cases err with
  | some e => rfl
  | none => exact lastStatus_addJob _ (submission (scheduledJob req)) "SUBMITTED" now' _ _

/-! ## The other operations -/

theorem timers_loop (b : Batch) (type : String) (err : ℕ → Option String) (clock : ℕ → Clock)
    (n i : ℕ) (s : Service) (ids : List String) :
    (b.loop type err clock n i s ids).2.timers = s.timers := by
  induction n generalizing i s ids with
  | zero => rfl
  | succ n ih =>
    rw [Batch.loop]
    cases err i with
    | some e => rfl
    | none => exact ih _ _ _

theorem timers_submitJob (s : Service) (job : Job) (err : Option String) (now : Time) :
    (s.submitJob job err now).2.timers = s.timers := by
  rw [submitJob]
  split_ifs
  · rfl
  · cases err <;> rfl

/-- A timer stays until an operation on its job. -/
theorem mem_timers_step {timer : Job × ℤ} (hmem : timer ∈ s.timers) {op : Op}
    (h : ¬ s.Touches timer.1.jobID op) : timer ∈ (s.step op).timers := by
  cases op with
  | submitJob job err now => rwa [step, timers_submitJob]
  | scheduleJob req clock =>
    rw [step, scheduleJob]
    split_ifs
    · exact hmem
    · exact List.mem_append_left _ hmem
  | fire i err now =>
    simp only [Touches, not_exists, not_and] at h
    rw [step, fire]
    cases htimer : s.timers[i]? with
    | none => exact hmem
    | some fired =>
      obtain ⟨k, hk⟩ := List.mem_iff_getElem?.mp hmem
      have hne : k ≠ i := by
        rintro rfl
        exact h timer hk rfl
      show timer ∈ (submitJob { s with timers := s.timers.eraseIdx i } fired.1 err now).2.timers
      rw [timers_submitJob]
      exact List.mem_eraseIdx_iff_getElem?.mpr ⟨k, hne, hk⟩
  | validateJob job reply now => cases reply <;> exact hmem
  | submitQueueJobs req err clock =>
    rw [step, submitQueueJobs, Batch.submitJobs, timers_loop]
    exact hmem
  | submitStreamJobs req err clock =>
    rw [step, submitStreamJobs, Batch.submitJobs, timers_loop]
    exact hmem

theorem mem_timers_run {timer : Job × ℤ} {ops : List Op} (hmem : timer ∈ s.timers)
    (h : Meets step (fun s op => ¬ s.Touches timer.1.jobID op) s ops) :
    timer ∈ (run step s ops).timers :=
  run_inv (fun s => timer ∈ s.timers) (fun _ _ hmem hop => mem_timers_step hmem hop) hmem h

theorem lastStatus_run {ops : List Op} (h : Meets step (fun s op => ¬ s.Touches id op) s ops) :
    (run step s ops).lastStatus id = s.lastStatus id := by
  rw [lastStatus, run_getJob h, lastStatus]

end

/-- **When a scheduled job does not stay so.**  Through all operations on other jobs the timer
of an accepted request is there, and once it has fired, the record shows the outcome if and
only if the publish succeeded. -/
theorem showsOutcome_iff {s : Service} {req : ScheduleJobRequest} {clock : Clock}
    (haccepted : (s.scheduleJob req clock).1.isOk = true) {before : List Op}
    (hbefore : Meets step (fun s op => ¬ s.Touches req.jobID op) (s.scheduleJob req clock).2
      before) :
    let s' := run step (s.scheduleJob req clock).2 before
    (∃ i : ℕ, s'.timers[i]? = some (timerOf req clock)) ∧
    ∀ (i : ℕ) (err : Option String) (now' : Time) (after : List Op),
      s'.timers[i]? = some (timerOf req clock) →
      Meets step (fun s op => ¬ s.Touches req.jobID op) (s'.fire i err now') after →
        ((run step (s'.fire i err now') after).ShowsOutcome req.jobID err ↔ err = none) := by
  intro s'
  obtain ⟨hid, hscheduled, htimers⟩ := scheduleJob_of_isOk haccepted
  constructor
  · refine List.mem_iff_getElem?.mp (mem_timers_run ?_ hbefore)
    rw [htimers]
    exact List.mem_append_right _ List.mem_cons_self
  · intro i err now' after htimer hafter
    rw [ShowsOutcome, lastStatus_run hafter, lastStatus_fire htimer hid, lastStatus_run hbefore,
      hscheduled]
    split_ifs with herr
    · refine iff_of_true ⟨"SUBMITTED", rfl, by decide, iff_of_true rfl herr⟩ herr
    · refine iff_of_false ?_ herr
      rintro ⟨status, hstatus, hne, -⟩
      exact hne (Option.some_inj.mp hstatus).symm

/-- Another job is submitted while the first one waits. -/
theorem showsOutcome_published :
    let s' := run step (({} : Service).scheduleJob { jobID := "job-1" } {}).2
      [.submitJob { jobID := "job-2" } (some "nats: timeout") 1]
    (s'.fire 0 none 5).ShowsOutcome "job-1" none := by
  have hbefore : Meets step (fun s op => ¬ s.Touches "job-1" op)
      (({} : Service).scheduleJob { jobID := "job-1" } {}).2
      [.submitJob { jobID := "job-2" } (some "nats: timeout") 1] := by
    refine ⟨?_, trivial⟩
    simp [Touches]
  have hshows := @showsOutcome_iff {} { jobID := "job-1" } {} rfl _ hbefore
  exact (hshows.2 0 none 5 [] rfl trivial).mpr rfl

/-- Whatever the outcome, the record shows it when the timer has fired. -/
def DeferredShown : Prop :=
  ∀ (s : Service) (req : ScheduleJobRequest) (clock : Clock) (before : List Op),
    (s.scheduleJob req clock).1.isOk = true →
    Meets step (fun s op => ¬ s.Touches req.jobID op) (s.scheduleJob req clock).2 before →
      let s' := run step (s.scheduleJob req clock).2 before
      ∀ (i : ℕ) (err : Option String) (now' : Time) (after : List Op),
        s'.timers[i]? = some (timerOf req clock) →
        Meets step (fun s op => ¬ s.Touches req.jobID op) (s'.fire i err now') after →
          (run step (s'.fire i err now') after).ShowsOutcome req.jobID err

/-- The publish of the only job fails, and the job stays scheduled. -/
theorem not_deferredShown : ¬ DeferredShown := by
  intro h
  obtain ⟨status, hstatus, hne, -⟩ :=
    h {} { jobID := "job-1" } {} [] rfl trivial 0 (some "nats: timeout") 5 [] rfl trivial
  exact hne (Option.some_inj.mp hstatus).symm

end Service

end NatsDemo.Jobs
