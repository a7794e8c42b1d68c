import NatsDemo.Jobs.Service

/-!
# What the record of a submitted job shows

An operation leaves the records of other jobs alone, so a record shows what the last
operation on its job left there.  An accepted submission leaves its status and its trace id,
but type, mode and payload stay as the first operation on the job wrote them.
-/

namespace NatsDemo.Jobs
open Go Lib

/-! ## Other jobs -/

namespace Batch
variable (b : Batch) (type : String) (err : ℕ → Option String) (clock : ℕ → Clock)

/-- A batch leaves the records alone whose ids it would not use. -/
theorem loop_getJob {id : String} {n : ℕ} : ∀ {i : ℕ} {s : Service} {ids : List String},
    (∀ k < n, b.jobID ((s.queueJobSeq + (k + 1)) % 2 ^ 64) ≠ id) →
      (b.loop type err clock n i s ids).2.getJob id = s.getJob id := by
  induction n with
  | zero =>
    intro i s ids _
    rfl
  | succ n ih =>
    intro i s ids h
    rw [loop]
    cases err i with
    | some e => rfl
    | none =>
      have hfirst : b.jobID (nextSeq s) ≠ id := h 0 (Nat.succ_pos n)
      rw [ih]
      · exact JobStore.get?_addJob_of_ne _ _ _ _ hfirst
      · intro k hk
        have hseq : (nextSeq s + (k + 1)) % 2 ^ 64 = (s.queueJobSeq + (k + 1 + 1)) % 2 ^ 64 := by
          rw [nextSeq]
          omega
        show b.jobID ((nextSeq s + (k + 1)) % 2 ^ 64) ≠ id
        rw [hseq]
        exact h (k + 1) (Nat.succ_lt_succ hk)

theorem submitJobs_getJob {id : String} {s : Service} {req : QueuePublishRequest}
    (h : id ∉ b.ids s req) : (b.submitJobs s req err clock).2.getJob id = s.getJob id := by
  refine loop_getJob b _ err clock ?_
  intro k hk heq
  exact h (List.mem_map.mpr ⟨k, List.mem_range.mpr hk, heq⟩)

end Batch

namespace Service

theorem submitJob_getJob_of_ne {s : Service} {job : Job} (err : Option String) (now : Time)
    {id : String} (h : job.jobID ≠ id) : (s.submitJob job err now).2.getJob id = s.getJob id := by
  rw [submitJob]
  split_ifs with hid
  · rfl
  · cases err with
    | some e => rfl
    | none => exact JobStore.get?_addJob_of_ne _ _ _ _ h

/-- An operation leaves the records of the jobs alone that it is not about. -/
theorem step_getJob {s : Service} {id : String} {op : Op} (h : ¬ s.Touches id op) :
    (s.step op).getJob id = s.getJob id := by
  cases op with
  | submitJob job err now => exact submitJob_getJob_of_ne err now h
  | scheduleJob req clock =>
    rw [step, scheduleJob]
    split_ifs with hid
    · rfl
    · exact JobStore.get?_addJob_of_ne _ _ _ _ h
  | fire i err now =>
    simp only [Touches, not_exists, not_and] at h
    rw [step, fire]
    cases htimer : s.timers[i]? with
    | none => rfl
    | some timer => exact submitJob_getJob_of_ne err now (h timer htimer)
  | validateJob job reply now =>
    cases reply with
    | error e => exact JobStore.get?_addJob_of_ne _ _ _ _ h
    | ok resp => exact JobStore.get?_addJob_of_ne _ _ _ _ h
  | submitQueueJobs req err clock => exact queueBatch.submitJobs_getJob err clock h
  | submitStreamJobs req err clock => exact streamBatch.submitJobs_getJob err clock h

/-- A run leaves the record of a job alone as long as none of its operations is about it. -/
theorem run_getJob {s : Service} {id : String} {ops : List Op}
    (h : Meets step (fun s op => ¬ s.Touches id op) s ops) :
    (run step s ops).getJob id = s.getJob id := by
  induction ops generalizing s with
  | nil => rfl
  | cons op ops ih =>
    obtain ⟨hop, hops⟩ := h
    rw [run_cons, ih hops, step_getJob hop]

/-! ## Submissions -/

/-- The job, as it is published, of an operation that submits one with success. -/
def accepted (s : Service) : Op → Option Job
  | .submitJob job err now =>
    if (s.submitJob job err now).1.isOk then some (submission job) else none
  | .fire i err now => (s.timers[i]?).bind fun timer =>
    if (s.submitJob timer.1 err now).1.isOk then some (submission timer.1) else none
  | _ => none

theorem submitJob_of_isOk {s : Service} {job : Job} {err : Option String} {now : Time}
    (h : (s.submitJob job err now).1.isOk = true) : (s.submitJob job err now).2 =
      { s with
        store := s.store.addJob (submission job) "SUBMITTED" now
        sent := s.sent ++ [.submitted (submission job)] } := by
  rw [submitJob] at h ⊢
  split_ifs at h ⊢ with hid
  · cases h
  · cases err with
    | some e => cases h
    | none => rfl

/-- What an accepted submission does to the records, and that its job was published. -/
theorem step_of_accepted {s : Service} {op : Op} {job : Job} (h : s.accepted op = some job) :
    ∃ now, (s.step op).store = s.store.addJob job "SUBMITTED" now ∧
      (s.step op).sent = s.sent ++ [.submitted job] := by
  cases op with
  | submitJob job' err now =>
    rw [accepted] at h
    split_ifs at h with hok
    obtain rfl := Option.some_inj.mp h
    rw [step, submitJob_of_isOk hok]
    exact ⟨now, rfl, rfl⟩
  | fire i err now =>
    obtain ⟨timer, htimer, h⟩ := Option.bind_eq_some_iff.mp h
    split_ifs at h with hok
    obtain rfl := Option.some_inj.mp h
    have hok' : (submitJob { s with timers := s.timers.eraseIdx i } timer.1 err now).1.isOk =
        true := by
      rw [← hok, submitJob, submitJob]
      split_ifs
      · rfl
      · cases err <;> rfl
    simp only [step, fire, htimer]
    rw [submitJob_of_isOk hok']
    exact ⟨now, rfl, rfl⟩
  | _ => cases h

/-- The record shows a job as it was published: payloads are the same when they are written
alike. -/
structure ShowsPublished (detail : JobDetail) (job : Job) : Prop where
  type : detail.type = job.type
  deliveryMode : detail.deliveryMode = job.deliveryMode
  payload : marshalMap detail.payload = marshalMap job.payload

/-- `GetJob` shows a submission: the job as published, the status and the trace id. -/
def ShowsSubmission (s : Service) (job : Job) : Prop :=
  ∃ detail, s.getJob job.jobID = some detail ∧ ShowsPublished detail job ∧
    detail.status = "SUBMITTED" ∧ (job.traceID ≠ "" → detail.traceID = job.traceID)

/-- A record that an accepted submission finds of its job shows what is published now. -/
def Agrees (s : Service) (op : Op) : Prop :=
  ∀ job, s.accepted op = some job → ∀ detail, s.getJob job.jobID = some detail →
    ShowsPublished detail job

/-- Status and trace id are always those of the submission. -/
theorem getJob_of_accepted {s : Service} {op : Op} {job : Job} (h : s.accepted op = some job) :
    ∃ detail, (s.step op).getJob job.jobID = some detail ∧ detail.status = "SUBMITTED" ∧
      (job.traceID ≠ "" → detail.traceID = job.traceID) ∧
      (ShowsPublished detail job ↔
        ∀ old, s.getJob job.jobID = some old → ShowsPublished old job) := by
  obtain ⟨now, hstore, -⟩ := step_of_accepted h
  refine ⟨((s.store.get? job.jobID).getD (.ofJob job)).update job "SUBMITTED" now, ?_, rfl, ?_, ?_⟩
  · rw [getJob, hstore]
    exact JobStore.get?_addJob_self _ _ _ _
  · intro htrace
    exact if_neg htrace
  · have hkeep (d : JobDetail) : ShowsPublished (d.update job "SUBMITTED" now) job ↔
        ShowsPublished d job :=
      ⟨fun h => ⟨h.type, h.deliveryMode, h.payload⟩, fun h => ⟨h.type, h.deliveryMode, h.payload⟩⟩
    rw [hkeep, getJob]
    cases s.store.get? job.jobID with
    | none =>
      have hfresh : ShowsPublished (.ofJob job) job := ⟨rfl, rfl, rfl⟩
      exact ⟨fun _ _ => nofun, fun _ => hfresh⟩
    | some old =>
      simp only [Option.getD_some, Option.some_inj, forall_eq']

/-- In every run, each accepted submission shows until the next operation on its job. -/
def ReflectsSubmissions (ops : List Op) : Prop :=
  ∀ before op after rest, ops = before ++ op :: (after ++ rest) →
    ∀ job, (run step {} before).accepted op = some job →
      Meets step (fun s op => ¬ s.Touches job.jobID op) ((run step {} before).step op) after →
      (run step {} (before ++ op :: after)).ShowsSubmission job

theorem showsSubmission_iff {s : Service} {op : Op} {job : Job} (h : s.accepted op = some job) :
    (s.step op).ShowsSubmission job ↔
      ∀ old, s.getJob job.jobID = some old → ShowsPublished old job := by
  obtain ⟨detail, hdetail, hstatus, htrace, hshows⟩ := getJob_of_accepted h
  rw [← hshows]
  constructor
  · rintro ⟨detail', hdetail', hpublished, -⟩
    obtain rfl := Option.some_inj.mp (hdetail.symm.trans hdetail')
    exact hpublished
  · intro hpublished
    exact ⟨detail, hdetail, hpublished, hstatus, htrace⟩

theorem ShowsSubmission.of_getJob {s s' : Service} {job : Job}
    (h : s'.getJob job.jobID = s.getJob job.jobID) (hs : s.ShowsSubmission job) :
    s'.ShowsSubmission job := by
  obtain ⟨detail, hdetail, hshows⟩ := hs
  exact ⟨detail, h.trans hdetail, hshows⟩

/-- **When records show the last submission.**  All accepted submissions of a run show, from
their return to the next operation on their job, if and only if each of them found no record
of its job, or one with the type, the mode and the payload that it publishes. -/
theorem reflectsSubmissions_iff (ops : List Op) :
    ReflectsSubmissions ops ↔ Meets step Agrees {} ops := by
  rw [meets_iff_forall]
  constructor
  · intro h before op rest hops job hjob
    have hshows : (run step {} (before ++ [op])).ShowsSubmission job :=
      h before op [] rest hops job hjob trivial
    rw [run_append] at hshows
    exact (showsSubmission_iff hjob).mp hshows
  · intro h before op after rest hops job hjob hafter
    have hshows := (showsSubmission_iff hjob).mpr (h before op (after ++ rest) hops job hjob)
    rw [run_append, run_cons]
    exact hshows.of_getJob (run_getJob hafter)

/-- A job is validated and then submitted as it is. -/
def validatedFirst : List Op :=
  [.validateJob { jobID := "job-1", type := "data-sync" }
     (.ok ⟨false, "payload is required", ""⟩) 0,
   .submitJob { jobID := "job-1", type := "data-sync" } none 0]

/-- The record of a job that was validated first has no mode. -/
theorem not_reflectsSubmissions : ¬ ReflectsSubmissions validatedFirst := by
  intro h
  obtain ⟨detail, hdetail, hpublished, -⟩ := h [_] _ [] [] rfl _ rfl trivial
  obtain rfl := Option.some_inj.mp hdetail
  have hmode : ("" : String) = "JETSTREAM" := hpublished.deliveryMode
  exact absurd hmode (by decide)

end Service

end NatsDemo.Jobs
