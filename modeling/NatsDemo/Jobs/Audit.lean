import NatsDemo.Jobs.Service
import NatsDemo.Lib.Journal

/-!
# Records as audit trails

Every operation gives the store some recordings, one for each call of `AddJob` that it
makes.  The record of a job is a view of the recordings of its id: the first one says what
the job is, the last one what its status is, and its history tells them all.
-/

namespace NatsDemo.Jobs
open Go Lib

/-- A call of `AddJob`, at a time. -/
structure Recording where
  job : Job
  status : String
  time : Time

namespace Recording

def addTo (s : JobStore) (r : Recording) : JobStore := s.addJob r.job r.status r.time

/-- The record that the recordings of one job amount to. -/
def detail (rs : List Recording) : Option JobDetail :=
  rs.head?.map fun first =>
    { jobID := first.job.jobID
      type := first.job.type
      deliveryMode := first.job.deliveryMode
      payload := first.job.payload
      status := (rs.getLast?.map Recording.status).getD ""
      traceID := ((rs.map fun r => r.job.traceID).filter (· ≠ "")).getLastD ""
      history := rs.map fun r => ⟨r.status, r.time⟩ }

/-- One more recording is one more update, of a new record where there is none. -/
theorem detail_concat (rs : List Recording) (r : Recording) : detail (rs ++ [r]) =
    some (((detail rs).getD (.ofJob r.job)).update r.job r.status r.time) := by
  have htrace : (((rs ++ [r]).map fun r => r.job.traceID).filter (· ≠ "")).getLastD "" =
      if r.job.traceID = "" then ((rs.map fun r => r.job.traceID).filter (· ≠ "")).getLastD ""
      else r.job.traceID := by
    rw [List.map_append, List.filter_append, List.map_singleton]
    split_ifs with h
    · simp [h]
    · simp [h, List.getLastD_eq_getLast?]
  cases rs with
  | nil =>
    rw [detail, htrace]
    by_cases h : r.job.traceID = "" <;> simp [detail, JobDetail.update, JobDetail.ofJob, h]
  | cons first rs =>
    have hlast : (first :: (rs ++ [r])).getLast? = some r := by
      rw [← List.cons_append, List.getLast?_concat]
    rw [detail, htrace]
    simp [detail, JobDetail.update, hlast]

theorem detail_eq_foldl (rs : List Recording) : detail rs =
    rs.foldl (fun d r => some ((d.getD (.ofJob r.job)).update r.job r.status r.time)) none := by
  induction rs using List.reverseRecOn with
  | nil => rfl
  | append_singleton rs r ih => rw [List.foldl_concat, ← ih, detail_concat]

/-- The record of an id, in a store that was filled by some recordings. -/
theorem get?_foldl_addTo (rs : List Recording) (id : String) :
    (rs.foldl addTo []).get? id = detail (rs.filter fun r => r.job.jobID = id) := by
  have h := GoMap.get?_foldl_set (fun r : Recording => r.job.jobID)
    (fun r d => (d.getD (JobDetail.ofJob r.job)).update r.job r.status r.time) rs [] id
  rw [GoMap.get?_nil, ← detail_eq_foldl] at h
  exact h

end Recording

/-! ## What the operations record -/

/-- The recording of a submission, if it is accepted. -/
def submissionRecording (job : Job) (err : Option String) (now : Time) : List Recording :=
  if job.jobID = "" ∨ err.isSome then [] else [⟨Service.submission job, "SUBMITTED", now⟩]

/-- The recordings of a batch before its first failure, with `n` jobs to go and `seq` numbers
used. -/
def Batch.recordings (b : Batch) (type : String) (err : ℕ → Option String) (clock : ℕ → Clock) :
    ℕ → ℕ → ℕ → List Recording
  | 0, _, _ => []
  | n + 1, i, seq =>
    match err i with
    | some _ => []
    | none =>
      let seq := (seq + 1) % 2 ^ 64
      ⟨b.job type seq i (clock i), b.status, (clock i).stored⟩ ::
        b.recordings type err clock n (i + 1) seq

/-- The recordings of a batch request. -/
def Batch.recordingsOf (b : Batch) (s : Service) (req : QueuePublishRequest)
    (err : ℕ → Option String) (clock : ℕ → Clock) : List Recording :=
  b.recordings (if req.type = "" then b.defaultType else req.type) err clock (Batch.count req) 1
    s.queueJobSeq

namespace Service

def recordings (s : Service) : Op → List Recording
  | .submitJob job err now => submissionRecording job err now
  | .scheduleJob req clock =>
    if req.jobID = "" then [] else [⟨scheduledJob req, "SCHEDULED", clock.stored⟩]
  | .fire i err now =>
    (s.timers[i]?).elim [] fun timer => submissionRecording timer.1 err now
  | .validateJob job reply now =>
    let status := match reply with
      | .error _ => "VALIDATION_FAILED"
      | .ok resp => if resp.valid then "VALID" else "INVALID"
    [⟨job, status, now⟩]
  | .submitQueueJobs req err clock => queueBatch.recordingsOf s req err clock
  | .submitStreamJobs req err clock => streamBatch.recordingsOf s req err clock

theorem store_submitJob (s : Service) (job : Job) (err : Option String) (now : Time) :
    (s.submitJob job err now).2.store =
      (submissionRecording job err now).foldl Recording.addTo s.store := by
  rw [submitJob, submissionRecording]
  by_cases hid : job.jobID = ""
  · simp [hid]
  · rw [if_neg hid]
    cases err with
    | some e => simp
    | none => simp [hid, Recording.addTo]

theorem store_loop (b : Batch) (type : String) (err : ℕ → Option String) (clock : ℕ → Clock) (n : ℕ) :
    ∀ (i : ℕ) (s : Service) (ids : List String), (b.loop type err clock n i s ids).2.store =
      (b.recordings type err clock n i s.queueJobSeq).foldl Recording.addTo s.store := by
  induction n with
  | zero => exact fun _ _ _ => rfl
  | succ n ih =>
    intro i s ids
    rw [Batch.loop, Batch.recordings]
    cases err i with
    | some e => rfl
    | none =>
      dsimp only
      rw [ih, List.foldl_cons]
      rfl

/-- An operation writes its recordings, and nothing else. -/
theorem store_step (s : Service) (op : Op) :
    (s.step op).store = (s.recordings op).foldl Recording.addTo s.store := by
  cases op with
  | submitJob job err now => exact store_submitJob s job err now
  | scheduleJob req clock =>
    rw [step, scheduleJob, recordings]
    split_ifs <;> rfl
  | fire i err now =>
    rw [step, fire, recordings]
    cases htimer : s.timers[i]? with
    | none => rfl
    | some timer => exact store_submitJob _ timer.1 err now
  | validateJob job reply now => cases reply <;> rfl
  | submitQueueJobs req err clock => exact store_loop queueBatch _ err clock _ 1 s []
  | submitStreamJobs req err clock => exact store_loop streamBatch _ err clock _ 1 s []

/-- The recordings of a run. -/
def trail (s : Service) (ops : List Op) : List Recording := journal step recordings s ops

/-- The record of an id is the view of the recordings of the id in the run. -/
theorem getJob_trail (ops : List Op) (id : String) : (run step {} ops).getJob id =
    Recording.detail ((trail {} ops).filter fun r => r.job.jobID = id) := by
  have hstore := view_run Service.store store_step {} ops
  rw [getJob, hstore]
  exact Recording.get?_foldl_addTo _ id

end Service

end NatsDemo.Jobs
