import Mathlib.Data.Set.Basic
import NatsDemo.Jobs.Service

/-!
# The accounts of a batch

The publisher, the store and the caller each have a view of a batch.  Whatever fails, the
first two see the same jobs, which are those before the first failure; the caller is told of
all of them or of none.
-/

namespace NatsDemo.Jobs
open Go Lib

/-- The job that is handed to the publisher. -/
def Sent.job : Sent → Job
  | .submitted job | .queued job | .scheduled job _ => job

/-! ## The three views -/

/-- The ids of the jobs that the publisher took between two states. -/
def publishedIDs (s s' : Service) : Set String :=
  {id | id ∈ (s'.sent.drop s.sent.length).map fun x => x.job.jobID}

/-- The ids of the records that were written between two states; each write shows in the
history. -/
def storedIDs (s s' : Service) : Set String := {id | s'.getJob id ≠ s.getJob id}

/-- The ids that the caller is told. -/
def reportedIDs : Except String QueuePublishResponse → Set String
  | .ok resp => {id | id ∈ resp.jobs}
  | .error _ => ∅

/-- The three views of a batch are the same. -/
structure Accounts (s : Service) (r : Except String QueuePublishResponse × Service) : Prop where
  reported : publishedIDs s r.2 = reportedIDs r.1
  stored : publishedIDs s r.2 = storedIDs s r.2

/-- The number of writes that the history of a job tells of. -/
def Service.writes (s : Service) (id : String) : ℕ :=
  (s.getJob id).elim 0 fun detail => detail.history.length

theorem Service.writes_addJob (s : Service) (job : Job) (status : String) (now : Time)
    (sent : List Sent) (id : String) :
    Service.writes { s with store := s.store.addJob job status now, sent := sent } id =
      s.writes id + [job.jobID].count id := by
  simp only [Service.writes, Service.getJob]
  by_cases hid : job.jobID = id
  · subst hid
    rw [JobStore.get?_addJob_self, List.count_singleton_self]
    cases s.store.get? job.jobID with
    | none => rfl
    | some detail => simp [JobDetail.update]
  · rw [JobStore.get?_addJob_of_ne _ _ _ _ hid, List.count_singleton, if_neg (by simpa using hid)]
    rfl

namespace Batch
variable (b : Batch) (type : String) (err : ℕ → Option String) (clock : ℕ → Clock)

/-- The jobs of a batch before its first failure, with `n` to go and `seq` numbers used. -/
def taken : ℕ → ℕ → ℕ → List Job
  | 0, _, _ => []
  | n + 1, i, seq =>
    match err i with
    | some _ => []
    | none => b.job type ((seq + 1) % 2 ^ 64) i (clock i) :: taken n (i + 1) ((seq + 1) % 2 ^ 64)

/-! ## What the loop does -/

section
variable {b type err clock} {n i : ℕ} {s : Service} {ids : List String}

theorem sent_loop : (b.loop type err clock n i s ids).2.sent =
    s.sent ++ (b.taken type err clock n i s.queueJobSeq).map b.sent := by
  induction n generalizing i s ids with
  | zero => simp [loop, taken]
  | succ n ih =>
    rw [loop, taken]
    cases err i with
    | some e => simp
    | none => simp [ih, nextSeq]

theorem getJob_loop {id : String}
    (h : id ∉ (b.taken type err clock n i s.queueJobSeq).map Job.jobID) :
    (b.loop type err clock n i s ids).2.getJob id = s.getJob id := by
  induction n generalizing i s ids with
  | zero => rfl
  | succ n ih =>
    rw [taken] at h
    rw [loop]
    cases herr : err i with
    | some e => rfl
    | none =>
      simp only [herr, List.map_cons, List.mem_cons, not_or] at h
      exact (ih h.2).trans (JobStore.get?_addJob_of_ne _ _ _ _ (Ne.symm h.1))

/-- Every job taken is written once. -/
theorem writes_loop (id : String) : (b.loop type err clock n i s ids).2.writes id =
    s.writes id + ((b.taken type err clock n i s.queueJobSeq).map Job.jobID).count id := by
  induction n generalizing i s ids with
  | zero => simp [loop, taken]
  | succ n ih =>
    rw [loop, taken]
    cases err i with
    | some e => simp [Service.writes, Service.getJob]
    | none =>
      have hsame : Service.writes { s with queueJobSeq := (s.queueJobSeq + 1) % 2 ^ 64 } id =
          s.writes id := rfl
      have hcons (x : String) (l : List String) : [x].count id + l.count id = (x :: l).count id :=
        List.count_append.symm
      rw [ih, Service.writes_addJob, nextSeq, hsame, Nat.add_assoc]
      exact congrArg (s.writes id + ·) (hcons _ _)

/-- The caller is told of all the jobs. -/
theorem result_loop_of_forall (h : ∀ k < n, err (i + k) = none) :
    (b.loop type err clock n i s ids).1 =
      .ok (ids ++ (b.taken type err clock n i s.queueJobSeq).map Job.jobID) := by
  induction n generalizing i s ids with
  | zero => simp [loop, taken]
  | succ n ih =>
    have hfirst : err i = none := h 0 (Nat.succ_pos n)
    have hrest : ∀ k < n, err (i + 1 + k) = none := by
      intro k hk
      rw [Nat.add_assoc, Nat.add_comm 1]
      exact h (k + 1) (Nat.succ_lt_succ hk)
    simp only [loop, taken, hfirst, ih hrest, nextSeq, List.map_cons, List.append_assoc,
      List.cons_append, List.nil_append]

/-- A failure leaves the caller with an error alone. -/
theorem result_loop_of_fails (h : ¬ ∀ k < n, err (i + k) = none) :
    ∃ e, (b.loop type err clock n i s ids).1 = .error e := by
  induction n generalizing i s ids with
  | zero => exact absurd (fun k hk => absurd hk (Nat.not_lt_zero k)) h
  | succ n ih =>
    rw [loop]
    cases herr : err i with
    | some e => exact ⟨_, rfl⟩
    | none =>
      refine ih fun hrest => h ?_
      intro k hk
      cases k with
      | zero => exact herr
      | succ k =>
        have hk' := hrest k (Nat.lt_of_succ_lt_succ hk)
        rwa [Nat.add_assoc, Nat.add_comm 1] at hk'

theorem taken_eq_nil_iff {seq : ℕ} (hn : 0 < n) :
    b.taken type err clock n i seq = [] ↔ err i ≠ none := by
  obtain ⟨n, rfl⟩ := Nat.exists_eq_succ_of_ne_zero hn.ne'
  rw [taken]
  cases err i <;> simp

end

/-! ## The views of a batch -/

/-- The jobs that are published in a batch. -/
def takenOf (s : Service) (req : QueuePublishRequest) : List Job :=
  b.taken (if req.type = "" then b.defaultType else req.type) err clock (count req) 1 s.queueJobSeq

section
variable {b err clock} {s : Service} {req : QueuePublishRequest}

theorem mem_publishedIDs_iff (hsent : ∀ job, (b.sent job).job = job) {id : String} :
    id ∈ publishedIDs s (b.submitJobs s req err clock).2 ↔
      id ∈ (b.takenOf err clock s req).map Job.jobID := by
  have hjobs : (fun x : Sent => x.job.jobID) ∘ b.sent = Job.jobID := by
    funext job
    exact congrArg Job.jobID (hsent job)
  rw [publishedIDs, submitJobs, sent_loop, List.drop_left, List.map_map, hjobs]
  rfl

theorem mem_storedIDs_iff {id : String} : id ∈ storedIDs s (b.submitJobs s req err clock).2 ↔
    id ∈ (b.takenOf err clock s req).map Job.jobID := by
  constructor
  · intro hwritten
    by_contra hnot
    exact hwritten (getJob_loop hnot)
  · intro hmem hsame
    have hwrites : (b.submitJobs s req err clock).2.writes id =
        s.writes id + ((b.takenOf err clock s req).map Job.jobID).count id := writes_loop id
    have hcount := List.count_pos_iff.mpr hmem
    rw [Service.writes, hsame] at hwrites
    have hback : (s.getJob id).elim 0 (fun detail => detail.history.length) = s.writes id := rfl
    omega

/-- The publisher and the store always see the same jobs. -/
theorem publishedIDs_eq_storedIDs (hsent : ∀ job, (b.sent job).job = job) :
    publishedIDs s (b.submitJobs s req err clock).2 =
      storedIDs s (b.submitJobs s req err clock).2 := by
  ext id
  rw [mem_publishedIDs_iff hsent, mem_storedIDs_iff]

theorem one_le_count (req : QueuePublishRequest) : 0 < count req := by
  rw [count]
  split_ifs with hcount
  · norm_num
  · omega

theorem reportedIDs_submitJobs : reportedIDs (b.submitJobs s req err clock).1 =
    if ∀ k < count req, err (1 + k) = none then
      {id | id ∈ (b.takenOf err clock s req).map Job.jobID}
    else ∅ := by
  rw [submitJobs]
  by_cases hall : ∀ k < count req, err (1 + k) = none
  · simp only [if_pos hall, result_loop_of_forall hall]
    rfl
  · obtain ⟨e, he⟩ : ∃ e, (b.loop (if req.type = "" then b.defaultType else req.type) err clock
        (count req) 1 s []).1 = .error e := result_loop_of_fails hall
    simp only [if_neg hall, he]
    rfl

/-- The accounts agree when nothing fails, or when the first publish does. -/
theorem accounts_iff (hsent : ∀ job, (b.sent job).job = job) :
    Accounts s (b.submitJobs s req err clock) ↔
      (∀ i, 1 ≤ i → i ≤ count req → err i = none) ∨ err 1 ≠ none := by
  have hall : (∀ i, 1 ≤ i → i ≤ count req → err i = none) ↔
      ∀ k < count req, err (1 + k) = none := by
    constructor
    · intro h k hk
      exact h (1 + k) (by omega) (by omega)
    · intro h i hlow hhigh
      obtain ⟨k, rfl⟩ := Nat.exists_eq_add_of_le hlow
      exact h k (by omega)
  have hpublished : publishedIDs s (b.submitJobs s req err clock).2 =
      {id | id ∈ (b.takenOf err clock s req).map Job.jobID} :=
    Set.ext fun id => mem_publishedIDs_iff hsent
  have hempty : {id | id ∈ (b.takenOf err clock s req).map Job.jobID} = (∅ : Set String) ↔
      err 1 ≠ none := by
    have hnil : b.takenOf err clock s req = [] ↔ err 1 ≠ none := taken_eq_nil_iff (one_le_count req)
    rw [← hnil, Set.eq_empty_iff_forall_notMem, ← List.map_eq_nil_iff (f := Job.jobID),
      List.eq_nil_iff_forall_not_mem]
    rfl
  have hreported : Accounts s (b.submitJobs s req err clock) ↔
      publishedIDs s (b.submitJobs s req err clock).2 = reportedIDs (b.submitJobs s req err clock).1 :=
    ⟨fun h => h.reported, fun h => ⟨h, publishedIDs_eq_storedIDs hsent⟩⟩
  rw [hreported, hpublished, reportedIDs_submitJobs, hall]
  split_ifs with hok
  · exact iff_of_true rfl (Or.inl hok)
  · rw [hempty, or_iff_right hok]

end

end Batch

/-- **When a batch is accounted for.**  What is published is always stored.  The caller is told
of it if and only if no publish of the batch fails, or its first one does. -/
theorem batches_account_iff (s : Service) (req : QueuePublishRequest) (err : ℕ → Option String)
    (clock : ℕ → Clock) :
    (Accounts s (s.submitQueueJobs req err clock) ↔
      (∀ i, 1 ≤ i → i ≤ Batch.count req → err i = none) ∨ err 1 ≠ none) ∧
    (Accounts s (s.submitStreamJobs req err clock) ↔
      (∀ i, 1 ≤ i → i ≤ Batch.count req → err i = none) ∨ err 1 ≠ none) :=
  ⟨Batch.accounts_iff fun _ => rfl, Batch.accounts_iff fun _ => rfl⟩

/-- Every batch is accounted for. -/
def BatchesAccount : Prop :=
  ∀ (s : Service) (req : QueuePublishRequest) (err : ℕ → Option String) (clock : ℕ → Clock),
    Accounts s (s.submitQueueJobs req err clock) ∧ Accounts s (s.submitStreamJobs req err clock)

/-- Of a batch of two the second publish fails: the first job is on its way, and the caller is
told of none. -/
theorem not_batchesAccount : ¬ BatchesAccount := by
  intro h
  have haccounts := h {} { count := 2 } (fun i => if i = 2 then some "nats: timeout" else none)
    fun _ => {}
  have hpublished : "job-q-101" ∈ publishedIDs {} (Service.submitQueueJobs {} { count := 2 }
      (fun i => if i = 2 then some "nats: timeout" else none) fun _ => {}).2 :=
    List.mem_singleton.mpr rfl
  rw [haccounts.1.reported] at hpublished
  exact hpublished

end NatsDemo.Jobs
