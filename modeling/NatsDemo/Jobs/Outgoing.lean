import NatsDemo.Jobs.Accounts
import NatsDemo.Jobs.Deferred
import NatsDemo.Jobs.Handler
import NatsDemo.Jobs.Transport

/-!
# The jobs that leave the service

Every job that the service hands to its publisher can be written and read again: what was
posted came out of a document, and what a batch makes up has small numbers and a few keys.
-/

namespace NatsDemo.Jobs
open Go Lib

/-! ## Batches -/

/-- A number below `2 ^ 53` is a float of its own. -/
theorem wf_float_nat {n : ℕ} (hn : n < 2 ^ 53) : (Value.float n).Wf := by
  have hz : |(n : ℤ)| < 2 ^ 53 := by
    rw [abs_of_nonneg (Int.natCast_nonneg n)]
    exact_mod_cast hn
  refine IsFloat64.round ⟨n, 0, by simp, hz, by decide, ?_⟩
  have hq : |(n : ℚ)| < 2 ^ 53 := by exact_mod_cast hz
  exact hq.trans (pow_lt_pow_right₀ (by decide) (by decide))

namespace Batch

/-- Whatever a batch adds to the payload, it is text under a key of its own. -/
structure Plain (b : Batch) : Prop where
  sent : ∀ job, (b.sent job).job = job
  extra : ∀ seq, Value.WfEntries (b.extra seq)
  keys : ∀ seq, ∀ k ∈ GoMap.keys (b.extra seq), k ∉ ["sequence", "batch_index", "timestamp"]

theorem queueBatch_plain : queueBatch.Plain where
  sent _ := rfl
  extra _ := trivial
  keys _ _ hk := absurd hk List.not_mem_nil

theorem streamBatch_plain : streamBatch.Plain where
  sent _ := rfl
  extra _ := ⟨⟨List.not_mem_nil, trivial⟩, trivial⟩
  keys _ k hk := by
    obtain rfl := List.mem_singleton.mp hk
    show "file" ∉ _
    decide

variable {b : Batch}

theorem job_wf (hb : b.Plain) {seq i : ℕ} (hseq : seq < 2 ^ 53) (hi : i < 2 ^ 53) (type : String)
    (clock : Clock) : (b.job type seq i clock).Wf where
  headers _ hm := nomatch hm
  payload := by
    intro m hm
    obtain rfl := Option.some_inj.mp hm
    obtain ⟨hkeys, hvalues⟩ := wfEntries_iff.mp (hb.extra seq)
    have hown : ["sequence", "batch_index", "timestamp"].Nodup := by decide
    rw [wfEntries_iff, GoMap.keys, List.map_append, List.nodup_append]
    refine ⟨⟨hkeys, hown, ?_⟩, ?_⟩
    · intro k hk k' hk' heq
      exact hb.keys seq k hk (heq ▸ hk')
    · intro e he
      rcases List.mem_append.mp he with he | he
      · exact hvalues e he
      · simp only [List.mem_cons, List.not_mem_nil, or_false] at he
        rcases he with rfl | rfl | rfl
        · exact wf_float_nat hseq
        · exact wf_float_nat hi
        · trivial

theorem taken_wf (hb : b.Plain) (type : String) (err : ℕ → Option String) (clock : ℕ → Clock)
    (n : ℕ) : ∀ i seq, seq + n < 2 ^ 53 → i + n ≤ 2 ^ 53 →
      ∀ job ∈ b.taken type err clock n i seq, job.Wf := by
  induction n with
  | zero => exact fun _ _ _ _ job hjob => absurd hjob List.not_mem_nil
  | succ n ih =>
    intro i seq hseq hi job hjob
    have hnext : (seq + 1) % 2 ^ 64 = seq + 1 := Nat.mod_eq_of_lt (by omega)
    rw [taken, hnext] at hjob
    cases herr : err i with
    | some e => simp [herr] at hjob
    | none =>
      simp only [herr, List.mem_cons] at hjob
      rcases hjob with rfl | hjob
      · exact job_wf hb (by omega) (by omega) type (clock i)
      · exact ih (i + 1) (seq + 1) (by omega) (by omega) job hjob

theorem queueJobSeq_loop (type : String) (err : ℕ → Option String) (clock : ℕ → Clock) (n : ℕ) :
    ∀ (i : ℕ) (s : Service) (ids : List String), s.queueJobSeq + n < 2 ^ 53 →
      (b.loop type err clock n i s ids).2.queueJobSeq ≤ s.queueJobSeq + n := by
  induction n with
  | zero => exact fun _ _ _ _ => Nat.le_refl _
  | succ n ih =>
    intro i s ids hroom
    have hnext : nextSeq s = s.queueJobSeq + 1 := Nat.mod_eq_of_lt (by omega)
    rw [loop, hnext]
    cases err i with
    | some e =>
      show s.queueJobSeq + 1 ≤ _
      omega
    | none =>
      have hrest := ih (i + 1) { s with
        queueJobSeq := s.queueJobSeq + 1
        store := s.store.addJob (b.job type (s.queueJobSeq + 1) i (clock i)) b.status
          (clock i).stored
        sent := s.sent ++ [b.sent (b.job type (s.queueJobSeq + 1) i (clock i))] }
        (ids ++ [(b.job type (s.queueJobSeq + 1) i (clock i)).jobID]) (by dsimp only; omega)
      dsimp only at hrest ⊢
      omega

end Batch

/-! ## The service -/

theorem ScheduleBody.payload_wf (body : Option Json) :
    (Go.unmarshal ScheduleBody.fields {} body).1.payload.Wf := by
  have hzero : Payload.Wf none := by
    intro m hm
    cases hm
  refine unmarshal_inv (P := fun b : ScheduleBody => b.payload.Wf) ?_ hzero body
  simp only [ScheduleBody.fields, List.forall_mem_cons]
  refine ⟨?_, ?_, ?_, ?_, ?_, ?_, nofun⟩
  case refine_3 => exact anyMapField_inv fun _ _ => rfl
  case refine_5 => exact intField_inv fun _ _ => id
  all_goals exact stringField_inv fun _ _ => id

namespace Service

/-- The number of jobs that an operation asks for by the number. -/
def Op.asked : Op → ℕ
  | .submitQueueJobs req _ _ | .submitStreamJobs req _ _ => Batch.count req
  | _ => 0

/-- What an operation is given came out of a document. -/
def Op.Wf : Op → Prop
  | .submitJob job _ _ => job.Wf
  | .scheduleJob req _ => req.payload.Wf
  | _ => True

/-- All jobs that were handed over, and those that wait for their time, can be written. -/
structure Writable (s : Service) : Prop where
  sent : ∀ x ∈ s.sent, x.job.Wf
  timers : ∀ t ∈ s.timers, t.1.Wf

variable {s : Service}

theorem Writable.submitJob (hs : s.Writable) {job : Job} (hjob : job.Wf) (err : Option String)
    (now : Time) : (s.submitJob job err now).2.Writable := by
  refine ⟨?_, ?_⟩
  · rw [Service.submitJob]
    split_ifs
    · exact hs.sent
    · cases err with
      | some e => exact hs.sent
      | none =>
        intro x hx
        rcases List.mem_append.mp hx with hx | hx
        · exact hs.sent x hx
        · obtain rfl := List.mem_singleton.mp hx
          exact ⟨hjob.headers, hjob.payload⟩
  · rw [timers_submitJob]
    exact hs.timers

theorem queueJobSeq_submitJob (s : Service) (job : Job) (err : Option String) (now : Time) :
    (s.submitJob job err now).2.queueJobSeq = s.queueJobSeq := by
  rw [submitJob]
  split_ifs
  · rfl
  · cases err <;> rfl

theorem Writable.submitJobs {b : Batch} (hb : b.Plain) (hs : s.Writable)
    (req : QueuePublishRequest) (err : ℕ → Option String) (clock : ℕ → Clock)
    (hroom : s.queueJobSeq + Batch.count req < 2 ^ 53) :
    (b.submitJobs s req err clock).2.Writable := by
  refine ⟨?_, ?_⟩
  · intro x hx
    rw [Batch.submitJobs, Batch.sent_loop] at hx
    rcases List.mem_append.mp hx with hx | hx
    · exact hs.sent x hx
    · obtain ⟨job, hjob, rfl⟩ := List.mem_map.mp hx
      rw [hb.sent]
      exact Batch.taken_wf hb _ err clock _ 1 s.queueJobSeq hroom (by omega) job hjob
  · rw [Batch.submitJobs, timers_loop]
    exact hs.timers

/-- An operation hands over jobs that can be written, as long as the numbers are small. -/
theorem Writable.step (hs : s.Writable) {op : Op} (hop : op.Wf)
    (hroom : s.queueJobSeq + op.asked < 2 ^ 53) : (s.step op).Writable := by
  cases op with
  | submitJob job err now => exact hs.submitJob hop err now
  | scheduleJob req clock =>
    rw [Service.step, scheduleJob]
    split_ifs
    · exact hs
    · have hjob : (scheduledJob req).Wf := ⟨fun m hm => (Option.some_ne_none m hm.symm).elim, hop⟩
      refine ⟨?_, ?_⟩
      · intro x hx
        rcases List.mem_append.mp hx with hx | hx
        · exact hs.sent x hx
        · obtain rfl := List.mem_singleton.mp hx
          exact hjob
      · intro t ht
        rcases List.mem_append.mp ht with ht | ht
        · exact hs.timers t ht
        · obtain rfl := List.mem_singleton.mp ht
          exact hjob
  | fire i err now =>
    rw [Service.step, fire]
    cases htimer : s.timers[i]? with
    | none => exact hs
    | some timer =>
      have hrest : Writable { s with timers := s.timers.eraseIdx i } :=
        ⟨hs.sent, fun t ht => hs.timers t (List.mem_of_mem_eraseIdx ht)⟩
      exact hrest.submitJob (hs.timers timer (List.mem_of_getElem? htimer)) err now
  | validateJob job reply now => cases reply <;> exact ⟨hs.sent, hs.timers⟩
  | submitQueueJobs req err clock =>
    exact hs.submitJobs Batch.queueBatch_plain req err clock hroom
  | submitStreamJobs req err clock =>
    exact hs.submitJobs Batch.streamBatch_plain req err clock hroom

/-- The counter goes on by what is asked for, at most. -/
theorem queueJobSeq_step {op : Op} (hroom : s.queueJobSeq + op.asked < 2 ^ 53) :
    (s.step op).queueJobSeq ≤ s.queueJobSeq + op.asked := by
  cases op with
  | submitJob job err now => exact (queueJobSeq_submitJob s job err now).le
  | scheduleJob req clock =>
    rw [Service.step, scheduleJob]
    split_ifs <;> exact Nat.le_refl _
  | fire i err now =>
    rw [Service.step, fire]
    cases s.timers[i]? with
    | none => exact Nat.le_refl _
    | some timer => exact (queueJobSeq_submitJob _ timer.1 err now).le
  | validateJob job reply now => cases reply <;> exact Nat.le_refl _
  | submitQueueJobs req err clock => exact Batch.queueJobSeq_loop _ err clock _ 1 s [] hroom
  | submitStreamJobs req err clock => exact Batch.queueJobSeq_loop _ err clock _ 1 s [] hroom

/-- What holds of the operations one by one, over a run. -/
theorem Writable.run {ops : List Op} (hs : s.Writable) (hops : ∀ op ∈ ops, op.Wf)
    (hroom : s.queueJobSeq + (ops.map Op.asked).sum < 2 ^ 53) :
    (Lib.run Service.step s ops).Writable := by
  induction ops generalizing s with
  | nil => exact hs
  | cons op ops ih =>
    obtain ⟨hop, hrest⟩ := List.forall_mem_cons.mp hops
    rw [List.map_cons, List.sum_cons] at hroom
    have hfirst : s.queueJobSeq + op.asked < 2 ^ 53 := by omega
    have hseq := queueJobSeq_step hfirst
    exact ih (hs.step hop hfirst) hrest (by omega)

end Service

namespace JobHandler

/-- The number of jobs that a request asks for by the number. -/
def Request.asked (r : Request) : ℕ := r.op.elim 0 Service.Op.asked

/-- What a request says came out of its body. -/
theorem Request.wf_op {r : Request} {op : Service.Op} (h : r.op = some op) : op.Wf := by
  cases r with
  | submitJob c body err =>
    simp only [Request.op] at h
    split_ifs at h
    obtain rfl := Option.some_inj.mp h
    have hjob := Job.wf_unmarshal body
    cases hid : c.traceID <;> simp only [Context.traced, hid, Option.elim_none, Option.elim_some]
    · exact hjob
    · exact ⟨hjob.headers, hjob.payload⟩
  | scheduleJob c body =>
    simp only [Request.op] at h
    split_ifs at h
    obtain rfl := Option.some_inj.mp h
    exact ScheduleBody.payload_wf body
  | validateJob c body reply =>
    simp only [Request.op] at h
    split_ifs at h
    obtain rfl := Option.some_inj.mp h
    trivial
  | getJob jobID => cases h
  | submitQueueJobs body err clock =>
    obtain rfl := Option.some_inj.mp h
    trivial
  | submitStreamJobs body err clock =>
    obtain rfl := Option.some_inj.mp h
    trivial
  | fire i err now =>
    obtain rfl := Option.some_inj.mp h
    trivial

/-- **What leaves can be read.**  As long as fewer than `2 ^ 53` jobs were asked for by the
number, every job that was handed over can be written and read. -/
theorem wf_of_mem_sent {rs : List Request} (hbound : (rs.map Request.asked).sum < 2 ^ 53) :
    ∀ x ∈ (run serve {} rs).sent, x.job.Wf := by
  have hsum : ((rs.filterMap Request.op).map Service.Op.asked).sum =
      (rs.map Request.asked).sum := by
    clear hbound
    induction rs with
    | nil => rfl
    | cons r rs ih =>
      cases hop : r.op with
      | none => simp [List.filterMap_cons_none hop, Request.asked, hop, ih]
      | some op => simp [List.filterMap_cons_some hop, Request.asked, hop, ih]
  have hops : ∀ op ∈ rs.filterMap Request.op, op.Wf := by
    intro op hop
    obtain ⟨r, -, hr⟩ := List.mem_filterMap.mp hop
    exact Request.wf_op hr
  rw [run_serve]
  have hstart : Service.Writable {} :=
    ⟨fun x hx => absurd hx List.not_mem_nil, fun t ht => absurd ht List.not_mem_nil⟩
  refine (hstart.run hops ?_).sent
  rw [hsum]
  exact (Nat.zero_add _).trans_lt hbound

end JobHandler

end NatsDemo.Jobs
