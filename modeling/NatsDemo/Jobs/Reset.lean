import NatsDemo.Messaging.JetStream

/-!
# Resetting the stream of jobs

The reset deletes JOBS and creates it again.  An error of the deletion is taken to mean that
there was no stream, whatever it says; the creation that follows leaves a stream that is
still there as it is, so the reset reports success for a stream that was never reset.
-/

namespace NatsDemo.Jobs
open Go Messaging

/-- The errors of the calls of a reset, if they fail. -/
structure ResetFaults where
  deleteStream : Option String := none
  createStream : Option String := none
  createConsumer : Option String := none

/-- `EnsureJobsStream`. -/
def ensureJobsStream (b : Broker) (f : ResetFaults) : Option String × Broker :=
  match b.createOrUpdateStream jobsStreamConfig f.createStream with
  | (some err, b) => (some ("failed to add or update JOBS stream: " ++ err), b)
  | (none, b) =>
    match b.createOrUpdateConsumer "JOBS" jobProcessorConfig f.createConsumer with
    | (some err, b) => (some ("failed to create durable consumer job-processor: " ++ err), b)
    | (none, b) => (none, b)

/-- `ResetJobsStream`. -/
def resetJobsStream (b : Broker) (f : ResetFaults) : Option String × Broker :=
  ensureJobsStream (b.deleteStream "JOBS" f.deleteStream).2 f

/-- The answer of `ResetStream`, and the streams after it; there may be no client. -/
def resetStream (client : Bool) (b : Broker) (f : ResetFaults) : (ℕ × Json) × Broker :=
  if !client then ((500, .obj [("error", .str "NATS client not initialized")]), b)
  else
    match resetJobsStream b f with
    | (some err, b) => ((500, .obj [("error", .str err)]), b)
    | (none, b) => ((200, .obj
        [("message", .str "JOBS stream recreated successfully. Sequence reset to 1."),
         ("status", .str "SUCCESS"), ("stream", .str "JOBS")]), b)

/-- JOBS is there without a message, it numbers the next one with 1, and its consumer has
delivered nothing and seen nothing acknowledged. -/
def IsReset (b : Broker) : Prop :=
  ∃ s, b.get? "JOBS" = some s ∧ s.messages = [] ∧ s.nextSeq = 1 ∧
    ∃ c, s.consumers.get? "job-processor" = some c ∧ c.delivered = [] ∧ c.acknowledged = []

/-- A stream as it is when it was never used. -/
structure Unused (s : JetStream) : Prop where
  messages : s.messages = []
  lastSeq : s.lastSeq = 0
  consumer : ∀ c ∈ s.consumers.get? "job-processor", c.delivered = [] ∧ c.acknowledged = []

/-! ## What the calls do -/

section
variable {b : Broker} {f : ResetFaults}

/-- JOBS after it was ensured: what was there is kept. -/
def ensured (s : Option JetStream) : JetStream :=
  let s := s.elim (.fresh jobsStreamConfig) fun s => { s with config := jobsStreamConfig }
  let c := (s.consumers.get? "job-processor").elim { config := jobProcessorConfig }
    fun c => { c with config := jobProcessorConfig }
  { s with consumers := s.consumers.set "job-processor" c }

theorem get?_createOrUpdateStream (b : Broker) (config : StreamConfig) :
    (b.createOrUpdateStream config none).1 = none ∧
      (b.createOrUpdateStream config none).2.get? config.name =
        some ((b.get? config.name).elim (.fresh config) fun s => { s with config }) := by
  cases hget : b.get? config.name with
  | none =>
    simp only [Broker.createOrUpdateStream, hget]
    exact ⟨trivial, GoMap.get?_set_self _ _ _⟩
  | some s =>
    simp only [Broker.createOrUpdateStream, hget]
    exact ⟨trivial, GoMap.get?_set_self _ _ _⟩

theorem get?_deleteStream (b : Broker) (name : String) (fault : Option String) :
    (b.deleteStream name fault).2.get? name = if fault = none then none else b.get? name := by
  cases fault with
  | some err => rfl
  | none =>
    cases hget : b.get? name with
    | none => simp only [Broker.deleteStream, hget, if_true]
    | some s =>
      simp only [Broker.deleteStream, hget, if_true]
      exact GoMap.get?_filter_self b name

theorem ensureJobsStream_isSome (h : f.createStream.isSome ∨ f.createConsumer.isSome) :
    (ensureJobsStream b f).1.isSome := by
  obtain ⟨fdelete, fstream, fconsumer⟩ := f
  cases fstream with
  | some err => rfl
  | none =>
    obtain ⟨hnone, hget⟩ := get?_createOrUpdateStream b jobsStreamConfig
    obtain ⟨err, rfl⟩ := Option.isSome_iff_exists.mp (h.resolve_left Bool.false_ne_true)
    rw [ensureJobsStream]
    generalize b.createOrUpdateStream jobsStreamConfig none = r at hnone hget
    obtain ⟨r, b'⟩ := r
    cases hnone
    rfl

theorem ensureJobsStream_none (hstream : f.createStream = none)
    (hconsumer : f.createConsumer = none) : (ensureJobsStream b f).1 = none ∧
      (ensureJobsStream b f).2.get? "JOBS" = some (ensured (b.get? "JOBS")) := by
  obtain ⟨hnone, hget⟩ := get?_createOrUpdateStream b jobsStreamConfig
  rw [ensureJobsStream, hstream, hconsumer]
  generalize b.createOrUpdateStream jobsStreamConfig none = r at hnone hget
  obtain ⟨r, b'⟩ := r
  cases hnone
  have hjobs : b'.get? "JOBS" = _ := hget
  simp only [Broker.createOrUpdateConsumer, hjobs]
  exact ⟨trivial, GoMap.get?_set_self _ _ _⟩

/-- A reset fails only where the creation does. -/
theorem resetJobsStream_eq_none_iff : (resetJobsStream b f).1 = none ↔
    f.createStream = none ∧ f.createConsumer = none := by
  constructor
  · intro hnone
    rw [← Option.not_isSome_iff_eq_none, ← Option.not_isSome_iff_eq_none, ← not_or]
    intro hfails
    have hsome := ensureJobsStream_isSome (b := (b.deleteStream "JOBS" f.deleteStream).2) hfails
    rw [← resetJobsStream, hnone] at hsome
    cases hsome
  · rintro ⟨hstream, hconsumer⟩
    exact (ensureJobsStream_none hstream hconsumer).1

/-- A stream that is ensured is as if it was reset, if it was never used. -/
theorem isReset_iff {s : Option JetStream} (hget : b.get? "JOBS" = some (ensured s)) :
    IsReset b ↔ ∀ s' ∈ s, Unused s' := by
  cases s with
  | none =>
    refine iff_of_true ⟨_, hget, rfl, rfl, ?_⟩ fun _ h => by cases h
    exact ⟨_, GoMap.get?_set_self _ _ _, rfl, rfl⟩
  | some s =>
    have hconsumer : (ensured (some s)).consumers.get? "job-processor" =
        some ((s.consumers.get? "job-processor").elim { config := jobProcessorConfig }
          fun c => { c with config := jobProcessorConfig }) := GoMap.get?_set_self _ _ _
    constructor
    · rintro ⟨s', hs', hmessages, hnext, c, hc, hdelivered, hacknowledged⟩ t ht
      obtain rfl := Option.mem_some_iff.mp ht
      obtain rfl := Option.some_inj.mp (hget.symm.trans hs')
      have hc' := Option.some_inj.mp (hconsumer.symm.trans hc)
      refine ⟨hmessages, Nat.succ.inj hnext, ?_⟩
      intro c' hc''
      rw [Option.mem_def.mp hc''] at hc'
      subst hc'
      exact ⟨hdelivered, hacknowledged⟩
    · intro h
      obtain ⟨hmessages, hlast, hunused⟩ := h s rfl
      refine ⟨_, hget, hmessages, congrArg Nat.succ hlast, _, hconsumer, ?_⟩
      cases hc : s.consumers.get? "job-processor" with
      | none => exact ⟨rfl, rfl⟩
      | some c => exact hunused c hc

end

/-- **When a successful reset is one.**  Where a call of the creation fails, the reset tells
so.  Where both succeed, JOBS is reset if and only if it was deleted or had never been used. -/
theorem resetJobsStream_real_iff (b : Broker) (f : ResetFaults) :
    ((resetJobsStream b f).1 = none → IsReset (resetJobsStream b f).2) ↔
      f.createStream.isSome ∨ f.createConsumer.isSome ∨ f.deleteStream = none ∨
        ∀ s ∈ b.get? "JOBS", Unused s := by
  by_cases hcreated : f.createStream = none ∧ f.createConsumer = none
  · obtain ⟨hstream, hconsumer⟩ := hcreated
    have hget := (ensureJobsStream_none (b := (b.deleteStream "JOBS" f.deleteStream).2)
      hstream hconsumer).2
    rw [← resetJobsStream, get?_deleteStream] at hget
    simp only [resetJobsStream_eq_none_iff, isReset_iff hget, hstream, hconsumer, true_imp_iff,
      and_self, Option.isSome_none, Bool.false_eq_true, false_or]
    by_cases hdelete : f.deleteStream = none
    · simp [hdelete]
    · simp [hdelete]
  · refine iff_of_true ?_ ?_
    · intro hnone
      exact absurd (resetJobsStream_eq_none_iff.mp hnone) hcreated
    · rw [← or_assoc, ← Option.ne_none_iff_isSome, ← Option.ne_none_iff_isSome]
      exact .inl (not_and_or.mp hcreated)

/-- The answer says that JOBS was reset whenever the creation succeeds, whatever became of the
deletion. -/
theorem resetStream_ok_iff (b : Broker) (f : ResetFaults) :
    (resetStream true b f).1.1 = 200 ↔ f.createStream = none ∧ f.createConsumer = none := by
  have hanswer : (resetStream true b f).1.1 = 200 ↔ (resetJobsStream b f).1 = none := by
    rw [resetStream]
    generalize resetJobsStream b f = r
    obtain ⟨err, b'⟩ := r
    cases err with
    | none => simp
    | some err => simp
  rw [hanswer, resetJobsStream_eq_none_iff]

/-- JOBS with one message, which its consumer has delivered. -/
def usedStream : JetStream where
  config := jobsStreamConfig
  messages := [⟨1, 0, { subject := "jobs.submitted" }⟩]
  lastSeq := 1
  consumers := [("job-processor", { config := jobProcessorConfig, delivered := [1] })]
  ordered := List.pairwise_singleton _ _
  numbered := by decide

/-- The deletion runs out of time, and the reset succeeds with the message still there. -/
theorem resetJobsStream_kept :
    ¬ ((resetJobsStream [("JOBS", usedStream)]
        { deleteStream := some "context deadline exceeded" }).1 = none →
      IsReset (resetJobsStream [("JOBS", usedStream)]
        { deleteStream := some "context deadline exceeded" }).2) := by
  intro h
  obtain ⟨s, hs, hmessages, -⟩ := h rfl
  obtain rfl := Option.some_inj.mp hs
  cases hmessages

end NatsDemo.Jobs
