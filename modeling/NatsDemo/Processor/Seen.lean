import NatsDemo.Processor.Uses

/-!
# What a goroutine has seen and done

The ghost state of a goroutine: its reading of the scenario, stamped with the request it
stems from, how many messages it fetched, whether it wrote the scenario back, and how far
it got with a dead letter.  It is a function of the history, and of what was shared at
each of its operations.

Of every program it is shown when it may write the scenario back: once, after its only
reading, and in the branch that the value read leads to.
-/

namespace NatsDemo.Processor
open Lib Go Jobs Messaging

/-- What was read of the scenario: the number of the request that had set it, its value,
and whether it was to fire once. -/
structure Reading where
  stamp : ℕ
  value : String
  once : Bool
  deriving DecidableEq

def Fetched.messages : Fetched → List Delivery
  | .batch ds => ds
  | .timeout | .error => []

/-- `fetched` counts the messages of the last fetch, `published` is the dead letter that
the broker accepted, with the time, and `acked` the time of the last acknowledgement. -/
structure Seen where
  reading : Option Reading := none
  fetched : Option ℕ := none
  reset : Bool := false
  published : Option (Time × Msg) := none
  acked : Option Time := none

def note (g : Seen) (c : Shared) : (o : Call Op Label) → Call.Res Op.Res Bool o → Seen
  | .prim .readScenario, r => { g with reading := some ⟨c.puts, r.1, r.2⟩ }
  | .prim (.fetch _), f => { g with fetched := some f.messages.length }
  | .prim (.resetScenario _), _ => { g with reset := true }
  | .prim (.publishDLQ _ m), ok => if ok then { g with published := some (c.clock, m) } else g
  | .prim (.ack _), _ => { g with acked := some c.clock }
  | _, _ => g

/-- What the performer of a history has seen. -/
def seenOf (h : List (Event Shared (Call Op Label) (Call.Res Op.Res Bool))) : Seen :=
  run (fun g e => note g e.ctx e.op e.ans) {} h

def seen {arch : Platform} (t : Thread arch) : Seen := seenOf t.hist

theorem seenOf_snoc (h : List (Event Shared (Call Op Label) (Call.Res Op.Res Bool)))
    (e : Event Shared (Call Op Label) (Call.Res Op.Res Bool)) :
    seenOf (h ++ [e]) = note (seenOf h) e.ctx e.op e.ans := run_append _ h [e]

/-! ## Handlings -/

/-- The handling that a goroutine is about. -/
def Label.handling : Label → Option Handling
  | .handle d worker => Handling.ofDelivery d worker
  | _ => none

theorem program_of_handling {arch : Platform} {l : Label} {h : Handling}
    (hh : l.handling = some h) :
    program arch l = h.process arch := by
  cases l with
  | handle d worker =>
    have hh' : Handling.ofDelivery d worker = some h := hh
    simp [program, handleJetStreamMsg, hh']
  | _ => exact absurd hh (by simp [Label.handling])

/-! ## Dead letters -/

/-- A message that tells the dead letter queue of a job. -/
structure LetterOf (job : Job) (m : Msg) : Prop where
  subject : m.subject = "jobs.dlq"
  jobID : m.member "job_id" = some (.str job.jobID)
  type : m.member "type" = some (.str job.type)
  payload : m.member "payload" = some (marshalMap job.payload)

theorem letterOf_dlqMsg (arch : Platform) (h : Handling) (now : Time) :
    LetterOf h.job (h.dlqMsg arch now) := by
  constructor <;> simp [Msg.member, Json.member, Handling.dlqMsg, subjectJobDLQ, List.lookup_cons]

/-! ## What the branches of a handling leave alone -/

/-- To read the scenario, to publish a dead letter, and to pass a message on. -/
def Marked : Call Op Label → Prop
  | .prim .readScenario | .prim (.publishDLQ _ _) | .fork (.handle _ _) => True
  | _ => False

theorem runBranch_avoids (h : Handling) (once : Bool) (b : Branch) :
    (h.runBranch once b).Avoids Marked := by
  refine runBranch_avoids_of h once fun o hcall => ?_
  cases hcall <;> exact id

theorem retry_avoids (arch : Platform) (h : Handling) : (h.retry arch).Avoids Marked := by
  by_cases hd : 0 < Handling.nakDelaySec arch h.job.payload <;>
    simp [Handling.retry, hd, Handling.recordWorkerEvent, Marked]

theorem complete_avoids (h : Handling) : h.complete.Avoids Marked := by
  simp [Handling.complete, Handling.recordWorkerEvent, Handling.ackIfWanted, Marked]

/-! ## Writing the scenario back -/

/-- The scenario is read at most once, and written back at most once, in a branch that
the value read leads to; that of the batch wants three messages. -/
def writeBack (leads : String → Branch → Prop) :
    Contract Shared (Call Op Label) (Call.Res Op.Res Bool) Seen where
  pre g
    | .prim .readScenario => g.reading = none ∧ g.fetched = none ∧ g.reset = false
    | .prim (.resetScenario b) => g.reset = false ∧ (b = .batch → g.fetched = some 3) ∧
        ∃ r, g.reading = some r ∧ r.once = true ∧ leads r.value b
    | _ => True
  ans _ _ _ _ := True
  next := note

section
variable {arch : Platform} {leads : String → Branch → Prop} {g : Seen}

/-- The handling takes the branch when it reads the scenario. -/
def Handling.Leads (h : Handling) (value : String) (b : Branch) : Prop :=
  Handling.branchOf (Handling.overrideScenario h.job.payload value) h.attemptCount = some b

/-- Only the pull loop handles batches. -/
theorem branchOf_ne_batch (scenario : String) (n : ℕ) :
    Handling.branchOf scenario n ≠ some .batch := by
  rw [Handling.branchOf]
  split_ifs <;> simp

instance (h : Handling) (value : String) (b : Branch) : Decidable (h.Leads value b) :=
  inferInstanceAs (Decidable (_ = _))

theorem wp_resetIfOnce {once : Bool} {b : Branch} {Q : Unit → Seen → Prop}
    (hpre : once = true → (writeBack leads).pre g (.prim (.resetScenario b)))
    (hreset : once = true → Q () { g with reset := true }) (hkeep : once = false → Q () g) :
    (Handling.resetIfOnce once b).wp (writeBack leads) Q g := by
  cases once with
  | false => exact hkeep rfl
  | true => exact ⟨hpre rfl, fun _ _ _ => hreset rfl⟩

theorem wp_runBranch (h : Handling) {once : Bool} {b : Branch}
    (hpre : once = true → (writeBack leads).pre g (.prim (.resetScenario b))) :
    (h.runBranch once b).wp (writeBack leads) (fun _ _ => True) g := by
  cases b with
  | crash =>
    refine Proc.wp_bind.mpr (wp_resetIfOnce hpre ?_ ?_) <;>
      simp [Handling.recordWorkerEvent, writeBack]
  | exceed =>
    refine Proc.wp_bind.mpr (wp_resetIfOnce hpre ?_ ?_) <;>
      simp [Handling.recordWorkerEvent, Handling.ackIfWanted, writeBack]
  | nak =>
    refine Proc.wp_bind.mpr (wp_resetIfOnce hpre ?_ ?_) <;>
      simp [Handling.recordWorkerEvent, writeBack]
  | term =>
    refine Proc.wp_bind.mpr (wp_resetIfOnce hpre ?_ ?_) <;>
      simp [Handling.recordWorkerEvent, writeBack]
  | batch => trivial

/-- Where no scenario takes the message, none is written back. -/
theorem wp_evaluate (h : Handling) :
    (h.evaluate arch).wp (writeBack leads) (fun _ _ => True) g := by
  by_cases hf : Handling.failureFires arch h.job.payload h.attemptCount
  · by_cases hmax : Handling.maxDeliveryAttempts arch h.job.payload ≤ h.attemptCount
    · simp [Handling.evaluate, hf, hmax, Handling.routeToDLQ, Handling.recordWorkerEvent,
        Handling.ackIfWanted, writeBack]
    · by_cases hd : 0 < Handling.nakDelaySec arch h.job.payload <;>
        simp [Handling.evaluate, hf, hmax, Handling.retry, hd, Handling.recordWorkerEvent,
          writeBack]
  · simp [Handling.evaluate, hf, Handling.complete, Handling.recordWorkerEvent,
      Handling.ackIfWanted, writeBack]

theorem wp_recordPull (h : Handling) :
    h.recordPull.wp (writeBack leads) (fun _ g' => g' = g) g := by
  by_cases hre : 1 < h.attemptCount <;>
    simp [Handling.recordPull, hre, Handling.recordWorkerEvent, writeBack, note]

theorem wp_process (h : Handling)
    (hg : g.reading = none ∧ g.fetched = none ∧ g.reset = false) :
    (h.process arch).wp (writeBack h.Leads) (fun _ _ => True) g := by
  refine Proc.wp_bind.mpr (Proc.wp_mono (wp_recordPull h) ?_)
  rintro _ _ rfl
  refine ⟨trivial, fun _ _ _ => ⟨hg, fun c r _ => ?_⟩⟩
  -- the reading settles the branch, and only that branch writes back
  dsimp only [Proc.bind]
  split
  next b hb =>
    refine wp_runBranch h fun honce => ⟨hg.2.2, ?_, _, rfl, honce, hb⟩
    rintro rfl
    exact absurd hb (branchOf_ne_batch _ _)
  next => exact wp_evaluate h

theorem wp_handleAll (ctx : ℕ) (worker : String) (ds : List Delivery) :
    (handleAll ctx worker ds).wp (writeBack leads) (fun _ _ => True) g := by
  induction ds generalizing g with
  | nil => simp [handleAll, again, writeBack]
  | cons d ds ih =>
    refine ⟨trivial, fun _ t _ => ⟨trivial, fun _ stop _ => ?_⟩⟩
    cases stop with
    | true => trivial
    | false => exact ih

theorem wp_handleOutOfOrderBatch (d1 d2 d3 : Delivery) (worker : String) :
    (handleOutOfOrderBatch d1 d2 d3 worker).wp (writeBack leads)
      (fun _ g' => g'.reading = g.reading ∧ g'.fetched = g.fetched ∧ g'.reset = g.reset) g := by
  simp [handleOutOfOrderBatch, Handling.recordBatchEvent, writeBack, note]

/-- A pull loop writes the scenario back after a whole batch. -/
def PullLeads (value : String) (b : Branch) : Prop := value = "out_of_order_ack" ∧ b = .batch

theorem wp_pullBatch {r : Reading} (ctx : ℕ) (worker : String)
    (hread : g.reading = some r) (hreset : g.reset = false)
    (hvalue : r.value = "out_of_order_ack") :
    (pullBatch ctx worker r.once).wp (writeBack PullLeads) (fun _ _ => True) g := by
  simp only [pullBatch, op_eq, Proc.call_bind, Proc.ret_bind, Proc.wp_call]
  refine ⟨trivial, fun _ f _ => ?_⟩
  split
  next d1 d2 d3 _ =>
    refine Proc.wp_bind.mpr (Proc.wp_mono (wp_handleOutOfOrderBatch d1 d2 d3 worker) ?_)
    rintro _ g' ⟨hread', hfetched, hreset'⟩
    have hpre : r.once = true → (writeBack PullLeads).pre g' (.prim (.resetScenario .batch)) :=
      fun honce => ⟨hreset'.trans hreset, fun _ => hfetched, r, hread'.trans hread, honce,
        hvalue, rfl⟩
    refine Proc.wp_bind.mpr (wp_resetIfOnce hpre ?_ ?_) <;> simp [again, writeBack]
  next ds _ _ => exact wp_handleAll ctx worker ds
  next => simp [again, writeBack]

theorem wp_pullOne (ctx : ℕ) (worker : String) :
    (pullOne ctx worker).wp (writeBack leads) (fun _ _ => True) g := by
  simp only [pullOne, op_eq, Proc.call_bind, Proc.ret_bind, Proc.wp_call]
  refine ⟨trivial, fun _ f _ => ?_⟩
  cases f with
  | batch ds => exact wp_handleAll ctx worker ds
  | timeout => simp [again, writeBack]
  | error => simp [again, writeBack]

theorem wp_jsPullLoop (ctx : ℕ) (worker : String)
    (hg : g.reading = none ∧ g.fetched = none ∧ g.reset = false) :
    (jsPullLoop ctx worker).wp (writeBack PullLeads) (fun _ _ => True) g := by
  simp only [jsPullLoop, op_eq, Proc.call_bind, Proc.ret_bind, Proc.wp_call]
  refine ⟨trivial, fun _ done _ => ?_⟩
  cases done with
  | true => trivial
  | false =>
    refine ⟨trivial, fun _ flags _ => ?_⟩
    by_cases hflags : (flags.1 && flags.2) = true
    · simp only [hflags]
      refine ⟨hg, fun c r _ => ?_⟩
      beta_reduce
      by_cases hvalue : r.1 = "out_of_order_ack"
      · rw [if_pos hvalue]
        exact wp_pullBatch (r := ⟨c.puts, r.1, r.2⟩) ctx worker rfl hg.2.2 hvalue
      · rw [if_neg hvalue]
        exact wp_pullOne ctx worker
    · simp [hflags, again, writeBack]

/-- To read the scenario, and to write it back. -/
def OnScenario : Call Op Label → Prop
  | .prim .readScenario | .prim (.resetScenario _) => True
  | _ => False

/-- The other goroutines have nothing to do with the scenario. -/
theorem wp_of_kind {l : Label} (hpull : l.kind ≠ .pull) (hhandle : l.kind ≠ .handle) :
    (program arch l).wp (writeBack leads) (fun _ _ => True) g := by
  have havoids : (program arch l).Avoids OnScenario := by
    refine program_avoids fun o ho => ?_
    cases o with
    | prim o => cases o <;> first | exact ho.elim | simp [Foreign, users, hpull, hhandle]
    | _ => exact ho.elim
  refine Proc.wp_of_avoids (fun _ => True) (fun _ _ _ _ _ _ => trivial) ?_ havoids
    (fun _ _ _ => trivial) trivial
  intro g o ho _
  simp only [writeBack]
  split
  · exact absurd trivial ho
  · exact absurd trivial ho
  · trivial

end

/-! ## Every goroutine -/

/-- The branches in which a goroutine may write the scenario back, by the value it read. -/
def Label.Leads : Label → String → Branch → Prop
  | .handle d worker, value, b => ∃ h, Handling.ofDelivery d worker = some h ∧ h.Leads value b
  | .pull _ _, value, b => PullLeads value b
  | _, _, _ => False

theorem wp_program (arch : Platform) (l : Label) :
    (program arch l).wp (writeBack l.Leads) (fun _ _ => True) {} := by
  cases l with
  | pull ctx worker => exact wp_jsPullLoop ctx worker ⟨rfl, rfl, rfl⟩
  | handle d worker =>
    simp only [program, handleJetStreamMsg]
    cases hh : Handling.ofDelivery d worker with
    | none => simp [writeBack]
    | some h =>
      have hleads : (Label.handle d worker).Leads = h.Leads := by
        funext value b
        simp [Label.Leads, hh]
      rw [hleads]
      exact wp_process h ⟨rfl, rfl, rfl⟩
  | _ => exact wp_of_kind (by intro h; cases h) (by intro h; cases h)

section
variable {arch : Platform} {t : Thread arch}

theorem wp_rest (t : Thread arch) :
    t.rest.wp (writeBack t.label.Leads) (fun _ _ => True) (seen t) :=
  (t.traced.wp (wp_program arch t.label) (meets_of_mem (fun _ _ _ => trivial) _)).2

/-- The scenario is read only once. -/
theorem not_read_of_rest {k : String × Bool → Prog Bool}
    (hr : t.rest = .call (.prim .readScenario) k) :
    (seen t).reading = none ∧ (seen t).fetched = none ∧ (seen t).reset = false := by
  have h := wp_rest t
  rw [hr] at h
  exact h.1

/-- What is written back was read, is to fire once and was not written back before. -/
theorem reading_of_rest {b : Branch} {k : Unit → Prog Bool}
    (hr : t.rest = .call (.prim (.resetScenario b)) k) :
    (seen t).reset = false ∧ (b = .batch → (seen t).fetched = some 3) ∧
      ∃ r, (seen t).reading = some r ∧ r.once = true ∧ t.label.Leads r.value b := by
  have h := wp_rest t
  rw [hr] at h
  exact h.1

end

end NatsDemo.Processor
