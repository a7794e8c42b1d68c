import NatsDemo.Processor.EventLog
import NatsDemo.Processor.Service
import NatsDemo.Processor.Uses

/-!
# The stories in the event log

The event log holds what was reported, the latest fifty since it was last cleared.  What one
handling of a message reports is a story, which opens with the pull and the processing and has one
ending, by the scenario or by the fate of the job; and what one iteration of a pull loop reports
is another, that of its batch.  A goroutine that pulls goes through many of both.
-/

namespace NatsDemo.Processor
open Lib Go Jobs Messaging

/-- What an event tells, before it is stamped. -/
structure Report where
  jobID : String
  jobType : String
  tag : String
  tagColor : String
  details : String
  attempt : ℕ
  mode : String
  deriving DecidableEq

def Report.stamp (r : Report) (shown : Time) : ProcessorEvent :=
  ⟨r.jobID, r.jobType, r.tag, r.tagColor, r.details, Time.formatClock shown,
    if r.mode = "" then "JETSTREAM" else r.mode, r.attempt⟩

/-! ## Stories -/

/-- A word of a story: a report, or the start of a task that is to report in turn. -/
inductive Word where
  | tell (r : Report)
  | starts (l : Label) (i : ℕ)

def Word.report : Word → Option Report
  | .tell r => some r
  | .starts _ _ => none

@[simp] theorem Word.report_tell (r : Report) : (Word.tell r).report = some r := rfl
@[simp] theorem Word.report_starts (l : Label) (i : ℕ) : (Word.starts l i).report = none := rfl

/-- What a supervisor's start is announced by. -/
def Supervision.crashed (s : Supervision) : Report where
  jobID := s.jobID
  jobType := s.jobType
  tag := "[GOROUTINE CRASH]"
  tagColor := "#EF4444"
  details :=
    s!"Worker goroutine {s.worker} panicked before sending ACK. JetStream AckWait (5s) ticking..."
  attempt := s.attempt
  mode := s.deliveryMode

def Supervision.respawned (s : Supervision) : Report where
  jobID := s.jobID
  jobType := s.jobType
  tag := "[SUPERVISOR RESPAWN]"
  tagColor := "#8B5CF6"
  details := s!"Supervisor revived {s.worker} after AckWait expiry"
  attempt := s.attempt
  mode := s.deliveryMode

/-- What the holder of a hole is announced by. -/
def Hole.created (h : Hole) : Report where
  jobID := h.job.jobID
  jobType := h.job.type
  tag := "[HOLE CREATED]"
  tagColor := "#F59E0B"
  details :=
    let seq2 := h.d.metadata.elim 0 Metadata.stream
    s!"Msg 2 held pending (10s delay) -> sequence hole at Seq {seq2}"
  attempt := h.attempt
  mode := h.deliveryMode

def Hole.healed (h : Hole) : Report where
  jobID := h.job.jobID
  jobType := h.job.type
  tag := "[GAP HEALED]"
  tagColor := "#34D399"
  details := s!"Msg 2 ACKed -> Gap healed! AckFloor cascades to Seq {h.seq3}"
  attempt := h.attempt
  mode := h.deliveryMode

/-- The report that announces a task which is to report in turn. -/
def Label.herald : Label → Option Report
  | .supervise s => some s.crashed
  | .healGap h => some h.created
  | _ => none

/-- The word that a call adds. -/
def wordOf : Done → Option Word
  | ⟨.prim (.recordWorkerEvent jobID jobType tag tagColor details attempt mode), _⟩ =>
    some (.tell ⟨jobID, jobType, tag, tagColor, details, attempt, mode⟩)
  | ⟨.fork l, i⟩ => if l.herald.isSome then some (.starts l i) else none
  | _ => none

namespace Handling

def report (h : Handling) (tag tagColor details : String) : Report :=
  ⟨h.job.jobID, h.job.type, tag, tagColor, details, h.attemptCount, h.deliveryMode⟩

def supervision (h : Handling) : Supervision :=
  ⟨h.worker, h.job.jobID, h.job.type, h.deliveryMode, h.attemptCount⟩

/-- The pull and the processing. -/
def opening (h : Handling) : List Word :=
  [.tell (if 1 < h.attemptCount then
      h.report "[REDELIVERED]" "#FBBF24"
        s!"Redelivery #{h.attemptCount} from JOBS stream (Seq #{h.sequence})"
    else h.report "[PULLED]" "#60A5FA" s!"Fetched from JOBS stream (Seq #{h.sequence})"),
   .tell (h.report "[PROCESSING]" "#FBBF24" "Executing business logic")]

/-- The ending under a scenario; a crash starts the supervisor `i`. -/
def scene (h : Handling) (i : ℕ) : Branch → List Word
  | .crash => [.tell h.supervision.crashed, .starts (.supervise h.supervision) i]
  | .exceed =>
    [.tell (h.report "[SLOW PROCESSING]" "#F59E0B"
      s!"Worker {h.worker} executing slow transaction (7s duration, exceeds 5s AckWait threshold)..."),
     .tell (h.report "[COMPLETED]" "#34D399" "Slow execution finished after 7s"),
     .tell (h.report "[LATE ACK SENT]" "#10B981" "Sent late msg.Ack() after 7s delay")]
  | .nak =>
    [.tell (h.report "[NAK SENT]" "#F87171"
      "Explicit msg.Nak() sent. Broker redelivery incoming.")]
  | .term =>
    [.tell (h.report "[TERM SENT]" "#EF4444"
      "Explicit msg.Term() sent. Message permanently terminated without redelivery.")]
  | .batch => []

/-- The ending by the fate of the job. -/
def verdict (arch : Platform) (h : Handling) : List Word :=
  let delay := nakDelaySec arch h.job.payload
  let errMsg := s!"Simulated failure attempt {h.attemptCount} of " ++
    s!"{maxDeliveryAttempts arch h.job.payload}"
  if failureFires arch h.job.payload h.attemptCount then
    if maxDeliveryAttempts arch h.job.payload ≤ h.attemptCount then
      [.tell (h.report "[DLQ ROUTED]" "#EC4899" (h.dlqReason arch))]
    else if 0 < delay then
      [.tell (h.report "[NAK SENT]" "#F87171" s!"Explicit NAK sent with {delay}s delay ({errMsg})")]
    else [.tell (h.report "[FAILED]" "#EF4444" errMsg)]
  else
    [.tell (h.report "[COMPLETED]" "#34D399" "Execution completed successfully"),
     .tell (h.report "[ACK SENT]" "#10B981" "Explicit msg.Ack() sent to JetStream")]

/-- The story of a handling that reads a scenario. -/
def story (arch : Platform) (h : Handling) (scenario : String) (i : ℕ) : List Word :=
  h.opening ++ (branchOf (overrideScenario h.job.payload scenario) h.attemptCount).elim
    (h.verdict arch) (h.scene i)

def batchReport (h : Handling) (tag tagColor details : String) : Report :=
  ⟨h.job.jobID, h.job.type, tag, tagColor, details, h.batchAttempts, h.deliveryMode⟩

end Handling

/-- The holder of the hole that a batch makes. -/
def holeOf (d2 d3 : Delivery) (worker : String) : Hole :=
  let h2 := Handling.ofBatch d2 worker
  ⟨d2, h2.job, h2.deliveryMode, h2.batchAttempts, (Handling.ofBatch d3 worker).sequence⟩

/-- The story of a batch, by whether the two acknowledgements get through. -/
def batchStory (d1 d2 d3 : Delivery) (worker : String) (i : ℕ) (ok1 ok3 : Bool) : List Word :=
  let h1 := Handling.ofBatch d1 worker
  let h2 := Handling.ofBatch d2 worker
  let h3 := Handling.ofBatch d3 worker
  [.tell (h1.batchReport "[PROCESSING]" "#FBBF24" "Msg 1/3 in out-of-order batch")] ++
  (if ok1 then [.tell (h1.batchReport "[ACK SENT]" "#10B981"
      s!"Msg 1 ACKed -> AckFloor advances to Seq {h1.sequence}")] else []) ++
  [.tell (holeOf d2 d3 worker).created, .starts (.healGap (holeOf d2 d3 worker)) i] ++
  (if ok3 then [.tell (h3.batchReport "[OUT-OF-ORDER ACK]" "#60A5FA"
      (s!"Msg 3 ACKed out-of-order! AckFloor stays pinned at Seq {h1.sequence} " ++
        s!"(hole at {h2.sequence})"))] else [])

/-- The stories that a handling, an iteration or another task may come to tell. -/
def Story (arch : Platform) (ws : List Word) : Label → Prop
  | .pull _ worker => ws = [] ∨ ∃ d1 d2 d3 i ok1 ok3, ws = batchStory d1 d2 d3 worker i ok1 ok3
  | .handle d worker => match Handling.ofDelivery d worker with
    | none => ws = []
    | some h => ∃ scenario i, ws = h.story arch scenario i
  | .supervise s => ws = [.tell s.respawned]
  | .healGap h => ws = [] ∨ ws = [.tell h.healed]
  | .core _ | .queue _ _ | .validate _ _ => ws = []

/-! ## What the programs tell -/

section
variable {arch : Platform}

theorem tells_runBranch (h : Handling) (once : Bool) (b : Branch) :
    (h.runBranch once b).Tells wordOf fun _ ws => ∃ i, ws = h.scene i b := by
  cases b <;> cases once <;>
    simp [Handling.runBranch, Handling.crashBeforeAck, Handling.exceedAckWait,
      Handling.nakMessage, Handling.termMessage, Handling.resetIfOnce,
      Handling.recordWorkerEvent, Handling.ackIfWanted, wordOf, Handling.scene, Handling.report,
      Handling.supervision, Supervision.crashed, Label.herald]

theorem tells_evaluate (h : Handling) :
    (h.evaluate arch).Tells wordOf fun _ ws => ws = h.verdict arch := by
  simp only [Handling.evaluate, Handling.verdict, Proc.tells_ite]
  split_ifs with hfires hlast hdelay
  · simp [Handling.routeToDLQ, Handling.recordWorkerEvent, Handling.ackIfWanted, wordOf,
      Handling.report]
  · simp [Handling.retry, hdelay, Handling.recordWorkerEvent, wordOf, Handling.report]
  · simp [Handling.retry, hdelay, Handling.recordWorkerEvent, wordOf, Handling.report]
  · simp [Handling.complete, Handling.recordWorkerEvent, Handling.ackIfWanted, wordOf,
      Handling.report]

theorem tells_process (h : Handling) :
    (h.process arch).Tells wordOf fun _ ws => ∃ scenario i, ws = h.story arch scenario i := by
  have hpull : h.recordPull.Tells wordOf fun _ ws => ws = h.opening.take 1 := by
    by_cases hre : 1 < h.attemptCount <;>
      simp [Handling.recordPull, hre, Handling.recordWorkerEvent, wordOf, Handling.opening,
        Handling.report]
  refine hpull.bind fun _ ws hws => fun _ r => ?_
  dsimp only [Proc.bind]
  cases hb : Handling.branchOf (Handling.overrideScenario h.job.payload r.1) h.attemptCount with
  | some b =>
    refine (tells_runBranch h r.2 b).mono fun _ l hl => ?_
    obtain ⟨i, rfl⟩ := hl
    refine ⟨r.1, i, ?_⟩
    rw [hws, Handling.story, hb]
    rfl
  | none =>
    refine (tells_evaluate h).mono fun _ l hl => ⟨r.1, 0, ?_⟩
    rw [hws, hl, Handling.story, hb]
    rfl

theorem tells_handleAll (ctx : ℕ) (worker : String) (ds : List Delivery) :
    (handleAll ctx worker ds).Tells wordOf fun _ ws => ws = [] := by
  induction ds with
  | nil => simp [handleAll, again, wordOf, Label.herald]
  | cons d ds ih =>
    intro i stop
    cases stop with
    | true => rfl
    | false => exact ih

theorem tells_batch (d1 d2 d3 : Delivery) (worker : String) :
    (handleOutOfOrderBatch d1 d2 d3 worker).Tells wordOf fun _ ws =>
      ∃ i ok1 ok3, ws = batchStory d1 d2 d3 worker i ok1 ok3 := by
  intro _ ok1
  cases ok1 with
  | false =>
    intro _ i ok3
    cases ok3 with
    | false => exact fun _ => ⟨i, false, false, rfl⟩
    | true => exact fun _ _ => ⟨i, false, true, rfl⟩
  | true =>
    intro _ _ i ok3
    cases ok3 with
    | false => exact fun _ => ⟨i, true, false, rfl⟩
    | true => exact fun _ _ => ⟨i, true, true, rfl⟩

theorem tells_again (ctx : ℕ) (worker : String) :
    (again ctx worker).Tells wordOf fun _ ws => ws = [] := by
  simp [again, wordOf, Label.herald]

theorem tells_pullBatch (ctx : ℕ) (worker : String) (once : Bool) :
    (pullBatch ctx worker once).Tells wordOf fun _ ws => Story arch ws (.pull ctx worker) := by
  simp only [pullBatch, op_eq, Proc.call_bind, Proc.ret_bind, Proc.tells_call]
  intro f
  split
  next d1 d2 d3 =>
    refine (tells_batch d1 d2 d3 worker).bind fun _ ws hws => ?_
    obtain ⟨i, ok1, ok3, rfl⟩ := hws
    have hstory : Story arch (batchStory d1 d2 d3 worker i ok1 ok3) (.pull ctx worker) :=
      .inr ⟨d1, d2, d3, i, ok1, ok3, rfl⟩
    cases once <;> simpa [Handling.resetIfOnce, again, wordOf, Label.herald] using hstory
  next ds _ => exact (tells_handleAll ctx worker ds).mono fun _ _ h => Or.inl h
  next => exact (tells_again ctx worker).mono fun _ _ h => Or.inl h

theorem tells_pullOne (ctx : ℕ) (worker : String) :
    (pullOne ctx worker).Tells wordOf fun _ ws => ws = [] := by
  simp only [pullOne, op_eq, Proc.call_bind, Proc.ret_bind, Proc.tells_call]
  intro f
  cases f with
  | batch ds => exact tells_handleAll ctx worker ds
  | _ => simp [again, wordOf, Label.herald]

theorem tells_jsPullLoop (ctx : ℕ) (worker : String) :
    (jsPullLoop ctx worker).Tells wordOf fun _ ws => Story arch ws (.pull ctx worker) := by
  simp only [jsPullLoop, op_eq, Proc.call_bind, Proc.ret_bind, Proc.tells_call, Proc.tells_ite]
  intro done
  split_ifs
  · exact Or.inl rfl
  · intro flags
    split_ifs
    · intro r
      split_ifs
      · exact tells_pullBatch ctx worker r.2
      · exact (tells_pullOne ctx worker).mono fun _ _ h => Or.inl h
    · exact (tells_again ctx worker).mono fun _ _ h => Or.inl h

/-- The calls that add a word. -/
def Speaks : Call Op Label → Prop
  | .prim (.recordWorkerEvent ..) => True
  | .fork l => l.herald.isSome = true
  | _ => False

theorem wordOf_eq_none {o : Call Op Label} (r : Call.Res Op.Res Bool o) (ho : ¬ Speaks o) :
    wordOf ⟨o, r⟩ = none := by
  cases o with
  | prim o => cases o <;> first | rfl | exact absurd trivial ho
  | fork l => exact if_neg ho
  | await i => rfl

theorem foreign_of_speaks {κ : Kind} (hκ : κ ∉ [.pull, .handle, .supervise, .healGap])
    (o : Call Op Label) (ho : Speaks o) : Foreign κ o := by
  refine fun hmem => hκ ?_
  cases o with
  | prim o =>
    cases o with
    | recordWorkerEvent => exact hmem
    | _ => exact ho.elim
  | fork l =>
    cases l with
    | supervise s => simp_all [users]
    | healGap h => simp_all [users]
    | _ => exact absurd ho Bool.false_ne_true
  | await i => exact ho.elim

/-- Every task tells one of its stories. -/
theorem tells_program (l : Label) : (program arch l).Tells wordOf fun _ ws => Story arch ws l := by
  have hquiet {l : Label} (hl : l.kind ∉ [.pull, .handle, .supervise, .healGap]) :
      (program arch l).Tells wordOf fun _ ws => ws = [] :=
    Proc.tells_of_avoids (fun _ r => wordOf_eq_none r) (program_avoids (foreign_of_speaks hl))
  cases l with
  | pull ctx worker => exact tells_jsPullLoop ctx worker
  | handle d worker =>
    simp only [program, handleJetStreamMsg, Story]
    cases Handling.ofDelivery d worker with
    | none => simp [wordOf]
    | some h => exact tells_process h
  | supervise s => simp [program, supervise, wordOf, Label.herald, Story, Supervision.respawned]
  | healGap h =>
    intro _ _ ok
    cases ok with
    | true => exact fun _ => Or.inr rfl
    | false => exact Or.inl rfl
  | core m => exact hquiet (l := .core m) (by simp [Label.kind])
  | queue m w => exact hquiet (l := .queue m w) (by simp [Label.kind])
  | validate m w => exact hquiet (l := .validate m w) (by simp [Label.kind])

/-! ## Starts in a story -/

/-- The word is a start. -/
def Word.isStart : Word → Bool
  | .tell _ => false
  | .starts _ _ => true

theorem isStart_verdict (h : Handling) : ∀ w ∈ h.verdict arch, w.isStart = false := by
  unfold Handling.verdict
  dsimp only
  split_ifs <;> simp [Word.isStart]

/-- A story has one start at most, right after its announcement. -/
theorem Story.starts {ws : List Word} {l : Label} (h : Story arch ws l) :
    (∀ w ∈ ws, w.isStart = false) ∨ ∃ pre r l' i post,
      ws = pre ++ .tell r :: .starts l' i :: post ∧ l'.herald = some r ∧
        ∀ w ∈ pre ++ post, w.isStart = false := by
  cases l with
  | pull ctx worker =>
    obtain rfl | ⟨d1, d2, d3, i, ok1, ok3, rfl⟩ := h
    · exact .inl (by simp)
    · refine .inr ⟨_, _, .healGap (holeOf d2 d3 worker), i, _, List.append_assoc _ _ _, rfl, ?_⟩
      cases ok1 <;> cases ok3 <;> simp [Word.isStart]
  | handle d worker =>
    rw [Story] at h
    cases hh : Handling.ofDelivery d worker with
    | none =>
      rw [hh] at h
      obtain rfl := h
      exact .inl (by simp)
    | some h' =>
      rw [hh] at h
      obtain ⟨scenario, i, rfl⟩ := h
      have hopening : ∀ w ∈ h'.opening, w.isStart = false := by
        simp [Handling.opening, Word.isStart]
      have hquiet {ws : List Word} (hws : ∀ w ∈ ws, w.isStart = false) :
          ∀ w ∈ h'.opening ++ ws, w.isStart = false := fun w hw =>
        (List.mem_append.mp hw).elim (hopening w) (hws w)
      rw [Handling.story]
      cases Handling.branchOf (Handling.overrideScenario h'.job.payload scenario)
        h'.attemptCount with
      | none => exact .inl (hquiet (isStart_verdict h'))
      | some b =>
        cases b with
        | crash =>
          exact .inr ⟨_, _, .supervise h'.supervision, i, [], rfl, rfl, hquiet (by simp)⟩
        | _ => exact .inl (hquiet (by simp [Handling.scene, Word.isStart]))
  | supervise s =>
    obtain rfl := h
    exact .inl (by simp [Word.isStart])
  | healGap g =>
    obtain rfl | rfl := h
    · exact .inl (by simp)
    · exact .inl (by simp [Word.isStart])
  | _ =>
    obtain rfl := h
    exact .inl (by simp)

/-- Whom a story starts, it starts once, and announces before. -/
theorem Story.start_unique {ws pre post : List Word} {l l' : Label} {i : ℕ} (h : Story arch ws l)
    (hws : ws = pre ++ .starts l' i :: post) :
    (∃ r, l'.herald = some r ∧ .tell r ∈ pre) ∧
      ∀ l'' i', .starts l'' i' ∈ ws → l'' = l' ∧ i' = i := by
  obtain hnone | ⟨pre', r, l₁, i₁, post', rfl, hherald, hquiet⟩ := h.starts
  · exact absurd (hnone (.starts l' i) (by simp [hws])) (by simp [Word.isStart])
  have hnot {l₂ : Label} {i₂ : ℕ} : .starts l₂ i₂ ∉ pre' ++ post' := fun hmem =>
    Bool.noConfusion (hquiet _ hmem)
  have hpre : .starts l' i ∉ pre' ++ [.tell r] := fun hmem =>
    hnot (List.mem_append_left post' (by simpa using hmem))
  have hpost : .starts l' i ∉ post' := fun hmem => hnot (List.mem_append_right pre' hmem)
  have hsplit : (pre' ++ [.tell r]) ++ .starts l₁ i₁ :: post' = pre ++ .starts l' i :: post := by
    simpa using hws
  obtain ⟨rfl, heq, -⟩ := (List.append_cons_inj_of_notMem hpre hpost).mp hsplit
  obtain ⟨rfl, rfl⟩ := Word.starts.inj heq
  refine ⟨⟨r, hherald, by simp⟩, fun l'' i' hmem => ?_⟩
  simp only [List.mem_append, List.mem_cons, reduceCtorEq, false_or] at hmem
  obtain hmem | hmem | hmem := hmem
  · exact (hnot (List.mem_append_left _ hmem)).elim
  · exact Word.starts.inj hmem
  · exact (hnot (List.mem_append_right _ hmem)).elim

end

end NatsDemo.Processor
