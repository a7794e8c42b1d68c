import NatsDemo.Processor.World

/-!
# What the event log says was sent

An event of the worker log may say that a message was acknowledged, refused, terminated
or routed to the dead letter queue.  The two handlers disagree on when to say so: that of
the batch looks at the result of the call, that of the single message does not.
-/

namespace NatsDemo.Processor
open Lib Go Jobs Messaging

/-- A call that was made, with its answer. -/
abbrev Done := (c : Call Op Label) × Call.Res Op.Res Bool c

/-- What is done to the message under a sequence number. -/
inductive Outcome where
  | ack (seq : ℕ)
  | nak (seq : ℕ)
  | term (seq : ℕ)
  | deadLetter (seq : ℕ)
  deriving DecidableEq

/-- What a tag says was done to the message it is about. -/
def outcomeOf (tag : String) (seq : ℕ) : Option Outcome :=
  if tag ∈ ["[ACK SENT]", "[LATE ACK SENT]", "[OUT-OF-ORDER ACK]", "[GAP HEALED]"] then
    some (.ack seq)
  else if tag = "[NAK SENT]" then some (.nak seq)
  else if tag = "[TERM SENT]" then some (.term seq)
  else if tag = "[DLQ ROUTED]" then some (.deadLetter seq)
  else none

/-- What an event claims, where `about` tells the message that a tag is about. -/
def claimOf (about : String → ℕ) : Done → Option Outcome
  | ⟨.prim (.recordWorkerEvent _ _ tag _ _ _ _), _⟩ => outcomeOf tag (about tag)
  | _ => none

/-- What a call has done, if it succeeded. -/
def effectOf : Done → Option Outcome
  | ⟨.prim (.ack seq), ok⟩ => if ok then some (.ack seq) else none
  | ⟨.prim (.nak seq), ok⟩ => if ok then some (.nak seq) else none
  | ⟨.prim (.nakWithDelay seq _), ok⟩ => if ok then some (.nak seq) else none
  | ⟨.prim (.term seq), ok⟩ => if ok then some (.term seq) else none
  | ⟨.prim (.publishDLQ seq _), ok⟩ => if ok then some (.deadLetter seq) else none
  | _ => none

section
variable {about : String → ℕ} {seq : ℕ} {delay : ℤ} {m : Msg} {ok : Bool} {u : Unit}

@[simp] theorem claimOf_event (jobID jobType tag tagColor details : String) (attempt : ℕ)
    (mode : String) : claimOf about
      ⟨.prim (.recordWorkerEvent jobID jobType tag tagColor details attempt mode), u⟩ =
      outcomeOf tag (about tag) := rfl
@[simp] theorem claimOf_ack : claimOf about ⟨.prim (.ack seq), ok⟩ = none := rfl
@[simp] theorem claimOf_nak : claimOf about ⟨.prim (.nak seq), ok⟩ = none := rfl
@[simp] theorem claimOf_nakWithDelay :
    claimOf about ⟨.prim (.nakWithDelay seq delay), ok⟩ = none := rfl
@[simp] theorem claimOf_term : claimOf about ⟨.prim (.term seq), ok⟩ = none := rfl
@[simp] theorem claimOf_publishDLQ :
    claimOf about ⟨.prim (.publishDLQ seq m), ok⟩ = none := rfl
@[simp] theorem claimOf_readAckPolicy (policy : String) :
    claimOf about ⟨.prim .readAckPolicy, policy⟩ = none := rfl
@[simp] theorem claimOf_now (now : Time) : claimOf about ⟨.prim .now, now⟩ = none := rfl
@[simp] theorem claimOf_fork (l : Label) (i : ℕ) : claimOf about ⟨.fork l, i⟩ = none := rfl

@[simp] theorem effectOf_event (jobID jobType tag tagColor details : String) (attempt : ℕ)
    (mode : String) : effectOf
      ⟨.prim (.recordWorkerEvent jobID jobType tag tagColor details attempt mode), u⟩ = none := rfl
@[simp] theorem effectOf_ack :
    effectOf ⟨.prim (.ack seq), ok⟩ = if ok then some (.ack seq) else none := rfl
@[simp] theorem effectOf_nak :
    effectOf ⟨.prim (.nak seq), ok⟩ = if ok then some (.nak seq) else none := rfl
@[simp] theorem effectOf_nakWithDelay :
    effectOf ⟨.prim (.nakWithDelay seq delay), ok⟩ = if ok then some (.nak seq) else none := rfl
@[simp] theorem effectOf_term :
    effectOf ⟨.prim (.term seq), ok⟩ = if ok then some (.term seq) else none := rfl
@[simp] theorem effectOf_publishDLQ :
    effectOf ⟨.prim (.publishDLQ seq m), ok⟩ = if ok then some (.deadLetter seq) else none := rfl
@[simp] theorem effectOf_readAckPolicy (policy : String) :
    effectOf ⟨.prim .readAckPolicy, policy⟩ = none := rfl
@[simp] theorem effectOf_now (now : Time) : effectOf ⟨.prim .now, now⟩ = none := rfl
@[simp] theorem effectOf_fork (l : Label) (i : ℕ) : effectOf ⟨.fork l, i⟩ = none := rfl

end

/-- Whatever the log claims was done by a call that succeeded. -/
def Honest (about : String → ℕ) (calls : List Done) : Prop :=
  calls.filterMap (claimOf about) ⊆ calls.filterMap effectOf

instance (about : String → ℕ) (calls : List Done) : Decidable (Honest about calls) :=
  inferInstanceAs (Decidable (∀ o, o ∈ _ → o ∈ _))

/-! ## The branches of a handling -/

section
variable (answers : (c : Call Op Label) → Call.Res Op.Res Bool c)

/-- The consumer wants acknowledgements, and the one for the message gets through. -/
def AckSucceeds (seq : ℕ) : Prop :=
  answers (.prim .readAckPolicy) ≠ "none" ∧ answers (.prim (.ack seq)) = true

instance (seq : ℕ) : Decidable (AckSucceeds answers seq) :=
  inferInstanceAs (Decidable (_ ∧ _))

/-- The call that the branch taken reports is made and succeeds. -/
def Handling.CallSucceeds (arch : Platform) (h : Handling) : Prop :=
  match Handling.branchOf
    (Handling.overrideScenario h.job.payload (answers (.prim .readScenario)).1) h.attemptCount with
  | some .crash | some .batch => True
  | some .exceed => AckSucceeds answers h.d.seq
  | some .nak => answers (.prim (.nak h.d.seq)) = true
  | some .term => answers (.prim (.term h.d.seq)) = true
  | none =>
    if Handling.failureFires arch h.job.payload h.attemptCount then
      if Handling.maxDeliveryAttempts arch h.job.payload ≤ h.attemptCount then
        answers (.prim (.publishDLQ h.d.seq (h.dlqMsg arch (answers (.prim .now))))) = true
      else 0 < Handling.nakDelaySec arch h.job.payload →
        answers (.prim (.nakWithDelay h.d.seq
          (Handling.nakDelay (Handling.nakDelaySec arch h.job.payload)))) = true
    else AckSucceeds answers h.d.seq

end

section
variable {answers : (c : Call Op Label) → Call.Res Op.Res Bool c} {arch : Platform}
  {about : String → ℕ} {n : ℕ}

/-- Calls that claim nothing and do nothing make no difference. -/
theorem honest_append {xs ys : List Done} (hclaim : xs.filterMap (claimOf about) = [])
    (heffect : xs.filterMap effectOf = []) : Honest about (xs ++ ys) ↔ Honest about ys := by
  simp [Honest, List.filterMap_append, hclaim, heffect]

theorem honest_cons {x : Done} {ys : List Done} (hclaim : claimOf about x = none)
    (heffect : effectOf x = none) : Honest about (x :: ys) ↔ Honest about ys := by
  simp [Honest, hclaim, heffect]

theorem honest_resetIfOnce {α : Type} (once : Bool) (b : Branch) (p : Prog α) :
    Honest about ((Handling.resetIfOnce once b >>= fun _ => p).transcript (fun _ => answers) n) ↔
      Honest about (p.transcript (fun _ => answers) (n + once.toNat)) := by
  cases once with
  | false => rfl
  | true => exact honest_cons rfl rfl

/-- The calls that acknowledge, unless no acknowledgement is wanted. -/
theorem effects_ackIfWanted (h : Handling) :
    (h.ackIfWanted.transcript (fun _ => answers) n).filterMap effectOf =
      if AckSucceeds answers h.d.seq then [.ack h.d.seq] else [] := by
  by_cases hpolicy : answers (.prim .readAckPolicy) = "none"
  · simp [Handling.ackIfWanted, AckSucceeds, List.filterMap_cons, hpolicy]
  · by_cases hok : answers (.prim (.ack h.d.seq)) = true <;>
      simp [Handling.ackIfWanted, AckSucceeds, List.filterMap_cons, hpolicy, hok]

theorem claims_ackIfWanted (h : Handling) :
    (h.ackIfWanted.transcript (fun _ => answers) n).filterMap (claimOf about) = [] := by
  by_cases hpolicy : answers (.prim .readAckPolicy) = "none" <;>
    simp [Handling.ackIfWanted, List.filterMap_cons, hpolicy]

/-- An acknowledgement that is claimed, right after it was asked for. -/
theorem honest_ackIfWanted (h : Handling) {p : Prog Bool}
    (hclaim : ∀ n, (p.transcript (fun _ => answers) n).filterMap (claimOf about) = [.ack h.d.seq])
    (heffect : ∀ n, (p.transcript (fun _ => answers) n).filterMap effectOf = []) :
    Honest about ((h.ackIfWanted >>= fun _ => p).transcript (fun _ => answers) n) ↔
      AckSucceeds answers h.d.seq := by
  rw [Honest, Proc.transcript_bind, List.filterMap_append, List.filterMap_append,
    claims_ackIfWanted, effects_ackIfWanted, hclaim, heffect]
  by_cases hack : AckSucceeds answers h.d.seq <;> simp [hack]

theorem honest_runBranch (h : Handling) (once : Bool) (b : Branch) :
    Honest (fun _ => h.d.seq) ((h.runBranch once b).transcript (fun _ => answers) n) ↔
      match b with
      | .crash | .batch => True
      | .exceed => AckSucceeds answers h.d.seq
      | .nak => answers (.prim (.nak h.d.seq)) = true
      | .term => answers (.prim (.term h.d.seq)) = true := by
  cases b with
  | crash =>
    refine (honest_resetIfOnce once .crash _).trans ?_
    refine (honest_cons rfl rfl).trans ?_
    simp [Honest, Handling.recordWorkerEvent, List.filterMap_cons, outcomeOf, Proc.bind]
  | exceed =>
    refine (honest_resetIfOnce once .exceed _).trans ?_
    refine (honest_cons ?_ rfl).trans (honest_ackIfWanted h (fun n => ?_) fun n => ?_)
    · simp [outcomeOf]
    · simp [Handling.recordWorkerEvent, outcomeOf]
    · simp [Handling.recordWorkerEvent]
  | nak =>
    refine (honest_resetIfOnce once .nak _).trans ?_
    by_cases hok : answers (.prim (.nak h.d.seq)) = true <;>
      simp [Honest, Handling.recordWorkerEvent, List.filterMap_cons, outcomeOf, hok]
  | term =>
    refine (honest_resetIfOnce once .term _).trans ?_
    by_cases hok : answers (.prim (.term h.d.seq)) = true <;>
      simp [Honest, Handling.recordWorkerEvent, List.filterMap_cons, outcomeOf, hok]
  | batch => simp [Handling.runBranch, Honest]

theorem honest_routeToDLQ (h : Handling) :
    Honest (fun _ => h.d.seq) ((h.routeToDLQ arch).transcript (fun _ => answers) n) ↔
      answers (.prim (.publishDLQ h.d.seq (h.dlqMsg arch (answers (.prim .now))))) = true := by
  by_cases hok :
      answers (.prim (.publishDLQ h.d.seq (h.dlqMsg arch (answers (.prim .now))))) = true <;>
    simp [Honest, Handling.routeToDLQ, Handling.recordWorkerEvent, Proc.transcript_bind,
      List.filterMap_cons, claims_ackIfWanted, effects_ackIfWanted,
      outcomeOf, hok]

theorem honest_retry (h : Handling) :
    Honest (fun _ => h.d.seq) ((h.retry arch).transcript (fun _ => answers) n) ↔
      (0 < Handling.nakDelaySec arch h.job.payload → answers (.prim (.nakWithDelay h.d.seq
        (Handling.nakDelay (Handling.nakDelaySec arch h.job.payload)))) = true) := by
  by_cases hd : 0 < Handling.nakDelaySec arch h.job.payload
  · by_cases hok : answers (.prim (.nakWithDelay h.d.seq
        (Handling.nakDelay (Handling.nakDelaySec arch h.job.payload)))) = true <;>
      simp [Honest, Handling.retry, hd, Handling.recordWorkerEvent, List.filterMap_cons,
        outcomeOf, hok]
  · simp [Honest, Handling.retry, hd, Handling.recordWorkerEvent, List.filterMap_cons, outcomeOf]

theorem honest_complete (h : Handling) :
    Honest (fun _ => h.d.seq) (h.complete.transcript (fun _ => answers) n) ↔
      AckSucceeds answers h.d.seq := by
  refine (honest_cons ?_ rfl).trans (honest_ackIfWanted h (fun n => ?_) fun n => ?_)
  · simp [outcomeOf]
  · simp [Handling.recordWorkerEvent, outcomeOf]
  · simp [Handling.recordWorkerEvent]

theorem honest_process (h : Handling) :
    Honest (fun _ => h.d.seq) ((h.process arch).transcript (fun _ => answers) n) ↔
      h.CallSucceeds answers arch := by
  have hclaim : (h.recordPull.transcript (fun _ => answers) n).filterMap
      (claimOf fun _ => h.d.seq) = [] := by
    by_cases hre : 1 < h.attemptCount <;>
      simp [Handling.recordPull, hre, Handling.recordWorkerEvent, List.filterMap_cons, claimOf,
        outcomeOf]
  have heffect : (h.recordPull.transcript (fun _ => answers) n).filterMap effectOf = [] := by
    by_cases hre : 1 < h.attemptCount <;>
      simp [Handling.recordPull, hre, Handling.recordWorkerEvent, List.filterMap_cons, effectOf]
  rw [Handling.process, Proc.transcript_bind, honest_append hclaim heffect]
  refine (honest_cons ?_ rfl).trans ((honest_cons rfl rfl).trans ?_)
  · simp [outcomeOf]
  rw [Handling.CallSucceeds]
  dsimp only [Proc.bind]
  generalize Handling.branchOf _ h.attemptCount = branch
  cases branch with
  | some b =>
    refine (honest_runBranch h _ b).trans ?_
    cases b <;> rfl
  | none =>
    dsimp only [Handling.evaluate]
    split_ifs
    · exact honest_routeToDLQ h
    · exact honest_retry h
    · exact honest_complete h

theorem d_of_ofDelivery {d : Delivery} {w : String} {h : Handling}
    (hh : Handling.ofDelivery d w = some h) : h.d = d := by
  rw [Handling.ofDelivery] at hh
  cases hjob : Job.parse d.msg.data with
  | none => simp [hjob] at hh
  | some job =>
    simp only [hjob] at hh
    split_ifs at hh
    obtain rfl := Option.some_inj.mp hh
    rfl

theorem honest_handleJetStreamMsg (d : Delivery) (w : String) :
    Honest (fun _ => d.seq) ((handleJetStreamMsg arch d w).transcript (fun _ => answers) n) ↔
      ∀ h, Handling.ofDelivery d w = some h → h.CallSucceeds answers arch := by
  rw [handleJetStreamMsg]
  cases hh : Handling.ofDelivery d w with
  | none => simp [Honest, List.filterMap_cons]
  | some h =>
    obtain rfl := d_of_ofDelivery hh
    exact (honest_process h).trans (by simp)

end

/-! ## The batch -/

section
variable {answer : ℕ → (c : Call Op Label) → Call.Res Op.Res Bool c} {about : String → ℕ}
  {α : Type} {n : ℕ}

/-- A call that claims nothing may come before an honest rest. -/
theorem honest_call {o : Call Op Label} {k : Call.Res Op.Res Bool o → Prog α}
    (hclaim : ∀ r, claimOf about ⟨o, r⟩ = none)
    (hk : ∀ r n, Honest about ((k r).transcript answer n)) (n : ℕ) :
    Honest about ((Proc.call o k).transcript answer n) := by
  have hrest := hk (answer n o) (n + 1)
  rw [Honest] at hrest
  rw [Honest, Proc.transcript_call, List.filterMap_cons_none (hclaim _)]
  cases heffect : effectOf ⟨o, answer n o⟩ with
  | none => rwa [List.filterMap_cons_none heffect]
  | some e =>
    rw [List.filterMap_cons_some heffect]
    exact List.subset_cons_of_subset e hrest

/-- An acknowledgement that is claimed once it has succeeded. -/
theorem honest_ackReported {seq : ℕ} {o : Call Op Label} {k : Call.Res Op.Res Bool o → Prog α}
    {p : Prog α} (hclaim : ∀ r, claimOf about ⟨o, r⟩ = some (.ack seq))
    (heffect : ∀ r, effectOf ⟨o, r⟩ = none)
    (hk : ∀ r n, Honest about ((k r).transcript answer n))
    (hp : ∀ n, Honest about (p.transcript answer n)) (n : ℕ) :
    Honest about
      ((op (.ack seq) >>= fun ok => if ok then .call o k else p).transcript answer n) := by
  have hcall : (op (.ack seq) >>= fun ok => if ok then .call o k else p) =
      Proc.call (.prim (.ack seq)) fun ok => if ok then .call o k else p := rfl
  rw [hcall, Proc.transcript_call]
  by_cases hok : answer n (.prim (.ack seq)) = true
  · have hrest := hk (answer (n + 1) o) (n + 2)
    rw [Honest] at hrest
    rw [if_pos hok, Proc.transcript_call, Honest, List.filterMap_cons_none claimOf_ack,
      List.filterMap_cons_some (hclaim _),
      List.filterMap_cons_some (effectOf_ack.trans (if_pos hok)),
      List.filterMap_cons_none (heffect _)]
    exact List.cons_subset_cons _ hrest
  · rw [if_neg hok]
    exact (honest_cons claimOf_ack (effectOf_ack.trans (if_neg hok))).mpr (hp (n + 1))

/-- The message of the batch that a tag is about. -/
def batchAbout (d1 d3 : Delivery) (tag : String) : ℕ :=
  if tag = "[ACK SENT]" then d1.seq else d3.seq

theorem honest_handleOutOfOrderBatch (d1 d2 d3 : Delivery) (w : String) :
    Honest (batchAbout d1 d3) ((handleOutOfOrderBatch d1 d2 d3 w).transcript answer n) := by
  refine honest_call (fun _ => by simp [outcomeOf]) (fun _ => ?_) n
  refine honest_ackReported (fun _ => by simp [outcomeOf, batchAbout]) (fun _ => rfl)
    (fun _ => ?_) ?_
  -- the rest is the same whether or not the first acknowledgement got through
  all_goals
    refine honest_call (fun _ => by simp [outcomeOf]) fun _ => ?_
    refine honest_call (fun _ => rfl) fun gap => ?_
    refine honest_ackReported (fun _ => by simp [outcomeOf, batchAbout]) (fun _ => rfl)
      (fun _ => ?_) ?_
    all_goals exact honest_call (fun _ => rfl) fun _ _ => List.Subset.refl _

theorem honest_healGap (h : Hole) :
    Honest (fun _ => h.d.seq) ((healGap h).transcript answer n) := by
  refine honest_call (fun _ => rfl) (fun _ => ?_) n
  refine honest_call (fun _ => rfl) fun _ => ?_
  refine honest_ackReported (fun _ => by simp [outcomeOf]) (fun _ => rfl) (fun _ => ?_) ?_
  · exact fun _ => List.Subset.refl _
  · exact fun _ => List.Subset.refl _

end

/-- Whatever the messages and the answers, the log of both handlers claims nothing that
was not done. -/
def LogHonest (arch : Platform) : Prop :=
  ∀ answers : (c : Call Op Label) → Call.Res Op.Res Bool c,
    (∀ d w, Honest (fun _ => d.seq)
      ((handleJetStreamMsg arch d w).transcript (fun _ => answers) 0)) ∧
    ∀ d1 d2 d3 w, Honest (batchAbout d1 d3)
      ((handleOutOfOrderBatch d1 d2 d3 w).transcript (fun _ => answers) 0)

/-- **When the log tells the truth.**  The handler of a single message does so if and only
if the call that its branch reports is made and succeeds; that of the batch, and the
goroutine that closes its gap, always do. -/
theorem honest_iff (arch : Platform) :
    (∀ (answers : (c : Call Op Label) → Call.Res Op.Res Bool c) d w,
      Honest (fun _ => d.seq) ((handleJetStreamMsg arch d w).transcript (fun _ => answers) 0) ↔
        ∀ h, Handling.ofDelivery d w = some h → h.CallSucceeds answers arch) ∧
    (∀ answer d1 d2 d3 w, Honest (batchAbout d1 d3)
      ((handleOutOfOrderBatch d1 d2 d3 w).transcript answer 0)) ∧
    ∀ answer (h : Hole), Honest (fun _ => h.d.seq) ((healGap h).transcript answer 0) :=
  ⟨fun _ d w => honest_handleJetStreamMsg d w,
    fun _ d1 d2 d3 w => honest_handleOutOfOrderBatch d1 d2 d3 w, fun _ h => honest_healGap h⟩

/-- A job completes, and its acknowledgement fails. -/
theorem not_logHonest : ¬ LogHonest .amd64 := by
  intro h
  let d : Delivery := ⟨0, jetStreamMsg "j1" [], some ⟨1, 1⟩⟩
  have hhonest := (honest_handleJetStreamMsg d "processor-1").mp
    ((h someAnswer).1 d "processor-1")
  have hsucceeds : AckSucceeds someAnswer 0 := hhonest _ rfl
  exact absurd hsucceeds.2 (by decide)

end NatsDemo.Processor
