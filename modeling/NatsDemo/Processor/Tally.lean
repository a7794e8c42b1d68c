import NatsDemo.Processor.Registry
import NatsDemo.Processor.Service
import NatsDemo.Processor.Uses

/-!
# The messages of the queue group

The status of the queue group shows a number for each worker.  It is the number of messages
that the worker took since the last reset, whatever else the processor does, and every
message that can be read is counted once, for the one worker that it was delivered to.
-/

namespace NatsDemo.Processor
open Lib Go Jobs Messaging

namespace Service

/-- The counters of the queue group are set back. -/
def isQueueReset : Deed → Bool
  | .env .queueReset => true
  | _ => false

@[simp] theorem isQueueReset_op (i : ℕ) (o : Op) (r : Op.Res o) :
    isQueueReset (.op i o r) = false := rfl

/-- The worker that an operation counts a message for. -/
def countedFor : (o : Op) × Op.Res o → Option String
  | ⟨.countQueueMessage w, _⟩ => some w
  | _ => none

@[simp] theorem countedFor_count (w : String) (u : Unit) :
    countedFor ⟨.countQueueMessage w, u⟩ = some w := rfl
@[simp] theorem countedFor_publish (e : LifecycleEvent) (u : Unit) :
    countedFor ⟨.publishJobLifecycle e, u⟩ = none := rfl

/-- A message is counted for a worker. -/
def countsFor (w : String) : Deed → Bool := Machine.Deed.sat fun d => countedFor d = some w

/-- A message is counted. -/
def counts : Deed → Bool := Machine.Deed.sat fun d => (countedFor d).isSome

/-- What the status shows for a worker. -/
def shown (a : App) (w : String) : ℕ := (GoMap.get? a.queueDistribution w).getD 0

section
variable (arch : Platform)

theorem shown_zeros (ns : List ℕ) (w : String) :
    (GoMap.get? (ns.map fun i => (workerName i, 0)) w).getD 0 = 0 := by
  induction ns with
  | nil => rfl
  | cons n ns ih =>
    rw [List.map_cons, GoMap.get?_cons]
    split_ifs
    · rfl
    · exact ih

theorem queueDistribution_input (s : Shared) (e : Input) :
    (s.input e).1.app.queueDistribution = s.app.queueDistribution :=
  congrArg Counters.queueDistribution (counters_input s e)

theorem queueDistribution_exec (x : Choice) (s : Shared) (o : Op) :
    (s.exec x o).2.app.queueDistribution = match o with
      | .countQueueMessage w => (s.app.countQueueMessage w).queueDistribution
      | _ => s.app.queueDistribution := by
  have h := congrArg Counters.queueDistribution (counters_exec x s o)
  cases o <;> exact h

/-- The counter of a worker goes by the entries alone. -/
theorem shown_run (as : List Act) (w : String) :
    shown (after arch as).shared.app w =
      (since isQueueReset (deeds arch as)).countP (countsFor w) := by
  have hview := Machine.view_run (M := service arch)
    (f := fun n e => if isQueueReset e then 0 else if countsFor w e then n + 1 else n)
    (fun s => shown s.app w) (fun e c => ?_) (fun i o x c => ?_) (State.empty arch) as
  · have hzero : shown (State.empty arch).shared.app w = 0 := shown_zeros _ w
    rw [hzero] at hview
    exact hview.trans (foldl_count (countsFor w) (deeds arch as))
  · cases e with
    | input e => exact congrArg (fun m => (GoMap.get? m w).getD 0) (queueDistribution_input c e)
    | queueReset => exact shown_zeros _ w
    | _ => rfl
  · have hdist := queueDistribution_exec x c o
    cases o with
    | countQueueMessage w' =>
      show (GoMap.get? (c.exec x (.countQueueMessage w')).2.app.queueDistribution w).getD 0 = _
      rw [hdist]
      by_cases h : w' = w
      · subst h
        simp [App.countQueueMessage, isQueueReset, countsFor, Machine.Deed.sat, countedFor, shown]
      · simp [App.countQueueMessage, isQueueReset, countsFor, Machine.Deed.sat, countedFor, shown,
          h, Ne.symm h]
    | _ => exact congrArg (fun m => (GoMap.get? m w).getD 0) hdist

/-- The map of the counters fits the entries. -/
structure Fits (m : GoMap ℕ) (es : List Deed) : Prop where
  nodup : m.keys.Nodup
  total : m.total = (since isQueueReset es).countP counts

theorem fits_zeros (n : ℕ) {es : List Deed} (hes : since isQueueReset es = []) :
    Fits ((List.range' 1 n).map fun i => (workerName i, 0)) es where
  nodup := by
    have hkeys : GoMap.keys ((List.range' 1 n).map fun i => (workerName i, 0)) =
        (List.range' 1 n).map workerName := by
      rw [GoMap.keys, List.map_map]
      rfl
    rw [hkeys]
    exact List.Nodup.map workerName_injective List.nodup_range'
  total := by
    rw [hes, List.countP_nil, GoMap.total, List.map_map]
    simp [Function.comp_def]

/-- An entry that is neither a reset nor a count makes no difference. -/
theorem Fits.other {m : GoMap ℕ} {es : List Deed} (h : Fits m es) {e : Deed}
    (hreset : isQueueReset e = false) (hcount : counts e = false) : Fits m (es ++ [e]) where
  nodup := h.nodup
  total := by
    rw [since_concat, hreset, if_neg Bool.false_ne_true, List.countP_append, h.total]
    simp [hcount]

/-- The counters add up to the messages counted. -/
theorem fits_run (as : List Act) :
    Fits (after arch as).shared.app.queueDistribution (deeds arch as) := by
  have hstep : ∀ (s : State arch) (es : List Deed) (a : Act),
      Fits s.shared.app.queueDistribution es →
        Fits (Machine.step s a).shared.app.queueDistribution (es ++ Machine.deeds s a) := by
    intro s es a hfits
    obtain ⟨hd, hs⟩ | ⟨e, hd, hs⟩ | ⟨i, o, x, -, hd, hs⟩ := Machine.deeds_cases s a
    · rw [hd, hs, List.append_nil]
      exact hfits
    · rw [hd, hs]
      cases e with
      | input e =>
        rw [show ((service arch).env (.input e) s.shared).1 = (s.shared.input e).1 from rfl,
          queueDistribution_input]
        exact hfits.other rfl rfl
      | queueReset => exact fits_zeros _ (by simp [since_concat, isQueueReset])
      | _ => exact hfits.other rfl rfl
    · rw [hd, hs]
      have hdist := queueDistribution_exec x s.shared o
      cases o with
      | countQueueMessage w =>
        refine ⟨GoMap.nodup_keys_set hfits.nodup w _, ?_⟩
        rw [since_concat, isQueueReset_op, if_neg Bool.false_ne_true, List.countP_append,
          ← hfits.total]
        exact GoMap.total_set_succ hfits.nodup w
      | _ =>
        have hsame : ((service arch).exec _ x s.shared).2.app.queueDistribution = _ := hdist
        rw [hsame]
        exact hfits.other rfl rfl
  have hstart : Fits (State.empty arch).shared.app.queueDistribution [] := fits_zeros 5 rfl
  exact journal_inv hstep hstart as

theorem queueWorkersCount_subscribeJetStream (a : App) (now : Time) (b : Binding) :
    (a.subscribeJetStream now b).queueWorkersCount = a.queueWorkersCount := by
  obtain ⟨name, bound, hframe⟩ := a.subscribeJetStream_eq now b
  rw [hframe]

theorem queueWorkersCount_exec (x : Choice) (s : Shared) (o : Op) :
    (s.exec x o).2.app.queueWorkersCount = s.app.queueWorkersCount := by
  cases o with
  | fetch n | ack seq | term seq | publishDLQ origin m => simp [Shared.exec]
  | subscribeJetStream => exact queueWorkersCount_subscribeJetStream s.app s.clock x.binding
  | _ => rfl

theorem clampWorkers_le (n : ℤ) : clampWorkers n ≤ 5 := by
  unfold clampWorkers
  split_ifs <;> omega

/-- The group never has more than five workers. -/
theorem queueWorkersCount_run (as : List Act) :
    (after arch as).shared.app.queueWorkersCount ≤ 5 := by
  refine run_inv_all (fun s : State arch => s.shared.app.queueWorkersCount ≤ 5) ?_ as
    (Nat.le_add_left 1 4)
  intro s a hs
  refine Machine.shared_step (fun c : Shared => c.app.queueWorkersCount ≤ 5) hs (fun e _ => ?_)
    fun i x t o k _ _ _ => ?_
  · cases e with
    | input e =>
      cases e with
      | setQueueWorkers workers err => exact clampWorkers_le workers
      | control a =>
        cases a with
        | subscribeJetStream now b =>
          exact (queueWorkersCount_subscribeJetStream s.shared.app now b).le.trans hs
        | _ => exact hs
      | _ => exact hs
    | _ => exact hs
  · exact (queueWorkersCount_exec x s.shared o).le.trans hs

/-! ## Which messages are counted -/

/-- The goroutine has begun with a message that can be read, as the worker of the group. -/
def took (w : String) (t : Thread arch) : Bool :=
  match t.label with
  | .queue m w' => decide (w' = w) && (Job.parse m.data).isSome && !t.hist.isEmpty
  | _ => false

/-- Once begun, the handler has counted a message that can be read, and it counts no more. -/
theorem wp_handleQueueMessage (w w' : String) (m : Msg) :
    (handleQueueMessage w' m).wp (Contract.record Shared fun done =>
      (done.filterMap Machine.opOf).countP (fun d => countedFor d = some w) =
        if (decide (w' = w) && (Job.parse m.data).isSome && !done.isEmpty) = true then 1 else 0)
      (fun _ done => (done.filterMap Machine.opOf).countP (fun d => countedFor d = some w) =
        if (decide (w' = w) && (Job.parse m.data).isSome && !done.isEmpty) = true then 1 else 0)
      [] := by
  rw [handleQueueMessage]
  cases hparse : Job.parse m.data with
  | none => simp
  | some job =>
    by_cases h : w' = w <;>
      simp [Contract.record, h, -List.countP_eq_zero]

/-- A message is counted once, when its handling begins. -/
theorem countP_ops (w : String) (t : Thread arch) :
    t.ops.countP (fun d => countedFor d = some w) = if took arch w t then 1 else 0 := by
  by_cases hkind : t.label.kind = .queue
  · obtain ⟨label, hist, rest, traced⟩ := t
    cases label with
    | queue m w' =>
      have hrecord := traced.of_record (wp_handleQueueMessage w w' m)
      simpa [took, Machine.Thread.ops] using hrecord
    | _ => cases hkind
  · have hzero : t.ops.countP (fun d => countedFor d = some w) = 0 := by
      refine Machine.Thread.countP_ops_eq_zero _ (program_avoids ?_)
      rintro c ⟨o, r, rfl, ho⟩
      cases o with
      | countQueueMessage w' => simpa [Foreign, users] using hkind
      | _ => simp [countedFor] at ho
    have hno : took arch w t = false := by
      rw [took]
      cases hl : t.label with
      | queue m w' => exact absurd (by rw [hl]; rfl) hkind
      | _ => rfl
    rw [hzero, hno]
    rfl

theorem sum_took (w : String) (ts : List (Thread arch)) :
    (ts.map fun t => t.ops.countP fun d => countedFor d = some w).sum =
      ts.countP (took arch w) := by
  induction ts with
  | nil => rfl
  | cons t ts ih =>
    rw [List.map_cons, List.sum_cons, ih, countP_ops, List.countP_cons, Nat.add_comm]

/-- The entries that count for a worker, and the messages it has begun with. -/
theorem countP_deeds (as : List Act) (w : String) :
    (deeds arch as).countP (countsFor w) = (after arch as).threads.countP (took arch w) := by
  have htotal := Machine.total_run (M := service arch) (fun d => countedFor d = some w)
    (State.empty arch) as
  rw [← sum_took]
  exact ((Nat.zero_add _).symm.trans htotal.symm)

end

end Service

end NatsDemo.Processor
