import Mathlib.Data.Int.CardIntervalMod
import NatsDemo.Processor.Registry
import NatsDemo.Processor.Service
import NatsDemo.Processor.Uses

/-!
# Attempts and turns of the Core jobs

The callbacks of the Core subscription run side by side.  Each draws the number of its
attempt from a counter of its job and its worker from one that all of them share, so that
the attempts of a job are numbered without gaps and without repeats, and the workers take
turns.
-/

namespace NatsDemo.Processor
open Lib Go Jobs Messaging

namespace Service

/-! ## Attempts -/

/-- The goroutine that counts an attempt of a job, and the number it gets. -/
def attemptOf (jobID : String) : Deed → Option (ℕ × ℕ)
  | .op i (.countAttempt id) n => if id = jobID then some (i, n) else none
  | _ => none

/-- The attempts of a job so far. -/
def attemptsOf (a : App) (jobID : String) : ℕ := (GoMap.get? a.attempts jobID).getD 0

section
variable (arch : Platform)

theorem attempts_demand (s : Shared) (e : Demand) :
    (s.demand e).1.app.attempts = s.app.attempts := by
  cases e with
  | input e => exact congrArg Counters.attempts (counters_input s e)
  | _ => rfl

theorem attempts_exec (x : Choice) (s : Shared) (o : Op) :
    (s.exec x o).2.app.attempts = match o with
      | .countAttempt jobID => (s.app.countAttempt jobID).2.attempts
      | _ => s.app.attempts := by
  have h := congrArg Counters.attempts (counters_exec x s o)
  cases o <;> exact h

/-- The counter of a job hands out the numbers after its own. -/
theorem attempts_dispenser (jobID : String) :
    Dispenser Machine.step (Machine.deeds (M := service arch)) (attemptOf jobID)
      (fun s => attemptsOf s.shared.app jobID) (· + 1) (fun v d => d.2 = v + 1) := by
  refine Machine.dispenser_of_exec (fun s : Shared => attemptsOf s.app jobID) (fun _ => rfl)
    (fun e c => congrArg (fun m => (GoMap.get? m jobID).getD 0) (attempts_demand c e)) ?_
  intro i o x c
  have hattempts := attempts_exec x c o
  cases o with
  | countAttempt id =>
    by_cases h : id = jobID
    · subst h
      refine .inr ⟨(i, attemptsOf c.app id + 1), if_pos rfl, rfl, ?_⟩
      show (GoMap.get? (c.exec x (.countAttempt id)).2.app.attempts id).getD 0 = _
      rw [hattempts]
      simp [App.countAttempt, attemptsOf]
    · refine .inl ⟨if_neg h, ?_⟩
      show (GoMap.get? (c.exec x (.countAttempt id)).2.app.attempts jobID).getD 0 = _
      rw [hattempts]
      simp [App.countAttempt, attemptsOf, Ne.symm h]
  | _ => exact .inl ⟨rfl, congrArg (fun m => (GoMap.get? m jobID).getD 0) hattempts⟩

/-- The attempts of a job that a run counts. -/
def draws (as : List Act) (jobID : String) : List (ℕ × ℕ) :=
  (deeds arch as).filterMap (attemptOf jobID)

theorem iterate_add_one (k : ℕ) : (· + 1)^[k] 0 = k := by
  induction k with
  | zero => rfl
  | succ k ih => rw [Function.iterate_succ_apply', ih]

/-- The attempts of a job are numbered from one on. -/
theorem draws_snd (as : List Act) (jobID : String) :
    (draws arch as jobID).map Prod.snd = List.range' 1 (draws arch as jobID).length := by
  obtain ⟨-, hdraws⟩ := (attempts_dispenser arch jobID).run (State.empty arch) as
  refine List.ext_getElem (by simp) fun k hk _ => ?_
  have hlt : k < (draws arch as jobID).length := by simpa using hk
  have hzero : attemptsOf (State.empty arch).shared.app jobID = 0 := rfl
  have hk' := hdraws k _ (List.getElem?_eq_getElem hlt)
  rw [hzero, iterate_add_one] at hk'
  rw [List.getElem_map, List.getElem_range', hk']
  omega

/-- No two goroutines get the same number for a job. -/
theorem draws_injective {as : List Act} {jobID : String} {i j n : ℕ}
    (hi : (i, n) ∈ draws arch as jobID) (hj : (j, n) ∈ draws arch as jobID) : i = j := by
  have hnodup : ((draws arch as jobID).map Prod.snd).Nodup := by
    rw [draws_snd]
    exact List.nodup_range'
  exact congrArg Prod.fst (List.inj_on_of_nodup_map hnodup hi hj rfl)

/-! ## What a Core goroutine publishes -/

/-- The job that a callback takes from a message, and its mode, if it does not leave the
message to JetStream. -/
def taken (m : Msg) : Option (Job × String) :=
  match Job.parse m.data with
  | none => none
  | some job =>
    let header := m.header.get "X-Delivery-Mode"
    let mode := if header = "" then job.deliveryMode else header
    let coreMode := if job.deliveryMode = "" then "CORE" else job.deliveryMode
    if mode = "JETSTREAM" ∨ coreMode = "JETSTREAM" then none else some (job, coreMode)

theorem jobSubmittedCallback_eq (m : Msg) : jobSubmittedCallback arch m =
    (taken m).elim (pure false) fun r => processCore arch r.1 r.2 := by
  rw [jobSubmittedCallback, taken]
  cases Job.parse m.data with
  | none => rfl
  | some job =>
    dsimp only [coreJobHandler]
    split_ifs <;> simp_all

/-- The event that ends an attempt. -/
def outcome (job : Job) (mode worker : String) (n : ℕ) : LifecycleEvent :=
  if Handling.failureFires arch job.payload n then
    let count := (job.payload.int arch "simulate_failure_count").getD 0
    ⟨subjectJobFailed, job.jobID, "FAILED", n, s!"Simulated failure attempt {n} of {count}",
      worker, mode⟩
  else ⟨subjectJobCompleted, job.jobID, "COMPLETED", n, "", worker, mode⟩

/-- The events of an attempt. -/
def script (job : Job) (mode worker : String) (n : ℕ) : List LifecycleEvent :=
  [⟨subjectJobReceived, job.jobID, "RECEIVED", n, "", worker, mode⟩,
   ⟨subjectJobProcessingStarted, job.jobID, "PROCESSING", n, "", worker, mode⟩,
   outcome arch job mode worker n]

/-- An event that an operation publishes. -/
def eventOf : (o : Op) × Op.Res o → Option LifecycleEvent
  | ⟨.publishJobLifecycle e, _⟩ => some e
  | _ => none

/-- The events published so far are the first ones of the script, for the attempt and the
worker drawn. -/
def Follows (job : Job) (mode : String) (ops : List ((o : Op) × Op.Res o)) : Prop :=
  ops.filterMap eventOf = [] ∨ ∃ w k n, ⟨.nextCoreWorker k, w⟩ ∈ ops ∧
    ⟨.countAttempt job.jobID, n⟩ ∈ ops ∧ ops.filterMap eventOf <+: script arch job mode w n

theorem wp_processCore (job : Job) (mode : String) :
    (processCore arch job mode).wp
      (Contract.record Shared fun done => Follows arch job mode (done.filterMap Machine.opOf))
      (fun _ done => Follows arch job mode (done.filterMap Machine.opOf)) [] := by
  refine ⟨.inl rfl, fun _ workers _ => ⟨.inl rfl, fun _ w _ => ⟨.inl rfl, fun _ n _ =>
    ⟨.inl rfl, fun _ _ _ => ?_⟩⟩⟩⟩
  have hdrawn (es : List LifecycleEvent) (h : es <+: script arch job mode w n) :
      Follows arch job mode (⟨.readWorkers, workers⟩ ::
        ⟨.nextCoreWorker (if workers = 0 then 1 else workers), w⟩ ::
        ⟨.countAttempt job.jobID, n⟩ :: es.map fun e => ⟨.publishJobLifecycle e, ()⟩) := by
    refine .inr ⟨w, _, n, List.mem_cons_of_mem _ List.mem_cons_self,
      List.mem_cons_of_mem _ (List.mem_cons_of_mem _ List.mem_cons_self), ?_⟩
    rw [List.filterMap_cons_none rfl, List.filterMap_cons_none rfl, List.filterMap_cons_none rfl,
      List.filterMap_map]
    exact (List.filterMap_some (l := es)).symm ▸ h
  have hall := hdrawn _ (List.prefix_refl (script arch job mode w n))
  have hfirst := hdrawn _ (List.take_prefix 1 (script arch job mode w n))
  have hsecond := hdrawn _ (List.take_prefix 2 (script arch job mode w n))
  refine ⟨hfirst, fun _ _ _ => ?_⟩
  by_cases hfires : Handling.failureFires arch job.payload n
  · rw [script, outcome, if_pos hfires] at hall
    simp only [if_pos hfires]
    exact ⟨hsecond, fun _ _ _ => hall⟩
  · rw [script, outcome, if_neg hfires] at hall
    simp only [if_neg hfires]
    exact ⟨hsecond, fun _ _ _ => hall⟩

/-- The events that a goroutine has published. -/
def published {arch : Platform} (t : Thread arch) : List LifecycleEvent :=
  t.ops.filterMap eventOf

theorem follows_of_core {t : Thread arch} {m : Msg} (ht : t.label = .core m) :
    published t = [] ∨ ∃ job mode, taken m = some (job, mode) ∧ Follows arch job mode t.ops := by
  obtain ⟨label, hist, rest, traced⟩ := t
  obtain rfl : label = .core m := ht
  have hbody : (service arch).body (.core m) = (taken m).elim (pure false) fun r =>
      processCore arch r.1 r.2 := jobSubmittedCallback_eq arch m
  rw [hbody] at traced
  cases htaken : taken m with
  | none =>
    rw [htaken] at traced
    have hnothing := traced.of_record (Φ := fun done => done = []) rfl
    exact .inl (by rw [published, Machine.Thread.ops, hnothing]; rfl)
  | some r =>
    rw [htaken] at traced
    exact .inr ⟨r.1, r.2, rfl, traced.of_record (wp_processCore arch r.1 r.2)⟩

theorem mem_draws {as : List Act} {i n : ℕ} {t : Thread arch} {jobID : String}
    (ht : (after arch as).threads[i]? = some t) (hn : ⟨.countAttempt jobID, n⟩ ∈ t.ops) :
    (i, n) ∈ draws arch as jobID :=
  List.mem_filterMap.mpr ⟨_, Machine.mem_journal_of_mem_ops rfl ht hn, if_pos rfl⟩

/-- An attempt of a job, as it shows on the bus. -/
structure Attempt (as : List Act) (i : ℕ) (m : Msg) (events : List LifecycleEvent) (jobID : String)
    (n : ℕ) : Prop where
  drawn : (i, n) ∈ draws arch as jobID
  events : ∃ job mode worker, taken m = some (job, mode) ∧ job.jobID = jobID ∧
    events <+: script arch job mode worker n

theorem attempt_of_published {as : List Act} {i : ℕ} {t : Thread arch} {m : Msg}
    (ht : (after arch as).threads[i]? = some t) (hlabel : t.label = .core m)
    (h : published t ≠ []) : ∃ jobID n, Attempt arch as i m (published t) jobID n := by
  obtain hnone | ⟨job, mode, htaken, hnone | ⟨w, k, n, -, hn, hprefix⟩⟩ :=
    follows_of_core arch hlabel
  · exact absurd hnone h
  · exact absurd hnone h
  · exact ⟨job.jobID, n, mem_draws arch ht hn, job, mode, w, htaken, rfl, hprefix⟩

theorem Attempt.of_mem {as : List Act} {i n : ℕ} {m : Msg} {events : List LifecycleEvent}
    {jobID : String} (h : Attempt arch as i m events jobID n) {e : LifecycleEvent}
    (he : e ∈ events) : e.jobID = jobID ∧ e.deliveryCount = n := by
  obtain ⟨job, mode, w, -, rfl, hprefix⟩ := h.events
  have hmem := hprefix.subset he
  simp only [script, outcome, List.mem_cons, List.not_mem_nil, or_false] at hmem
  rcases hmem with rfl | rfl | rfl
  · exact ⟨rfl, rfl⟩
  · exact ⟨rfl, rfl⟩
  · split_ifs <;> exact ⟨rfl, rfl⟩

/-- **Attempts are numbered.**  In any run the attempts of a job are numbered from one on, each
callback that publishes anything does so for an attempt of its own, which fails as the payload
says for that number, and no two callbacks publish the same number for a job. -/
theorem attempts_numbered (as : List Act) :
    (∀ jobID, (draws arch as jobID).map Prod.snd = List.range' 1 (draws arch as jobID).length) ∧
    (∀ (i : ℕ) (t : Thread arch) m, (after arch as).threads[i]? = some t → t.label = .core m →
      published t ≠ [] → ∃ jobID n, Attempt arch as i m (published t) jobID n) ∧
    ∀ (i j : ℕ) (t u : Thread arch) m m', (after arch as).threads[i]? = some t →
      (after arch as).threads[j]? = some u → t.label = .core m → u.label = .core m' →
      ∀ e ∈ published t, ∀ e' ∈ published u, e.jobID = e'.jobID →
        e.deliveryCount = e'.deliveryCount → i = j := by
  refine ⟨draws_snd arch as, fun i t m => attempt_of_published arch, ?_⟩
  intro i j t u m m' ht hu hm hm' e he e' he' hid hcount
  obtain ⟨jobID, n, hattempt⟩ := attempt_of_published arch ht hm (List.ne_nil_of_mem he)
  obtain ⟨jobID', n', hattempt'⟩ := attempt_of_published arch hu hm' (List.ne_nil_of_mem he')
  obtain ⟨rfl, rfl⟩ := hattempt.of_mem arch he
  obtain ⟨rfl, rfl⟩ := hattempt'.of_mem arch he'
  rw [← hid, ← hcount] at hattempt'
  exact draws_injective arch hattempt.drawn hattempt'.drawn

/-! ## Turns -/

/-- A worker is chosen in turn, from a pool of a size. -/
def turnOf : Deed → Option (ℕ × String)
  | .op _ (.nextCoreWorker n) w => some (n, w)
  | _ => none

theorem turns_dispenser :
    Dispenser Machine.step (Machine.deeds (M := service arch)) turnOf
      (fun s => s.shared.app.coreWorkerCounter) (fun v => (v + 1) % 2 ^ 64)
      (fun v d => d.2 = workerName (v % d.1 + 1)) := by
  refine Machine.dispenser_of_exec (fun s : Shared => s.app.coreWorkerCounter) (fun _ => rfl)
    (fun e c => ?_) fun i o x c => ?_
  · cases e with
    | input e => exact congrArg Counters.coreWorkerCounter (counters_input c e)
    | _ => rfl
  · have h := congrArg Counters.coreWorkerCounter (counters_exec x c o)
    cases o with
    | nextCoreWorker n => exact .inr ⟨(n, _), rfl, rfl, rfl⟩
    | _ => exact .inl ⟨rfl, h⟩

/-- The workers chosen in a run, each with the size of the pool it was chosen from. -/
def turns (as : List Act) : List (ℕ × String) := (deeds arch as).filterMap turnOf

theorem iterate_mod (k : ℕ) (hk : k < 2 ^ 64) : (fun v => (v + 1) % 2 ^ 64)^[k] 0 = k := by
  induction k with
  | zero => rfl
  | succ k ih =>
    rw [Function.iterate_succ_apply', ih (Nat.lt_of_succ_lt hk)]
    exact Nat.mod_eq_of_lt hk

/-- The workers of a pool that keeps its size come one after the other, and then again. -/
theorem turns_eq {as : List Act} {n : ℕ} (hsize : ∀ d ∈ turns arch as, d.1 = n)
    (hfew : (turns arch as).length ≤ 2 ^ 64) : (turns arch as).map Prod.snd =
      (List.range (turns arch as).length).map fun k => workerName (k % n + 1) := by
  obtain ⟨-, hturns⟩ := (turns_dispenser arch).run (State.empty arch) as
  refine List.ext_getElem (by simp) fun k hk _ => ?_
  have hlt : k < (turns arch as).length := by simpa using hk
  have hzero : (State.empty arch).shared.app.coreWorkerCounter = 0 := rfl
  have hk' := hturns k _ (List.getElem?_eq_getElem hlt)
  rw [hzero, iterate_mod k (hlt.trans_le hfew), hsize _ (List.getElem_mem hlt)] at hk'
  rw [List.getElem_map, List.getElem_map, List.getElem_range]
  exact hk'

theorem count_turns {n i : ℕ} (hi : i < n) (N : ℕ) :
    ((List.range N).map fun k => workerName (k % n + 1)).count (workerName (i + 1)) =
      N.count (· ≡ i [MOD n]) := by
  induction N with
  | zero => rfl
  | succ N ih =>
    have hsame : workerName (N % n + 1) = workerName (i + 1) ↔ N ≡ i [MOD n] := by
      rw [workerName_injective.eq_iff, Nat.add_right_cancel_iff, Nat.ModEq, Nat.mod_eq_of_lt hi]
    rw [List.range_succ, List.map_append, List.count_append, ih, Nat.count_succ]
    simp [List.count_singleton, hsame]

/-- **Turns are fair.**  While the pool keeps its size `n`, each of its workers has had an `n`th
part of the jobs, and the first ones one more where these do not come out even. -/
theorem turns_fair {as : List Act} {n : ℕ} (hn : 0 < n) (hsize : ∀ d ∈ turns arch as, d.1 = n)
    (hfew : (turns arch as).length ≤ 2 ^ 64) {i : ℕ} (hi : i < n) :
    ((turns arch as).map Prod.snd).count (workerName (i + 1)) =
      (turns arch as).length / n + if i < (turns arch as).length % n then 1 else 0 := by
  rw [turns_eq arch hsize hfew, count_turns hi, Nat.count_modEq_card _ hn, Nat.mod_eq_of_lt hi]

end

/-- Three jobs come to a pool of two workers. -/
def threeForTwo : List Act :=
  let job : Msg := { subject := subjectJobSubmitted, data := some (.obj [("job_id", .str "a")]) }
  [.env (.input (.control (.scaleWorkers 2))), .env (.input (.control (.subscribeCore true))),
    .env (.input (.store job)), .env (.input (.store job)), .env (.input (.store job)),
    .op 3 {}, .op 2 {}, .op 4 {}, .op 3 {}, .op 2 {}, .op 4 {}]

theorem turns_fair_three :
    ((turns .amd64 threeForTwo).map Prod.snd).count (workerName 1) = 2 ∧
      ((turns .amd64 threeForTwo).map Prod.snd).count (workerName 2) = 1 := by
  have hsize : ∀ d ∈ turns .amd64 threeForTwo, d.1 = 2 := by decide +kernel
  have hlength : (turns .amd64 threeForTwo).length = 3 := by decide +kernel
  have hfirst := turns_fair .amd64 (i := 0) (by decide) hsize (by rw [hlength]; decide) (by decide)
  have hsecond := turns_fair .amd64 (i := 1) (by decide) hsize (by rw [hlength]; decide) (by decide)
  rw [hlength] at hfirst hsecond
  exact ⟨hfirst, hsecond⟩

end Service

end NatsDemo.Processor
