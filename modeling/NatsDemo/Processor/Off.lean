import NatsDemo.Processor.Genuine
import NatsDemo.Processor.Routing

/-!
# Switching the processor off

Messages reach the processor on four paths, and each deals with the flag in its own way:
a pull loop reads it before it fetches, validation once a request has come, the Core
subscription and the queue group not at all.  Of the two ways of switching off, only the
one over NATS takes the Core subscription down.
-/

namespace NatsDemo.Processor
open Lib Go Jobs Messaging

/-! ## Silence -/

/-- The operations by which the paths report that they begin with a message. -/
def Begins : Call Op Label → Prop
  | .prim (.publishJobLifecycle e) => e.subject = subjectJobProcessingStarted ∨
      e.subject = subjectJobQueueReceived ∨ e.subject = subjectJobRequestReceived
  | .prim (.recordWorkerEvent _ _ tag _ _ _ _) => tag = "[PROCESSING]"
  | _ => False

/-- The goroutine is a callback of a subscription. -/
def Label.isCallback : Label → Bool
  | .core _ | .queue _ _ | .validate _ _ => true
  | _ => false

/-- How often the message under a sequence number was delivered. -/
def countOf (jobs : List Stored) (seq : ℕ) : ℕ := (jobs[seq]?).elim 0 Stored.delivered

/-- The delivery has been made. -/
def Shared.Delivered (s : Shared) (d : Delivery) : Prop :=
  ∃ md, d.metadata = some md ∧ md.numDelivered ≤ countOf s.jobs d.seq

section
variable {arch : Platform}

/-- Of what was delivered after the state `s₁`, nothing has begun to be processed in `s₂`:
neither by a callback started since, nor by a goroutine with a message fetched since. -/
structure Silent (s₁ s₂ : State arch) : Prop where
  callbacks : ∀ (i : ℕ) t, s₂.threads[i]? = some t → s₁.threads.length ≤ i →
    t.label.isCallback = true → ∀ e ∈ t.hist, ¬ Begins e.op
  deliveries : ∀ (i : ℕ) t d, s₂.threads[i]? = some t →
    d ∈ received t ∨ (∃ w, t.label = .handle d w) → ¬ s₁.shared.Delivered d →
    ∀ e ∈ t.hist, ¬ Begins e.op

end

/-- The ways of switching the processor off. -/
inductive SwitchOff where
  | nats
  | http

def SwitchOff.request : SwitchOff → Request
  | .nats => .natsState false true 0 .bound
  | .http => .httpState false

/-- The sections of a request, as acts of the surroundings. -/
def Request.acts (r : Request) : List Act := r.sections.map fun a => .env (.control a)

def SwitchesOn : Act → Prop
  | .env (.control (.setEnabled enabled)) | .env (.control (.httpState enabled)) => enabled = true
  | _ => False

/-- From the end of a request that switches the processor off, whose sections are among
the acts of `off`, and up to the next that switches it on, nothing begins to be
processed that was delivered since. -/
def OffMeansOff (arch : Platform) : Prop :=
  ∀ (as off bs : List Act) (r : SwitchOff), r.request.acts.Sublist off →
    (∀ a ∈ off ++ bs, ¬ SwitchesOn a) →
    Silent (run (stepWorld arch) (State.empty arch) (as ++ off))
      (run (stepWorld arch) (State.empty arch) (as ++ off ++ bs))

/-- The Core engine goes on to process the message. -/
def TakenByCore (m : Msg) : Prop :=
  ∃ job, Job.parse m.data = some job ∧
    CorePasses (m.header.get "X-Delivery-Mode") job.deliveryMode

/-- A pull loop begins with none of the messages: three would be a batch, and each is
discarded. -/
def Discarded (ds : List Delivery) : Prop :=
  ds.length ≠ 3 ∧ ∀ d ∈ ds, ∀ w, Handling.ofDelivery d w = none

/-- A step brings no message to a path that would begin with it: no Core job while the
Core subscription is bound, no job for the queue group, and in a fetch only what is
discarded. -/
def Quiet {arch : Platform} (s : State arch) : Act → Prop
  | .env (.store m) => s.shared.app.sub = true → ¬ TakenByCore m
  | .env (.queue i m) => s.shared.app.queueSubs[i]? ≠ none → Job.parse m.data = none
  | .env _ => True
  | .op i x => ∀ t n k, s.threads[i]? = some t → t.rest = .call (.prim (.fetch n)) k →
      Discarded (s.shared.fetch x n).1.messages

/-! ## The flag stays off -/

theorem enabled_exec (x : Choice) (s : Shared) (o : Op) :
    (s.exec x o).2.app.processingEnabled = s.app.processingEnabled := by
  cases o with
  | subscribeJetStream | fetch n | ack seq | term seq | publishDLQ origin m => simp [Shared.exec]
  | _ => rfl

theorem enabled_input {s : Shared} {e : Input} (he : ¬ SwitchesOn (.env e))
    (hs : s.app.processingEnabled = false) : (s.input e).1.app.processingEnabled = false := by
  cases e with
  | control a =>
    cases a with
    | setEnabled b => exact Bool.eq_false_iff.mpr he
    | httpState b => exact Bool.eq_false_iff.mpr he
    | subscribeJetStream now b => simpa [Shared.input, Section.change, Shared.apply] using hs
    | _ => exact hs
  | _ => exact hs

section
variable {arch : Platform} {s : State arch} {a : Act}

theorem off_step (ha : ¬ SwitchesOn a) (hs : s.shared.app.processingEnabled = false) :
    (stepWorld arch s a).shared.app.processingEnabled = false := by
  rw [stepWorld]
  refine Machine.shared_step (fun s : Shared => s.app.processingEnabled = false) hs ?_ ?_
  · rintro e rfl
    exact enabled_input ha hs
  · exact fun _ x _ o _ _ _ _ => (enabled_exec x s.shared o).trans hs

theorem off_run {s : State arch} {as : List Act} (has : ∀ a ∈ as, ¬ SwitchesOn a)
    (hs : s.shared.app.processingEnabled = false) :
    (run (stepWorld arch) s as).shared.app.processingEnabled = false := by
  have hall : Meets (stepWorld arch) (fun _ a => ¬ SwitchesOn a) s as :=
    meets_of_mem (fun a ha _ => has a ha) s
  exact run_inv (fun s => s.shared.app.processingEnabled = false)
    (fun _ _ hs ha => off_step ha hs) hs hall

/-- One section of each request clears the flag. -/
theorem SwitchOff.exists_clears (r : SwitchOff) :
    ∃ a : Section, .env (.control a) ∈ r.request.acts ∧ ∀ s : State arch,
      (stepWorld arch s (.env (.control a))).shared.app.processingEnabled = false := by
  cases r with
  | nats => exact ⟨.setEnabled false, List.mem_cons_self, fun _ => rfl⟩
  | http => exact ⟨.httpState false, List.mem_cons_self, fun _ => rfl⟩

theorem off_of_switchOff {s : State arch} {off : List Act} {r : SwitchOff}
    (hr : r.request.acts.Sublist off) (hon : ∀ a ∈ off, ¬ SwitchesOn a) :
    (run (stepWorld arch) s off).shared.app.processingEnabled = false := by
  obtain ⟨a, ha, hclears⟩ := @SwitchOff.exists_clears arch r
  obtain ⟨before, after, hoff⟩ := List.append_of_mem (hr.subset ha)
  subst hoff
  rw [run_append, run_cons]
  refine off_run (fun b hb => hon b ?_) (hclears _)
  exact List.mem_append_right _ (List.mem_cons_of_mem _ hb)

end

/-! ## The counts of the deliveries -/

theorem countOf_set {jobs : List Stored} {q : ℕ} {j j' : Stored} (hj : jobs[q]? = some j)
    (hle : j.delivered ≤ j'.delivered) (seq : ℕ) :
    countOf jobs seq ≤ countOf (jobs.set q j') seq := by
  have hlt : q < jobs.length := (List.getElem?_eq_some_iff.mp hj).1
  by_cases hq : q = seq
  · subst hq
    simpa [countOf, hj, List.getElem?_set_self hlt] using hle
  · simp [countOf, List.getElem?_set_ne hq]

/-- Deliveries raise the counts, and carry the count that they have raised. -/
theorem deliver_count (jobs : List Stored) (qs : List ℕ) :
    (∀ seq, countOf jobs seq ≤ countOf (deliver jobs qs).2 seq) ∧
      ∀ d ∈ (deliver jobs qs).1, ∃ md, d.metadata = some md ∧
        md.numDelivered ≤ countOf (deliver jobs qs).2 d.seq := by
  induction qs generalizing jobs with
  | nil => simp [deliver]
  | cons q qs ih =>
    cases hj : jobs[q]? with
    | none => simpa only [deliver, hj] using ih jobs
    | some j =>
      by_cases hsettled : j.settled = true
      · simpa only [deliver, hj, if_pos hsettled] using ih jobs
      · obtain ⟨hmono, hmem⟩ := ih (jobs.set q { j with delivered := j.delivered + 1 })
        have hlt : q < jobs.length := (List.getElem?_eq_some_iff.mp hj).1
        simp only [deliver, hj, if_neg hsettled]
        refine ⟨fun seq => (countOf_set hj (Nat.le_succ _) seq).trans (hmono seq), ?_⟩
        intro d hd
        cases List.mem_cons.mp hd with
        | inl hd =>
          subst hd
          refine ⟨_, rfl, ?_⟩
          simpa [countOf, List.getElem?_set_self hlt] using hmono q
        | inr hd => exact hmem d hd

theorem countOf_modify (jobs : List Stored) (i seq : ℕ) :
    countOf (jobs.modify i fun j => { j with settled := true }) seq = countOf jobs seq := by
  by_cases hi : i = seq
  · subst hi
    cases hj : jobs[i]? <;> simp [countOf, hj]
  · simp [countOf, hi]

theorem count_fetch (s : Shared) (x : Choice) (n seq : ℕ) :
    countOf s.jobs seq ≤ countOf (s.fetch x n).2.jobs seq := by
  simp only [Shared.fetch]
  split_ifs
  · exact (deliver_count s.jobs _).1 seq
  · exact le_refl _
  · exact le_refl _

theorem delivered_of_fetch {s : Shared} {x : Choice} {n : ℕ} {d : Delivery}
    (hd : d ∈ (s.fetch x n).1.messages) : (s.fetch x n).2.Delivered d := by
  simp only [Shared.fetch] at hd ⊢
  split_ifs at hd ⊢
  · exact (deliver_count s.jobs _).2 d hd
  · cases hd
  · cases hd

theorem count_settle (s : Shared) (ok : Bool) (seq q : ℕ) :
    countOf (s.settle ok seq).2.jobs q = countOf s.jobs q := by
  cases ok with
  | false => rfl
  | true => exact countOf_modify s.jobs seq q

/-- Only a fetch changes the counts. -/
theorem count_exec (x : Choice) (s : Shared) {o : Op} (ho : ∀ n, o ≠ .fetch n) (q : ℕ) :
    countOf (s.exec x o).2.jobs q = countOf s.jobs q := by
  cases o with
  | fetch n => exact absurd rfl (ho n)
  | ack seq | term seq => exact count_settle s x.ok seq q
  | publishDLQ origin m => simp [Shared.exec]
  | _ => rfl

/-- A new message was not delivered yet. -/
theorem count_input (s : Shared) (e : Input) (q : ℕ) :
    countOf (s.input e).1.jobs q = countOf s.jobs q := by
  cases e with
  | store m =>
    simp only [Shared.input, countOf]
    rcases Nat.lt_trichotomy q s.jobs.length with hlt | rfl | hgt
    · rw [List.getElem?_append_left hlt]
    · simp
    · have hlen : (s.jobs ++ [({ msg := m } : Stored)]).length ≤ q := by
        rw [List.length_append, List.length_singleton]
        omega
      rw [List.getElem?_eq_none hlen, List.getElem?_eq_none hgt.le]
  | _ => rfl

section
variable {arch : Platform} {s : State arch} {a : Act}

theorem count_step (s : State arch) (a : Act) (q : ℕ) :
    countOf s.shared.jobs q ≤ countOf (stepWorld arch s a).shared.jobs q := by
  rw [stepWorld]
  refine Machine.shared_step (fun s' : Shared => countOf s.shared.jobs q ≤ countOf s'.jobs q)
    le_rfl ?_ ?_
  · exact fun e _ => (count_input s.shared e q).ge
  · intro i x t o k _ ht hr
    cases o with
    | fetch n => exact count_fetch s.shared x n q
    | _ => exact (count_exec x s.shared (by simp) q).ge

/-- What goroutines got was delivered. -/
theorem delivered_step (hs : Backed Shared.Delivered s) :
    Backed Shared.Delivered (stepWorld arch s a) := by
  refine hs.step ?_ fun _ x _ n _ _ _ _ d hd => delivered_of_fetch hd
  rintro d ⟨md, hmd, hle⟩
  exact ⟨md, hmd, hle.trans (count_step s a d.seq)⟩

end

/-! ## The callbacks -/

/-- While the flag is off, whoever asks for it is told so, and nothing begins. -/
def offline : Contract Shared (Call Op Label) (Call.Res Op.Res Bool) Unit where
  pre _ o := ¬ Begins o
  ans _ _ o r :=
    match o, r with
    | .prim .readEnabled, enabled => enabled = false
    | _, _ => True
  next _ _ _ _ := ()

section
variable {arch : Platform}

/-- A goroutine that another one started is no callback. -/
theorem not_callback_of_fork {t : Thread arch} {l : Label} {k : ℕ → Prog Bool}
    (hr : t.rest = .call (.fork l) k) : l.isCallback = false := by
  have hkind := kind_of_rest hr
  cases l with
  | core m | queue m w | validate m w => simp [users] at hkind
  | _ => rfl

/-- The callbacks that a quiet step starts do not begin as long as the flag is off. -/
theorem offline_of_input {s : State arch} {e : Input} (he : Quiet s (.env e)) {l : Label}
    (hl : l ∈ (s.shared.input e).2) (hcallback : l.isCallback = true) :
    (program arch l).wp offline (fun _ _ => True) () := by
  cases e with
  | store m =>
    by_cases hsub : s.shared.app.sub = true
    · have hno := he hsub
      obtain rfl : l = .core m := by simpa [Shared.input, hsub] using hl
      cases hjob : Job.parse m.data with
      | none => simp [program, jobSubmittedCallback, hjob]
      | some job =>
        have hpass : ¬ CorePasses (m.header.get "X-Delivery-Mode") job.deliveryMode :=
          fun hpass => hno ⟨job, hjob, hpass⟩
        rw [program, callback_eq_ret hjob hpass]
        trivial
    · simp [Shared.input, hsub] at hl
  | queue i m =>
    cases hw : s.shared.app.queueSubs[i]? with
    | none => simp [Shared.input, hw] at hl
    | some w =>
      obtain rfl : l = .queue m w := by simpa [Shared.input, hw] using hl
      have hjob : Job.parse m.data = none := he (by simp [hw])
      simp [program, handleQueueMessage, hjob]
  | validate m =>
    by_cases hsub : s.shared.app.valSub = true
    · obtain rfl : l = .validate m s.shared.app.name := by simpa [Shared.input, hsub] using hl
      rw [program, jobValidateCallback]
      cases Job.parse m.data with
      | none => exact ⟨id, fun _ _ _ => trivial⟩
      | some job =>
        refine ⟨id, fun _ enabled henabled => ?_⟩
        obtain rfl : enabled = false := henabled
        trivial
    · simp [Shared.input, hsub] at hl
  | control a =>
    obtain ⟨i, hi, rfl⟩ := List.mem_mapIdx.mp hl
    cases hcallback
  | _ => cases hl

end

/-! ## The pull loops -/

def Fetches : Call Op Label → Prop
  | .prim (.fetch _) => True
  | _ => False

/-- A pull loop fetches once, and begins only with what it does not discard. -/
def fetching :
    Contract Shared (Call Op Label) (Call.Res Op.Res Bool) (Option (List Delivery)) where
  pre got o := (Fetches o → got = none) ∧ (Begins o → ∃ ds, got = some ds ∧ ¬ Discarded ds)
  ans _ _ _ _ := True
  next got _
    | .prim (.fetch _), f => some f.messages
    | _, _ => got

section
variable {arch : Platform} {got : Option (List Delivery)} {ds : List Delivery}

theorem fetching_of_avoids {p : Prog Bool} (hfetches : p.Avoids fun o => Fetches o ∨ Begins o) :
    p.wp fetching (fun _ _ => True) got := by
  refine Proc.wp_of_avoids (fun _ => True) (fun _ _ _ _ _ _ => trivial) ?_ hfetches
    (fun _ _ _ => trivial) trivial
  intro g o ho _
  exact ⟨fun h => absurd (Or.inl h) ho, fun h => absurd (Or.inr h) ho⟩

theorem fetching_of_batch {p : Prog Bool} (hp : p.Avoids Fetches) (hds : ¬ Discarded ds) :
    p.wp fetching (fun _ _ => True) (some ds) := by
  refine Proc.wp_of_avoids (fun g => g = some ds) ?_ ?_ hp (fun _ _ _ => trivial) rfl
  · intro g c o r ho hg
    simp only [fetching]
    split
    · exact absurd trivial ho
    · exact hg
  · intro g o ho hg
    exact ⟨fun h => absurd h ho, fun _ => ⟨ds, hg, hds⟩⟩

theorem fetching_handleAll (ctx : ℕ) (worker : String) (ds : List Delivery) :
    (handleAll ctx worker ds).wp fetching (fun _ _ => True) got := by
  refine fetching_of_avoids ?_
  induction ds with
  | nil => simp [handleAll, again, Fetches, Begins]
  | cons d ds ih =>
    refine ⟨by simp [Fetches, Begins], fun t => ⟨by simp [Fetches, Begins], fun stop => ?_⟩⟩
    cases stop with
    | true => trivial
    | false => exact ih

theorem fetching_again (ctx : ℕ) (worker : String) :
    (again ctx worker).wp fetching (fun _ _ => True) got :=
  fetching_handleAll ctx worker []

theorem fetching_pullBatch (ctx : ℕ) (worker : String) (once : Bool) :
    (pullBatch ctx worker once).wp fetching (fun _ _ => True) none := by
  simp only [pullBatch, op_eq, Proc.call_bind, Proc.ret_bind, Proc.wp_call]
  refine ⟨⟨fun _ => rfl, fun h => h.elim⟩, fun _ f _ => ?_⟩
  split
  next d1 d2 d3 _ =>
    refine fetching_of_batch ?_ fun h => h.1 rfl
    cases once <;>
      simp [handleOutOfOrderBatch, Handling.recordBatchEvent, Handling.resetIfOnce, again, Fetches]
  next ds _ _ => exact fetching_handleAll ctx worker ds
  next => exact fetching_again ctx worker

theorem fetching_pullOne (ctx : ℕ) (worker : String) :
    (pullOne ctx worker).wp fetching (fun _ _ => True) none := by
  simp only [pullOne, op_eq, Proc.call_bind, Proc.ret_bind, Proc.wp_call]
  refine ⟨⟨fun _ => rfl, fun h => h.elim⟩, fun _ f _ => ?_⟩
  cases f with
  | batch ds => exact fetching_handleAll ctx worker ds
  | timeout => exact fetching_again ctx worker
  | error => exact fetching_of_avoids (by simp [again, Fetches, Begins])

theorem fetching_jsPullLoop (ctx : ℕ) (worker : String) :
    (jsPullLoop ctx worker).wp fetching (fun _ _ => True) none := by
  have hother {o : Call Op Label} (hf : ¬ Fetches o) (hb : ¬ Begins o) : fetching.pre none o :=
    ⟨fun h => absurd h hf, fun h => absurd h hb⟩
  simp only [jsPullLoop, op_eq, Proc.call_bind, Proc.ret_bind, Proc.wp_call]
  refine ⟨hother id id, fun _ done _ => ?_⟩
  cases done with
  | true => trivial
  | false =>
    refine ⟨hother id id, fun _ flags _ => ?_⟩
    by_cases hflags : (flags.1 && flags.2) = true
    · simp only [hflags]
      refine ⟨hother id id, fun _ r _ => ?_⟩
      beta_reduce
      by_cases hvalue : r.1 = "out_of_order_ack"
      · rw [if_pos hvalue]
        exact fetching_pullBatch ctx worker r.2
      · rw [if_neg hvalue]
        exact fetching_pullOne ctx worker
    · simp only [hflags]
      exact fetching_again ctx worker

/-- What is left after a fetch of what is discarded does not begin. -/
theorem avoids_of_discarded {p : Prog Bool} {Q : Bool → Option (List Delivery) → Prop}
    (hp : p.wp fetching Q (some ds)) (hds : Discarded ds) : p.Avoids Begins := by
  induction p with
  | ret b => trivial
  | call o k ih =>
    obtain ⟨⟨hfetches, hbegins⟩, hk⟩ := hp
    constructor
    · intro ho
      obtain ⟨ds', hsome, hno⟩ := hbegins ho
      exact hno (Option.some_inj.mp hsome ▸ hds)
    · intro r
      refine ih r ?_
      have hwp := hk {} r trivial
      simp only [fetching] at hwp
      split at hwp
      · exact absurd (hfetches trivial) (Option.some_ne_none ds)
      · exact hwp

/-- Nothing has begun before the fetch. -/
theorem not_begins_of_after {h : List (Event Shared (Call Op Label) (Call.Res Op.Res Bool))}
    (hobeyed : fetching.Obeyed none h) (hafter : fetching.after none h = none) :
    ∀ e ∈ h, ¬ Begins e.op := by
  induction h using List.reverseRecOn with
  | nil => simp
  | append_singleton h e ih =>
    obtain ⟨hpast, hpre, -⟩ := (meets_append none h [e]).mp hobeyed
    rw [Contract.after_snoc] at hafter
    have hnone : fetching.after none h = none := by
      simp only [Contract.step, fetching] at hafter
      split at hafter
      · cases hafter
      · exact hafter
    intro e' he'
    rcases List.mem_append.mp he' with he' | he'
    · exact ih hpast hnone e' he'
    · obtain rfl := List.mem_singleton.mp he'
      intro hbegins
      obtain ⟨ds, hsome, -⟩ := hpre.2 hbegins
      cases hnone.symm.trans hsome

/-- The goroutine has not begun with a message, and will not. -/
structure Unbegun (t : Thread arch) : Prop where
  hist : ∀ e ∈ t.hist, ¬ Begins e.op
  rest : t.rest.Avoids Begins

section
variable {t : Thread arch}

theorem Unbegun.advance (h : Unbegun t) {o : Call Op Label}
    {k : Call.Res Op.Res Bool o → Prog Bool} (hr : t.rest = .call o k) (c : Shared)
    (r : Call.Res Op.Res Bool o) : Unbegun (t.advance hr c r) := by
  have hrest := h.rest
  rw [hr] at hrest
  refine ⟨fun e he => ?_, hrest.2 r⟩
  rcases List.mem_append.mp he with he | he
  · exact h.hist e he
  · obtain rfl := List.mem_singleton.mp he
    exact hrest.1

theorem unbegun_of_fetch {n : ℕ} {k : Fetched → Prog Bool}
    (hr : t.rest = .call (.prim (.fetch n)) k) (c : Shared) {f : Fetched}
    (hf : Discarded f.messages) : Unbegun (t.advance hr c f) := by
  have hprogram : (program arch t.label).wp fetching (fun _ _ => True) none := by
    have hkind := kind_of_rest hr
    cases hl : t.label with
    | pull ctx worker => exact fetching_jsPullLoop ctx worker
    | _ => simp [hl, Label.kind, users] at hkind
  obtain ⟨hobeyed, hrest⟩ := t.traced.wp hprogram (meets_of_mem (fun _ _ _ => trivial) _)
  rw [hr] at hrest
  refine ⟨fun e he => ?_, avoids_of_discarded (hrest.2 c f trivial) hf⟩
  rcases List.mem_append.mp he with he | he
  · exact not_begins_of_after hobeyed (hrest.1.1 trivial) e he
  · obtain rfl := List.mem_singleton.mp he
    exact id

end

end

/-! ## Runs -/

section
variable {arch : Platform} {s₁ s : State arch} {a : Act}

/-- What lasts from the state `s₁`, with the flag off, through quiet steps. -/
structure Quieted (s₁ s : State arch) : Prop where
  off : s.shared.app.processingEnabled = false
  fetched : Backed (fun _ d => s₁.shared.Delivered d ∨ ∀ w, Handling.ofDelivery d w = none) s
  loops : ∀ (i : ℕ) t d, s.threads[i]? = some t → d ∈ received t → ¬ s₁.shared.Delivered d →
    Unbegun t
  idle : ∀ (i : ℕ) t, s.threads[i]? = some t → s₁.threads.length ≤ i →
    t.label.isCallback = true → (program arch t.label).wp offline (fun _ _ => True) () ∧
      offline.Answered () t.hist

theorem Quieted.step (hs : Quieted s₁ s) (hon : ¬ SwitchesOn a) (ha : Quiet s a) :
    Quieted s₁ (stepWorld arch s a) where
  off := off_step hon hs.off
  fetched := by
    refine hs.fetched.step (fun _ hd => hd) ?_
    rintro i x t n k rfl ht hr d hd
    exact Or.inr ((ha t n k ht hr).2 d hd)
  loops j u d hu hd hnot := by
    cases (Machine.step_spec s a).origin hu with
    | same hu => exact hs.loops j u d hu hd hnot
    | started l _ _ hl =>
      subst hl
      cases hd
    | @prim t o k x hact ht hr hadv =>
      subst hact hadv
      rw [received_advance] at hd
      cases o with
      | fetch n => exact unbegun_of_fetch hr s.shared (ha t n k ht hr)
      | _ => exact (hs.loops j t d ht hd hnot).advance hr _ _
    | @other t o k ht hr ho r hadv =>
      subst hadv
      rw [received_advance] at hd
      cases o with
      | prim p => exact absurd rfl (ho p)
      | _ => exact (hs.loops j t d ht hd hnot).advance hr _ _
  idle j u hu hj hcallback := by
    cases (Machine.step_spec s a).origin hu with
    | same hu => exact hs.idle j u hu hj hcallback
    | started l _ hstarts hl =>
      subst hl
      refine ⟨?_, trivial⟩
      rcases hstarts with ⟨e, he, hl⟩ | ⟨i, t, k, ht, hr⟩
      · subst he
        exact offline_of_input ha hl hcallback
      · exact absurd hcallback (by simp [not_callback_of_fork hr, Machine.Thread.start])
    | @prim t o k x hact ht hr hadv =>
      subst hadv
      obtain ⟨hwp, hans⟩ := hs.idle j t ht hj hcallback
      refine ⟨hwp, (meets_append _ _ _).mpr ⟨hans, ?_, trivial⟩⟩
      cases o with
      | readEnabled => exact hs.off
      | _ => trivial
    | @other t o k ht hr ho r hadv =>
      subst hadv
      obtain ⟨hwp, hans⟩ := hs.idle j t ht hj hcallback
      refine ⟨hwp, (meets_append _ _ _).mpr ⟨hans, ?_, trivial⟩⟩
      cases o with
      | prim p => exact absurd rfl (ho p)
      | _ => trivial

theorem Quieted.silent (hs : Quieted s₁ s) : Silent s₁ s where
  callbacks i t ht hi hcallback e he := by
    obtain ⟨hwp, hans⟩ := hs.idle i t ht hi hcallback
    obtain ⟨g, hg⟩ := (t.traced.wp hwp hans).1.of_mem he
    exact hg
  deliveries i t d ht hd hnot e he := by
    rcases hd with hd | ⟨w, hw⟩
    · exact (hs.loops i t d ht hd hnot).hist e he
    · have hnone := (hs.fetched.handled i t d w ht hw).resolve_left hnot w
      have havoids : (program arch t.label).Avoids Begins := by
        simp [hw, program, handleJetStreamMsg, hnone, Begins]
      exact t.traced.not_mem havoids e he

/-- **When OFF means off.**  After a request that switches the processor off, and up to
the next that switches it on, nothing begins to be processed in a run whose steps bring
no message to the paths that do not look at the flag. -/
theorem silent_of_quiet (arch : Platform) {as off bs : List Act} {r : SwitchOff}
    (hoff : r.request.acts.Sublist off) (hon : ∀ a ∈ off ++ bs, ¬ SwitchesOn a)
    (hquiet : Meets (stepWorld arch) Quiet
      (run (stepWorld arch) (State.empty arch) (as ++ off)) bs) :
    Throughout (stepWorld arch) (Silent (run (stepWorld arch) (State.empty arch) (as ++ off)))
      (run (stepWorld arch) (State.empty arch) (as ++ off)) bs := by
  have hoff' : (run (stepWorld arch) (State.empty arch) (as ++ off)).shared.app.processingEnabled =
      false := by
    rw [run_append]
    exact off_of_switchOff hoff fun a ha => hon a (List.mem_append_left _ ha)
  have hdelivered : Backed Shared.Delivered
      (run (stepWorld arch) (State.empty arch) (as ++ off)) :=
    run_inv_all _ (fun _ _ hs => delivered_step hs) (as ++ off) (.empty _)
  generalize run (stepWorld arch) (State.empty arch) (as ++ off) = s₁ at hoff' hdelivered hquiet ⊢
  have hall : Meets (stepWorld arch) (fun _ a => ¬ SwitchesOn a) s₁ bs :=
    meets_of_mem (fun a ha _ => hon a (List.mem_append_right _ ha)) s₁
  refine throughout_of_inv (Quieted s₁) (fun s hs => hs.silent)
    (fun s a hs ha => hs.step ha.1 ha.2) ?_ (meets_and.mpr ⟨hall, hquiet⟩)
  refine ⟨hoff', ⟨?_, ?_⟩, ?_, ?_⟩
  · exact fun i t d ht hd => Or.inl (hdelivered.received i t d ht hd)
  · exact fun i t d w ht hw => Or.inl (hdelivered.handled i t d w ht hw)
  · exact fun i t d ht hd hnot => absurd (hdelivered.received i t d ht hd) hnot
  · intro i t ht hi
    exact absurd (List.getElem?_eq_some_iff.mp ht).1 (Nat.not_lt.mpr hi)

end

/-- A message whose body is no job. -/
def brokenMsg : Msg where
  subject := subjectJobSubmitted
  header := [("X-Delivery-Mode", ["JETSTREAM"])]

/-- A pull loop has read the flag, and the scenario. -/
def flagRead : List Act := startAll ++ calls 0 3

/-- After the OFF a broken message is stored and a validation is asked for; the pull loop that had
read the flag fetches the message and passes it on, and all three goroutines take it from there. -/
def lateFetch : List Act :=
  [.env (.store brokenMsg), .env (.validate (jetStreamMsg "j1" [])), .op 0 { picks := [0] }] ++
    calls 0 1 ++ calls 3 1 ++ calls 2 1

theorem silent_lateFetch :
    Throughout (stepWorld .amd64)
      (Silent (run (stepWorld .amd64) (State.empty .amd64)
        (flagRead ++ SwitchOff.http.request.acts)))
      (run (stepWorld .amd64) (State.empty .amd64) (flagRead ++ SwitchOff.http.request.acts))
      lateFetch := by
  refine silent_of_quiet .amd64 (List.Sublist.refl _) ?_ ?_
  · simp [SwitchesOn, SwitchOff.request, Request.acts, Request.sections, lateFetch, calls]
  refine ⟨?_, trivial, ?_, ?_, ?_, ?_, trivial⟩
  · rintro - ⟨job, hjob, -⟩
    cases hjob
  · intro t n k ht hr
    cases ht
    cases hr
    refine ⟨by decide, ?_⟩
    intro d hd w
    obtain rfl := List.mem_singleton.mp hd
    rfl
  all_goals
    intro t n k ht hr
    cases ht
    cases hr

/-- A job for the Core engine. -/
def coreMsg (jobID : String) : Msg where
  subject := subjectJobSubmitted
  header := [("X-Delivery-Mode", ["CORE"])]
  data := some (.obj [("job_id", .str jobID), ("delivery_mode", .str "CORE")])

/-- After an OFF over HTTP the Core subscription still takes a job and begins with it. -/
theorem not_offMeansOff : ¬ OffMeansOff .amd64 := by
  intro h
  let bs : List Act := .env (.store (coreMsg "j1")) :: calls 1 5
  have hsilent := h startAll SwitchOff.http.request.acts bs .http (List.Sublist.refl _)
    (by simp [bs, SwitchesOn, SwitchOff.request, Request.acts, Request.sections, calls])
  have hbegun : ∃ t : Thread .amd64, (run (stepWorld .amd64) (State.empty .amd64)
      (startAll ++ SwitchOff.http.request.acts ++ bs)).threads[1]? = some t ∧
      t.label.isCallback = true ∧ ∃ e ∈ t.hist, Begins e.op :=
    ⟨_, rfl, rfl, _, List.mem_of_getElem? (i := 4) rfl, Or.inl rfl⟩
  obtain ⟨t, ht, hcallback, e, he, hbegins⟩ := hbegun
  exact hsilent.callbacks 1 t ht (by decide) hcallback e he hbegins

end NatsDemo.Processor
