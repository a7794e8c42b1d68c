import NatsDemo.Processor.DeadLetter
import NatsDemo.Processor.Genuine

/-!
# Distinct dead letters

The stream JOBS_DLQ suppresses a dead letter whose identifier it has seen within its
window.  The identifier is made of the job's identifier and the number of the attempt, so
the dead letters of two messages stay apart where no two of them share both.
-/

namespace NatsDemo.Processor
open Lib Go Jobs Messaging

/-- The payload that a dead letter carries. -/
def entryPayload (m : Msg) : Option Json :=
  match m.data with
  | some (.obj fields) => fields.lookup "payload"
  | _ => none

/-- A record of JOBS_DLQ stems from the message of a handling, and has its payload. -/
def EntryOf (h : Handling) (r : Record String DeadLetter) : Prop :=
  r.deleted = false ∧ r.body.origin = h.d.seq ∧
    entryPayload r.body.msg = some (marshalMap h.job.payload)

theorem entryPayload_dlqMsg (arch : Platform) (h : Handling) (now : Time) :
    entryPayload (h.dlqMsg arch now) = some (marshalMap h.job.payload) := by
  simp [entryPayload, Handling.dlqMsg, List.lookup_cons]

theorem msgID_dlqMsg (arch : Platform) (h : Handling) (now : Time) :
    (h.dlqMsg arch now).msgID = some (Handling.dlqMsgId h.job.jobID h.attemptCount) := by
  have hget : (h.dlqMsg arch now).header.get "Nats-Msg-Id" =
      Handling.dlqMsgId h.job.jobID h.attemptCount := by simp [Handling.dlqMsg]
  have hne : Handling.dlqMsgId h.job.jobID h.attemptCount ≠ "" := by
    simp [Handling.dlqMsgId]
  rw [Msg.msgID, hget, if_neg hne]

/-- The identifier tells the job and the attempt. -/
theorem dlqMsgId_inj {jobID jobID' : String} {n n' : ℕ}
    (h : Handling.dlqMsgId jobID n = Handling.dlqMsgId jobID' n') : jobID = jobID' ∧ n = n' := by
  obtain ⟨hid, hn⟩ := dash_toString_inj (x := "dlq-" ++ jobID) (y := "dlq-" ++ jobID') h
  exact ⟨by simpa using hid, hn⟩

/-- Two handlings of one message have one job. -/
theorem job_of_handling {l : Label} {h : Handling} (hh : l.handling = some h) :
    ∃ w, l = .handle h.d w ∧ Job.parse h.d.msg.data = some h.job := by
  cases l with
  | handle d worker =>
    have hh' : Handling.ofDelivery d worker = some h := hh
    rw [Handling.ofDelivery] at hh'
    cases hjob : Job.parse d.msg.data with
    | none => simp [hjob] at hh'
    | some job =>
      simp only [hjob] at hh'
      split_ifs at hh' with hcore
      obtain rfl := Option.some_inj.mp hh'
      exact ⟨worker, rfl, hjob⟩
  | _ => exact absurd hh (by simp [Label.handling])

section
variable {arch : Platform}

def Entered (s : Shared) (h : Handling) : Prop := ∃ r ∈ s.dlq.records, EntryOf h r

/-- Two messages acknowledged as exhausted within one window have left two entries. -/
def DistinctEntries (s : State arch) : Prop :=
  ∀ (i j : ℕ) t u h h' τ τ', s.threads[i]? = some t → s.threads[j]? = some u →
    t.label.handling = some h → u.label.handling = some h' → h.d.seq ≠ h'.d.seq →
    Routed arch h (seen t) → Routed arch h' (seen u) →
    (seen t).acked = some τ → (seen u).acked = some τ' →
    τ < τ' + s.shared.dlq.window → τ' < τ + s.shared.dlq.window →
    ∃ r ∈ s.shared.dlq.records, ∃ r' ∈ s.shared.dlq.records, EntryOf h r ∧ EntryOf h' r' ∧ r ≠ r'

/-- Where a dead letter is published, no other message was dead-lettered within the
window under the same job identifier and at the same attempt. -/
def KeyFree (s : State arch) : Act → Prop
  | .env _ => True
  | .op i _ => ∀ t h origin m k, s.threads[i]? = some t → t.label.handling = some h →
      t.rest = .call (.prim (.publishDLQ origin m)) k →
      ∀ (j : ℕ) u h' τ m', s.threads[j]? = some u → u.label.handling = some h' →
        (seen u).published = some (τ, m') → s.shared.clock < τ + s.shared.dlq.window →
        h'.job.jobID = h.job.jobID → h'.attemptCount = h.attemptCount → h'.d.seq = h.d.seq

/-- Every entry stems from a publish, and every publish has left an entry. -/
structure Exact (s : State arch) : Prop where
  answered : AllAnswered s
  genuine : Genuine s
  recorded : ∀ r ∈ s.shared.dlq.records, r.deleted = false ∧
    ∃ (i : ℕ) (t : Thread arch) (h : Handling) (now : Time),
    s.threads[i]? = some t ∧ t.label.handling = some h ∧
    (seen t).published = some (r.time, h.dlqMsg arch now) ∧
    r.id = some (Handling.dlqMsgId h.job.jobID h.attemptCount) ∧
    r.body = ⟨h.d.seq, h.dlqMsg arch now⟩
  entered : ∀ (i : ℕ) t h p, s.threads[i]? = some t → t.label.handling = some h →
    (seen t).published = some p → Entered s.shared h

/-! ## What a step does to the dead letters -/

theorem note_published {g : Seen} {o : Call Op Label}
    (ho : ∀ origin m, o ≠ .prim (.publishDLQ origin m)) (c : Shared) (r : Call.Res Op.Res Bool o) :
    (note g c o r).published = g.published := by
  simp only [note]
  split
  case h_4 => exact absurd rfl (ho _ _)
  all_goals rfl

/-- No dead letter is published. -/
structure SamePublications (s s' : State arch) : Prop where
  dlq : s'.shared.dlq = s.shared.dlq
  back : ∀ (j : ℕ) u, s'.threads[j]? = some u →
    (s.threads[j]? = none ∧ (seen u).published = none) ∨
    ∃ t, s.threads[j]? = some t ∧ u.label = t.label ∧ (seen u).published = (seen t).published
  kept : ∀ (j : ℕ) t, s.threads[j]? = some t → ∃ u, s'.threads[j]? = some u

theorem SamePublications.forth {s s' : State arch} (hs : SamePublications s s') {j : ℕ}
    {t : Thread arch} (ht : s.threads[j]? = some t) : ∃ u, s'.threads[j]? = some u ∧
      u.label = t.label ∧ (seen u).published = (seen t).published := by
  obtain ⟨u, hu⟩ := hs.kept j t ht
  rcases hs.back j u hu with ⟨hnone, -⟩ | ⟨t', ht', hlabel, hpublished⟩
  · cases ht.symm.trans hnone
  · cases ht.symm.trans ht'
    exact ⟨u, hu, hlabel, hpublished⟩

theorem samePublications_of_step {s s' : State arch} {a : Act} (h : Machine.Step s a s')
    (hdlq : s'.shared.dlq = s.shared.dlq)
    (hno : ∀ (i : ℕ) x t o k, a = .op i x → s.threads[i]? = some t →
      t.rest = .call (.prim o) k → ∀ origin m, o ≠ .publishDLQ origin m) :
    SamePublications s s' where
  dlq := hdlq
  back j u hu := by
    cases h.origin hu with
    | same hu => exact Or.inr ⟨u, hu, rfl, rfl⟩
    | started l hnone _ hl =>
      subst hl
      exact Or.inl ⟨hnone, rfl⟩
    | @prim t o k x hact ht hr hadv =>
      subst hadv
      have hsame := note_published (g := seen t) (o := .prim o)
        (by simpa using hno j x t o k hact ht hr) s.shared ((world arch).exec o x s.shared).1
      exact Or.inr ⟨t, ht, rfl, (congrArg Seen.published (seen_advance hr _ _)).trans hsame⟩
    | @other t o k ht hr ho r hadv =>
      subst hadv
      have hsame := note_published (g := seen t) (fun origin m => ho _) s.shared r
      exact Or.inr ⟨t, ht, rfl, (congrArg Seen.published (seen_advance hr _ _)).trans hsame⟩
  kept j t ht := h.kept ht

theorem dlq_exec (x : Choice) (s : Shared) {o : Op} (ho : ∀ origin m, o ≠ .publishDLQ origin m) :
    (s.exec x o).2.dlq = s.dlq := by
  cases o with
  | publishDLQ origin m => exact absurd rfl (ho origin m)
  | fetch n => exact s.dlq_fetch x n
  | ack seq | term seq => exact s.dlq_settle x.ok seq
  | _ => rfl

theorem dlq_input (s : Shared) (e : Input) : (s.input e).1.dlq = s.dlq := by
  cases e <;> rfl

/-- A step publishes no dead letter, or it is a publish. -/
inductive Publication (s : State arch) (a : Act) (s' : State arch) : Prop
  | none (h : SamePublications s s')
  | publish {i : ℕ} {t : Thread arch} {origin : ℕ} {m : Msg} {k : Bool → Prog Bool} (x : Choice)
      (ha : a = .op i x) (ht : s.threads[i]? = some t)
      (hr : t.rest = .call (.prim (.publishDLQ origin m)) k)
      (hs' : s' = ⟨(s.shared.publishDLQ x.ok origin m).2,
        s.threads.set i (t.advance hr s.shared x.ok)⟩)

theorem publication (s : State arch) (a : Act) : Publication s a (stepWorld arch s a) := by
  have h := Machine.step_spec s a
  rw [stepWorld]
  generalize hs' : Machine.step s a = s' at h
  cases a with
  | env e =>
    refine .none (samePublications_of_step h ?_ (by simp))
    cases h with
    | idle => rfl
    | env e => exact dlq_input s.shared e
  | op i x =>
    by_cases hpub : ∃ (t : Thread arch) (origin : ℕ) (m : Msg) (k : Bool → Prog Bool),
        s.threads[i]? = some t ∧ t.rest = .call (.prim (.publishDLQ origin m)) k
    · obtain ⟨t, origin, m, k, ht, hr⟩ := hpub
      exact .publish x rfl ht hr (hs'.symm.trans (Machine.step_prim x ht hr))
    · refine .none (samePublications_of_step h ?_ ?_)
      · cases h with
        | @prim i t o k x ht hr =>
          refine dlq_exec x s.shared fun origin m ho => ?_
          subst ho
          exact hpub ⟨t, origin, m, k, ht, hr⟩
        | _ => rfl
      · intro i' x' t o k hact ht hr origin m ho
        cases hact
        subst ho
        exact hpub ⟨t, origin, m, k, ht, hr⟩

/-! ## One step -/

/-- A dead letter that is suppressed has an entry all the same, where the key is free. -/
theorem Exact.entered_of_duplicate {s : State arch} (hs : Exact s) {i : ℕ} {t : Thread arch}
    {h : Handling} (ht : s.threads[i]? = some t) (hh : t.label.handling = some h)
    (hfree : ∀ (j : ℕ) u h' τ m', s.threads[j]? = some u → u.label.handling = some h' →
      (seen u).published = some (τ, m') → s.shared.clock < τ + s.shared.dlq.window →
      h'.job.jobID = h.job.jobID → h'.attemptCount = h.attemptCount → h'.d.seq = h.d.seq)
    (hdup : s.shared.dlq.Duplicate s.shared.clock
      (some (Handling.dlqMsgId h.job.jobID h.attemptCount))) : Entered s.shared h := by
  obtain ⟨-, r, hr, hid, htime⟩ := hdup
  obtain ⟨hdeleted, j, u, h', now, hu, hh', hpublished, hid', hbody⟩ := hs.recorded r hr
  obtain ⟨hjobID, hattempt⟩ := dlqMsgId_inj (Option.some_inj.mp (hid'.symm.trans hid))
  have hseq := hfree j u h' r.time _ hu hh' hpublished htime hjobID hattempt
  obtain ⟨w, hl, hjob⟩ := job_of_handling hh
  obtain ⟨w', hl', hjob'⟩ := job_of_handling hh'
  have hmsg := hs.genuine.msg_eq hu ht hl' hl hseq
  have hjobs : h'.job = h.job := Option.some_inj.mp (hjob'.symm.trans (hmsg ▸ hjob))
  refine ⟨r, hr, hdeleted, by rw [hbody]; exact hseq, ?_⟩
  rw [hbody, entryPayload_dlqMsg, hjobs]

/-- The publish of a dead letter: the log after it, and the goroutine that published. -/
structure Exact.Publish (s s' : State arch) (i : ℕ) (h : Handling) (now : Time) : Prop where
  dlq : s'.shared.dlq = s.shared.dlq.publish s.shared.clock
    (some (Handling.dlqMsgId h.job.jobID h.attemptCount)) ⟨h.d.seq, h.dlqMsg arch now⟩
  entered : Entered s'.shared h
  new : ∃ u, s'.threads[i]? = some u ∧ u.label.handling = some h ∧
    (seen u).published = some (s.shared.clock, h.dlqMsg arch now)
  old : ∀ (j : ℕ) t p, s.threads[j]? = some t → (seen t).published = some p →
    s'.threads[j]? = some t
  back : ∀ (j : ℕ) u, s'.threads[j]? = some u → s.threads[j]? = some u ∨
    u.label.handling = some h

theorem Exact.publish {s : State arch} (hs : Exact s) {i : ℕ} {x : Choice} {t : Thread arch}
    {origin : ℕ} {m : Msg} {k : Bool → Prog Bool} (hok : PublishSucceeds s (.op i x))
    (ha : KeyFree s (.op i x)) (ht : s.threads[i]? = some t)
    (hr : t.rest = .call (.prim (.publishDLQ origin m)) k) :
    ∃ h now, Exact.Publish s ⟨(s.shared.publishDLQ x.ok origin m).2,
      s.threads.set i (t.advance hr s.shared x.ok)⟩ i h now := by
  obtain ⟨h, hh⟩ := handling_of_publish hr
  obtain ⟨rfl, hnone, now, rfl⟩ := hs.answered.of_publish ht hh hr
  have hi : i < s.threads.length := (List.getElem?_eq_some_iff.mp ht).1
  have htrue : x.ok = true := hok t _ _ k ht hr
  have hdlq : (s.shared.publishDLQ x.ok h.d.seq (h.dlqMsg arch now)).2.dlq =
      s.shared.dlq.publish s.shared.clock
        (some (Handling.dlqMsgId h.job.jobID h.attemptCount)) ⟨h.d.seq, h.dlqMsg arch now⟩ := by
    simp only [Shared.publishDLQ, htrue, msgID_dlqMsg, if_true]
  refine ⟨h, now, hdlq, ?_, ?_, ?_, ?_⟩
  · by_cases hdup : s.shared.dlq.Duplicate s.shared.clock
        (some (Handling.dlqMsgId h.job.jobID h.attemptCount))
    · obtain ⟨r, hr, hentry⟩ := hs.entered_of_duplicate ht hh
        (fun j u h' τ m' => ha t h _ _ k ht hh hr j u h' τ m') hdup
      exact ⟨r, hdlq ▸ Log.mem_publish_of_mem hr _ _ _, hentry⟩
    · refine ⟨⟨some (Handling.dlqMsgId h.job.jobID h.attemptCount), s.shared.clock,
        ⟨h.d.seq, h.dlqMsg arch now⟩, false⟩, ?_, rfl, rfl, entryPayload_dlqMsg arch h now⟩
      show _ ∈ (s.shared.publishDLQ x.ok h.d.seq (h.dlqMsg arch now)).2.dlq.records
      rw [hdlq, Log.publish_of_not_duplicate hdup]
      exact List.mem_append_right _ List.mem_cons_self
  · refine ⟨t.advance hr s.shared x.ok, by simp [hi], hh, ?_⟩
    rw [seen_advance]
    simp [note, htrue]
  · intro j u p hu hp
    have hne : i ≠ j := by
      rintro rfl
      cases ht.symm.trans hu
      cases hnone.symm.trans hp
    simpa [hne] using hu
  · intro j u hu
    rcases Machine.getElem?_set_cases hu with hu | ⟨-, rfl⟩
    · exact Or.inl hu
    · exact Or.inr hh

theorem Exact.step {s : State arch} {a : Act} (hs : Exact s) (hok : PublishSucceeds s a)
    (ha : KeyFree s a) : Exact (stepWorld arch s a) := by
  refine ⟨hs.answered.step hok, hs.genuine.step, ?_, ?_⟩
  · intro r hr
    cases publication s a with
    | none h =>
      rw [h.dlq] at hr
      obtain ⟨hdeleted, i, t, hd, now, ht, hh, hpublished, hid, hbody⟩ := hs.recorded r hr
      obtain ⟨u, hu, hlabel, hsame⟩ := h.forth ht
      exact ⟨hdeleted, i, u, hd, now, hu, hlabel ▸ hh, hsame.trans hpublished, hid, hbody⟩
    | @publish i t origin m k x hact ht hrest hs' =>
      subst hact
      obtain ⟨h, now, hpub⟩ := hs.publish hok ha ht hrest
      rw [← hs'] at hpub
      rw [hpub.dlq] at hr
      rcases Log.mem_publish_cases hr with hr | ⟨-, rfl⟩
      · obtain ⟨hdeleted, j, u, hd, now, hu, hh, hpublished, hid, hbody⟩ := hs.recorded r hr
        exact ⟨hdeleted, j, u, hd, now, hpub.old j u _ hu hpublished, hh, hpublished, hid, hbody⟩
      · obtain ⟨u, hu, hh, hpublished⟩ := hpub.new
        exact ⟨rfl, i, u, h, now, hu, hh, hpublished, rfl, rfl⟩
  · intro j u hd p hu hh hp
    cases publication s a with
    | none h =>
      rcases h.back j u hu with ⟨-, hnone⟩ | ⟨t, ht, hlabel, hsame⟩
      · cases hnone.symm.trans hp
      · have hentered := hs.entered j t hd p ht (hlabel ▸ hh) (hsame ▸ hp)
        rwa [Entered, ← h.dlq] at hentered
    | @publish i t origin m k x hact ht hrest hs' =>
      subst hact
      obtain ⟨h, now, hpub⟩ := hs.publish hok ha ht hrest
      rw [← hs'] at hpub
      rcases hpub.back j u hu with hu | hh'
      · obtain ⟨r, hr, hentry⟩ := hs.entered j u hd p hu hh hp
        exact ⟨r, hpub.dlq ▸ Log.mem_publish_of_mem hr _ _ _, hentry⟩
      · cases hh.symm.trans hh'
        exact hpub.entered

/-! ## Runs -/

theorem Exact.distinctEntries {s : State arch} (hs : Exact s) : DistinctEntries s := by
  intro i j t u h h' τ τ' ht hu hh hh' hseq hrouted hrouted' hacked hacked' _ _
  have hentered (i : ℕ) (t : Thread arch) (h : Handling) (τ : Time) (ht : s.threads[i]? = some t)
      (hh : t.label.handling = some h) (hrouted : Routed arch h (seen t))
      (hacked : (seen t).acked = some τ) : Entered s.shared h := by
    obtain ⟨τp, now, hp, -⟩ := hs.answered.nothingLost i t h ht hh (by simp [hacked]) hrouted
    exact hs.entered i t h _ ht hh hp
  obtain ⟨r, hr, hentry⟩ := hentered i t h τ ht hh hrouted hacked
  obtain ⟨r', hr', hentry'⟩ := hentered j u h' τ' hu hh' hrouted' hacked'
  refine ⟨r, hr, r', hr', hentry, hentry', ?_⟩
  rintro rfl
  exact hseq (hentry.2.1.symm.trans hentry'.2.1)

/-- **When distinct messages get distinct dead letters.**  In a run in which the publishes
succeed, and no dead letter is published under a key that another message used within the
window, two messages acknowledged as exhausted have left an entry each. -/
theorem distinctEntries_of_keyFree (arch : Platform) {as : List Act}
    (hok : Meets (stepWorld arch) PublishSucceeds (State.empty arch) as)
    (hfree : Meets (stepWorld arch) KeyFree (State.empty arch) as) :
    Throughout (stepWorld arch) DistinctEntries (State.empty arch) as := by
  refine throughout_of_inv Exact (fun _ hs => hs.distinctEntries)
    (fun _ _ hs ha => hs.step ha.1 ha.2) ?_ (meets_and.mpr ⟨hok, hfree⟩)
  exact ⟨fun i t h ht => by simp [State.empty] at ht, Backed.empty _,
    fun r hr => by simp [State.empty] at hr, fun i t h p ht => by simp [State.empty] at ht⟩

/-- No two messages of the stream have the same job identifier. -/
def DistinctJobs (ms : List Msg) : Prop :=
  ∀ (p q : ℕ) m m' job job', ms[p]? = some m → ms[q]? = some m' →
    Job.parse m.data = some job → Job.parse m'.data = some job' → job.jobID = job'.jobID → p = q

theorem DistinctJobs.of_grown {ms ms' : List Msg} (h : DistinctJobs ms') (hp : ms <+: ms') :
    DistinctJobs ms := by
  obtain ⟨rest, rfl⟩ := hp
  intro p q m m' job job' hm hm'
  have hlt (i : ℕ) (x : Msg) (hx : ms[i]? = some x) : (ms ++ rest)[i]? = some x := by
    rwa [List.getElem?_append_left (List.getElem?_eq_some_iff.mp hx).1]
  exact h p q m m' job job' (hlt p m hm) (hlt q m' hm')

theorem keyFree_of_genuine {s : State arch} (hs : Genuine s) (hjobs : DistinctJobs s.shared.msgs)
    (a : Act) : KeyFree s a := by
  cases a with
  | env e => trivial
  | op i x =>
    intro t h origin m k ht hh _ j u h' τ m' hu hh' _ _ hid _
    obtain ⟨w, hl, hjob⟩ := job_of_handling hh
    obtain ⟨w', hl', hjob'⟩ := job_of_handling hh'
    exact hjobs _ _ _ _ _ _ (hs.handled j u _ w' hu hl') (hs.handled i t _ w ht hl) hjob' hjob hid

/-- Keys stay free where every job has an identifier of its own. -/
theorem keyFree_of_distinctJobs (as : List Act) {s : State arch} (hs : Genuine s)
    (hjobs : DistinctJobs (run (stepWorld arch) s as).shared.msgs) :
    Meets (stepWorld arch) KeyFree s as := by
  induction as generalizing s with
  | nil => trivial
  | cons a as ih =>
    have hgrown : s.shared.msgs <+: (run (stepWorld arch) s (a :: as)).shared.msgs :=
      run_inv_all (fun s' : State arch => s.shared.msgs <+: s'.shared.msgs)
        (fun s' b h => h.trans (msgs_step s' b)) (a :: as) List.prefix_rfl
    exact ⟨keyFree_of_genuine hs (hjobs.of_grown hgrown) a, ih hs.step hjobs⟩

end

/-- Two jobs that fail on all of their three attempts, one after the other. -/
def twoFailures (jobID jobID' : String) : List Act :=
  startUp ++ [.env (.store (failingMsg jobID [("text", .str "first")])),
    .env (.store (failingMsg jobID' [("text", .str "second")]))] ++
  failedAttempt 0 3 0 ++ failedAttempt 4 5 0 ++ pulling 6 0 ++ calls 7 9 ++ calls 6 2 ++
  failedAttempt 8 9 1 ++ failedAttempt 10 11 1 ++ pulling 12 1 ++ calls 13 9

theorem distinctJobs_pair {m m' : Msg} {jobID jobID' : String} (hne : jobID ≠ jobID')
    (h : (Job.parse m.data).map Job.jobID = some jobID)
    (h' : (Job.parse m'.data).map Job.jobID = some jobID') : DistinctJobs [m, m'] := by
  intro p q n n' job job' hp hq hjob hjob' hid
  have hlt {i : ℕ} {x : Msg} (hx : [m, m'][i]? = some x) : i = 0 ∨ i = 1 := by
    have := (List.getElem?_eq_some_iff.mp hx).1
    simp only [List.length_cons, List.length_nil] at this
    omega
  rcases hlt hp with rfl | rfl <;> rcases hlt hq with rfl | rfl
  · rfl
  · cases hp
    cases hq
    simp only [hjob, hjob', Option.map_some, Option.some_inj] at h h'
    exact absurd (h.symm.trans (hid.trans h')) hne
  · cases hp
    cases hq
    simp only [hjob, hjob', Option.map_some, Option.some_inj] at h h'
    exact absurd (h.symm.trans (hid.symm.trans h')) hne
  · rfl

set_option maxRecDepth 8000 in
theorem distinctEntries_two_jobs :
    Throughout (stepWorld .amd64) DistinctEntries (State.empty .amd64) (twoFailures "j1" "j2") := by
  have hall : ∀ a ∈ twoFailures "j1" "j2", succeeds a = true := by decide
  have hok : Meets (stepWorld .amd64) PublishSucceeds (State.empty .amd64)
      (twoFailures "j1" "j2") :=
    meets_of_mem (fun a ha s => publishSucceeds_of_succeeds (hall a ha) s) _
  have hmsgs : (run (stepWorld .amd64) (State.empty .amd64) (twoFailures "j1" "j2")).shared.msgs =
    [failingMsg "j1" [("text", .str "first")], failingMsg "j2" [("text", .str "second")]] := rfl
  refine distinctEntries_of_keyFree .amd64 hok (keyFree_of_distinctJobs _ (Backed.empty _) ?_)
  rw [hmsgs]
  exact distinctJobs_pair (by decide : ("j1" : String) ≠ "j2") rfl rfl

set_option maxRecDepth 8000 in
/-- Two messages share a job identifier: the second dead letter is suppressed. -/
theorem not_distinctEntries_same_id :
    ¬ DistinctEntries (run (stepWorld .amd64) (State.empty .amd64) (twoFailures "j1" "j1")) := by
  have hlength : (run (stepWorld .amd64) (State.empty .amd64)
      (twoFailures "j1" "j1")).shared.dlq.records.length = 1 := by decide +kernel
  obtain ⟨entry, hentry⟩ := List.length_eq_one_iff.mp hlength
  have hnot (b : Branch) : Handling.branchOf "normal" 3 ≠ some b := by cases b <;> decide
  intro h
  have hpair := fun hd hd' => h 7 13 _ _ hd hd' 0 0 rfl rfl
  obtain ⟨r, hr, r', hr', -, -, hne⟩ := hpair _ _ rfl rfl (by decide)
    ⟨by decide, ⟨0, "normal", true⟩, rfl, hnot⟩ ⟨by decide, ⟨0, "normal", true⟩, rfl, hnot⟩
    rfl rfl (by decide) (by decide)
  rw [hentry] at hr hr'
  exact hne ((List.mem_singleton.mp hr).trans (List.mem_singleton.mp hr').symm)

end NatsDemo.Processor
