import NatsDemo.Control.AtMostOnce
import NatsDemo.Control.Preserve
import NatsDemo.Processor.Config
import NatsDemo.Processor.Disposal
import NatsDemo.Processor.Routing

/-!
# Dead letters can be recovered

The way of a failed job through three programs: a worker writes it to the dead letter
queue, the control service repairs it, and a worker handles it anew.  The repair takes
away the failure that brought the job there, and none of its other knobs can bring it
back: a payload that demanded termination would have been terminated before.
-/

namespace NatsDemo.Control
open Lib Go Jobs Messaging

/-! ## What the knobs say -/

/-- What `.(bool)` and `.(string)` find in a value, by the way it is written. -/
def asFlag : Json → Bool
  | .bool b => b
  | _ => false

def asText : Json → String
  | .str s => s
  | _ => ""

theorem flag_eq (p : Payload) (key : String) :
    p.flag key = ((p.entry key).map Value.toJson).elim false asFlag := by
  rw [Payload.flag]
  cases p.entry key with
  | none => rfl
  | some v =>
    cases v with
    | float q =>
      show false = asFlag (Json.ofFloat q)
      rw [Json.ofFloat]
      split_ifs <;> rfl
    | _ => rfl

theorem text_eq (p : Payload) (key : String) :
    p.text key = ((p.entry key).map Value.toJson).elim "" asText := by
  rw [Payload.text]
  cases p.entry key with
  | none => rfl
  | some v =>
    cases v with
    | float q =>
      show "" = asText (Json.ofFloat q)
      rw [Json.ofFloat]
      split_ifs <;> rfl
    | _ => rfl

namespace Repaired
variable {p q : Payload}

theorem flag (h : Repaired p q) {k : String} (hk : k ∉ ["simulate_failure",
    "simulate_failure_count", "reprocessed_at", "recovered_from_dlq"]) :
    q.flag k = p.flag k := by
  rw [flag_eq, flag_eq, h.kept k hk]

theorem text (h : Repaired p q) {k : String} (hk : k ∉ ["simulate_failure",
    "simulate_failure_count", "reprocessed_at", "recovered_from_dlq"]) :
    q.text k = p.text k := by
  rw [text_eq, text_eq, h.kept k hk]

/-- The repair leaves the scenario alone that a payload asks for. -/
theorem overrideScenario (h : Repaired p q) (value : String) :
    Processor.Handling.overrideScenario q value = Processor.Handling.overrideScenario p value := by
  simp only [Processor.Handling.overrideScenario]
  rw [h.text (k := "scenario") (by decide), h.flag (k := "simulate_crash") (by decide),
    h.flag (k := "simulate_no_ack") (by decide), h.flag (k := "simulate_nak") (by decide),
    h.flag (k := "simulate_term") (by decide), h.flag (k := "simulate_out_of_order") (by decide)]

theorem not_failureFires (h : Repaired p q) (arch : Platform) (n : ℕ) :
    ¬ Processor.Handling.failureFires arch q n := by
  intro hfires
  have hflag : q.flag "simulate_failure" = false := by
    rw [flag_eq, h.cleared.1]
    rfl
  exact absurd hfires.1 (by rw [hflag]; exact Bool.false_ne_true)

end Repaired

/-- A payload that names a scenario does not care for the setting. -/
theorem overrideScenario_of_overrides {p : Payload} (h : Processor.Overrides p) (v v' : String) :
    Processor.Handling.overrideScenario p v = Processor.Handling.overrideScenario p v' := by
  simp only [Processor.Handling.overrideScenario]
  rcases h with htext | hflag | hflag | hflag | hflag | hflag
  · simp only [if_neg htext]
  all_goals simp only [hflag, if_true]

/-- Under a normal setting no payload demands termination that did not before. -/
theorem overrideScenario_ne_term {p : Payload} {value : String} {n : ℕ}
    (hbranch : Processor.Handling.branchOf (Processor.Handling.overrideScenario p value) n = none) :
    Processor.Handling.overrideScenario p "normal" ≠ "term_message" := by
  have hterm : Processor.Handling.overrideScenario p value ≠ "term_message" := by
    intro h
    rw [h] at hbranch
    cases hbranch
  by_cases hover : Processor.Overrides p
  · rwa [overrideScenario_of_overrides hover "normal" value]
  · rw [Processor.overrideScenario_of_not hover]
    decide

/-! ## The dead letter, read and republished -/

/-- The entry that the control service reads of a dead letter. -/
def entryOf (arch : Platform) (h : Processor.Handling) (now : Time) : DLQMessage where
  jobID := h.job.jobID
  type := h.job.type
  originalSubject := subjectJobSubmitted
  deliveryAttempts := h.attemptCount
  failureReason := h.dlqReason arch
  timestamp := Time.formatRFC3339 now
  worker := h.worker
  payload := h.job.payload.map reread

theorem parse_dlqMsg (arch : Platform) {h : Processor.Handling} (hp : h.job.payload.Wf)
    (hcount : h.attemptCount < 2 ^ 63) (now : Time) :
    DLQMessage.parse (h.dlqMsg arch now).data = some (entryOf arch h now) := by
  have hattempts (e : DLQMessage) : decodeKey DLQMessage.fields "delivery_attempts"
      (.int h.attemptCount) e = ({ e with deliveryAttempts := h.attemptCount }, true) := by
    have hrange : -2 ^ 63 ≤ (h.attemptCount : ℤ) ∧ (h.attemptCount : ℤ) ≤ 2 ^ 63 - 1 := by omega
    exact if_pos hrange
  have hpayload (e : DLQMessage) (he : e.payload = none) : decodeKey DLQMessage.fields "payload"
      (marshalMap h.job.payload) e = ({ e with payload := h.job.payload.map reread }, true) :=
    @anyMapField_marshalMap DLQMessage DLQMessage.payload (fun e m => { e with payload := m })
      h.job.payload hp e he
  have hdecode : Go.unmarshal DLQMessage.fields {} (h.dlqMsg arch now).data =
      (entryOf arch h now, true) := by
    simp only [Processor.Handling.dlqMsg, Go.unmarshal]
    rw [decodeFields_cons _ _ _ (hattempts _)]
    rw [decodeFields_cons _ _ _ rfl]
    rw [decodeFields_cons _ _ _ rfl]
    rw [decodeFields_cons _ _ _ rfl]
    rw [decodeFields_cons _ _ _ (hpayload _ rfl)]
    rfl
  rw [DLQMessage.parse, hdecode]
  rfl

/-- A round of `ReprocessDLQ` publishes a message for an entry of the stream. -/
def RepublishedAs (entry m : Msg) : Prop :=
  ∃ (filter : String) (seq : ℕ) (s : Progress) (time : Time)
    (answer : ℕ → (c : Call Op Label) → Call.Res Op.Res Response c) (n : ℕ) (ok : Bool),
    answer n (.prim (.getMsg seq)) = some ⟨entry, time⟩ ∧
      ⟨.prim (.publishMsg seq m), ok⟩ ∈ (reprocessEntry filter seq s).transcript answer n

section
variable {answer : ℕ → (c : Call Op Label) → Call.Res Op.Res Response c} {n : ℕ}

/-- What a republishing publishes, after three readings of the clock. -/
theorem mem_republish_iff {seq : ℕ} {item : DLQMessage} {m : Msg} {ok : Bool} :
    (⟨.prim (.publishMsg seq m), ok⟩ : (c : Call Op Label) × Call.Res Op.Res Response c) ∈
        (republish seq item).transcript answer n ↔
      m = repairedMsg item (answer n (.prim .now)) (answer (n + 1) (.prim .now))
          (answer (n + 1 + 1) (.prim .now)) ∧
        ok = answer (n + 1 + 1 + 1) (.prim (.publishMsg seq m)) := by
  have htail (done : Bool) : (if done then do
      let _ ← op (.deleteMsg seq)
      op (.publishEvent (reprocessedEvent item))
      return true
    else return false : Prog Bool).Avoids Publishes := by
    cases done <;> simp [Publishes]
  constructor
  · intro hmem
    rcases List.mem_cons.mp hmem with heq | hmem
    · cases heq
    rcases List.mem_cons.mp hmem with heq | hmem
    · cases heq
    rcases List.mem_cons.mp hmem with heq | hmem
    · cases heq
    rcases List.mem_cons.mp hmem with heq | hmem
    · cases heq
      exact ⟨rfl, rfl⟩
    · exact absurd trivial ((htail _).not_mem_transcript _ hmem)
  · rintro ⟨rfl, rfl⟩
    exact List.mem_of_getElem? (i := 3) rfl

end

theorem RepublishedAs.repaired {entry m : Msg} {item : DLQMessage} (h : RepublishedAs entry m)
    (hitem : DLQMessage.parse entry.data = some item) :
    ∃ t1 t2 t3, m = repairedMsg item t1 t2 t3 := by
  obtain ⟨filter, seq, s, time, answer, n, ok, hget, hmem⟩ := h
  rw [reprocessEntry_eq, Proc.transcript_call, hget] at hmem
  rcases List.mem_cons.mp hmem with heq | hmem
  · cases heq
  have hspec := verdict_spec filter s.seenJobs (some ⟨entry, time⟩)
  generalize verdict filter s.seenJobs (some ⟨entry, time⟩) = v at hspec hmem
  cases hspec with
  | skipped h => cases hmem
  | invalid item' hf hm h => simp [carryOut] at hmem
  | further item' hf hm hjob hp hseen => simp [carryOut] at hmem
  | taken item' hf hm hjob hp hseen =>
    obtain rfl : item = item' := Option.some_inj.mp (hitem.symm.trans hf)
    rw [carryOut, Proc.mem_transcript_bind] at hmem
    rcases hmem with hmem | hmem
    · exact ⟨_, _, _, (mem_republish_iff.mp hmem).1⟩
    · cases hmem

/-- A valid entry is republished by the round that gets it. -/
theorem exists_republishedAs {entry : Msg} {item : DLQMessage}
    (hitem : DLQMessage.parse entry.data = some item) (hjob : item.jobID ≠ "")
    (hp : item.payload.isSome) : ∃ m, RepublishedAs entry m := by
  let e : Env := { info := none, content := fun _ => some ⟨entry, 0⟩ }
  have hverdict : verdict "" [] (some ⟨entry, 0⟩) = .take item := by
    simp [verdict, entryIn, hitem, hjob, Option.isSome_iff_ne_none.mp hp]
  refine ⟨repairedMsg item 0 0 0, "", 1, {}, 0, e.answer, 0, true, rfl, ?_⟩
  rw [reprocessEntry_eq, Proc.transcript_call]
  refine List.mem_cons_of_mem _ ?_
  show _ ∈ (carryOut 1 {} (verdict "" [] (some ⟨entry, 0⟩))).transcript e.answer 1
  rw [hverdict, carryOut, Proc.mem_transcript_bind]
  exact Or.inl (mem_republish_iff.mpr ⟨rfl, rfl⟩)

/-! ## Handled anew -/

/-- The answers that a handling can get while the setting is normal: the policy is that of
some state of the processor. -/
structure Normal (arch : Platform)
    (answer : ℕ → (c : Call Processor.Op Processor.Label) → Call.Res Processor.Op.Res Bool c) :
    Prop where
  scenario : ∀ n, (answer n (.prim .readScenario)).1 = "normal"
  ackPolicy : ∀ n, ∃ as, answer n (.prim .readAckPolicy) =
    (run (Processor.stepWorld arch) (Processor.State.empty arch)
      as).shared.app.consumerConfig.ackPolicy

/-- How often the message has been delivered; the worker keeps the number in an `int`. -/
def deliveryCount (d : Processor.Delivery) : ℕ := d.metadata.elim 1 Processor.Metadata.numDelivered

/-- What a worker does with a delivery. -/
def handled (arch : Platform) (d : Processor.Delivery) (w : String)
    (answer : ℕ → (c : Call Processor.Op Processor.Label) → Call.Res Processor.Op.Res Bool c) :
    List Processor.Done :=
  (Processor.handleJetStreamMsg arch d w).transcript answer 0

/-- The message is one of the job, repaired.  While the setting is normal, no delivery of
it is discarded or dropped, and of two deliveries one is acknowledged. -/
structure Recovers (arch : Platform) (job : Job) (m : Msg) : Prop where
  same : ∃ job', Job.parse m.data = some job' ∧ job'.jobID = job.jobID ∧ job'.type = job.type ∧
    Repaired job.payload job'.payload
  taken : ∀ d w, d.msg = m → (Processor.Handling.ofDelivery d w).isSome
  kept : ∀ d w answer, d.msg = m → Normal arch answer →
    ∀ e ∈ handled arch d w answer, ¬ Processor.Drops e.1
  acknowledged : ∀ d₁ d₂ w₁ w₂ answer₁ answer₂, d₁.msg = m → d₂.msg = m →
    1 ≤ deliveryCount d₁ → deliveryCount d₁ < deliveryCount d₂ →
    Normal arch answer₁ → Normal arch answer₂ →
    Processor.Acknowledged d₁.seq (handled arch d₁ w₁ answer₁) ∨
      Processor.Acknowledged d₂.seq (handled arch d₂ w₂ answer₂)

theorem Normal.ackPolicy_ne {arch : Platform}
    {answer : ℕ → (c : Call Processor.Op Processor.Label) → Call.Res Processor.Op.Res Bool c}
    (h : Normal arch answer) (n : ℕ) : answer n (.prim .readAckPolicy) ≠ "none" := by
  obtain ⟨as, has⟩ := h.ackPolicy n
  rw [has, (Processor.configured_run arch as).ackPolicy]
  decide

theorem handled_eq {arch : Platform} {d : Processor.Delivery} {w : String}
    {h : Processor.Handling} (hh : Processor.Handling.ofDelivery d w = some h)
    (answer : ℕ → (c : Call Processor.Op Processor.Label) → Call.Res Processor.Op.Res Bool c) :
    handled arch d w answer = (h.process arch).transcript answer 0 := by
  simp only [handled, Processor.handleJetStreamMsg, hh]

theorem branchOf_of_not_first {scenario : String} {n : ℕ} (hterm : scenario ≠ "term_message")
    (hn : n ≠ 1) : Processor.Handling.branchOf scenario n = none := by
  simp [Processor.Handling.branchOf, hterm, hn]

/-- The handling of a repaired job goes through. -/
theorem recovers_of_repaired (arch : Platform) {job job' : Job} {m : Msg}
    (hparse : Job.parse m.data = some job') (hmode : m.header.get "X-Delivery-Mode" = "JETSTREAM")
    (hmode' : job'.deliveryMode = "JETSTREAM") (hid : job'.jobID = job.jobID)
    (htype : job'.type = job.type) (hrepaired : Repaired job.payload job'.payload)
    (hterm : Processor.Handling.overrideScenario job.payload "normal" ≠ "term_message") :
    Recovers arch job m := by
  have htaken (d : Processor.Delivery) (w : String) (hd : d.msg = m) :
      Processor.Handling.ofDelivery d w = some ⟨d, w, job', "JETSTREAM"⟩ := by
    subst hd
    rw [Processor.ofDelivery_of_passes hparse (by rw [hmode, hmode']; decide), hmode]
  have hsafe : Processor.Handling.overrideScenario job'.payload "normal" ≠ "term_message" := by
    rwa [hrepaired.overrideScenario]
  refine ⟨⟨job', hparse, hid, htype, hrepaired⟩, fun d w hd => by rw [htaken d w hd]; rfl, ?_, ?_⟩
  · intro d w answer hd hanswer
    rw [handled_eq (htaken d w hd)]
    refine Processor.process_keeps (fun k => ?_) (hrepaired.not_failureFires arch _)
    rw [hanswer.scenario k]
    exact hsafe
  · intro d₁ d₂ w₁ w₂ answer₁ answer₂ _ hd hfirst hlt _ hanswer
    -- at the latest the second delivery is acknowledged
    refine Or.inr ?_
    rw [handled_eq (htaken d₂ w₂ hd)]
    refine Processor.acknowledged_process hanswer.ackPolicy_ne (fun k => ?_)
      (hrepaired.not_failureFires arch _)
    rw [hanswer.scenario k]
    exact branchOf_of_not_first hsafe (by show deliveryCount d₂ ≠ 1; omega)

theorem eq_of_ofDelivery {d : Processor.Delivery} {w : String} {job : Job}
    {h : Processor.Handling} (hjob : Job.parse d.msg.data = some job)
    (hh : Processor.Handling.ofDelivery d w = some h) :
    h = ⟨d, w, job, Processor.headerMode d.msg⟩ := by
  simp only [Processor.Handling.ofDelivery, hjob] at hh
  split_ifs at hh
  exact (Option.some_inj.mp hh).symm

theorem payload_of_fires {arch : Platform} {p : Payload} {n : ℕ}
    (h : Processor.Handling.failureFires arch p n) : ∃ m, p = some m := by
  cases p with
  | none => exact absurd h.1 Bool.false_ne_true
  | some m => exact ⟨m, rfl⟩

/-- **Dead letters are recoverable.**  Whatever a worker routes to the dead letter queue,
under any setting, is republished from there as a message that recovers the job. -/
theorem recovers_of_routed (arch : Platform) {d : Processor.Delivery} {w : String}
    {answer : ℕ → (c : Call Processor.Op Processor.Label) → Call.Res Processor.Op.Res Bool c}
    {origin : ℕ} {entry : Msg} {ok : Bool} {job : Job} (hjob : Job.parse d.msg.data = some job)
    (hid : job.jobID ≠ "") (hcount : deliveryCount d < 2 ^ 63)
    (hrouted : ⟨.prim (.publishDLQ origin entry), ok⟩ ∈ handled arch d w answer) :
    (∃ m, RepublishedAs entry m) ∧ ∀ m, RepublishedAs entry m → Recovers arch job m := by
  cases hh : Processor.Handling.ofDelivery d w with
  | none => simp [handled, Processor.handleJetStreamMsg, hh] at hrouted
  | some h =>
    rw [handled_eq hh] at hrouted
    obtain rfl := eq_of_ofDelivery hjob hh
    obtain ⟨⟨value, hbranch⟩, hfires, now, rfl⟩ := Processor.routed_of_publish hrouted
    obtain ⟨p, hp⟩ := payload_of_fires hfires
    have hwf : job.payload.Wf := Job.wf_of_parse hjob
    set item := entryOf arch ⟨d, w, job, Processor.headerMode d.msg⟩ now
    have hparse : DLQMessage.parse (Processor.Handling.dlqMsg arch
        ⟨d, w, job, Processor.headerMode d.msg⟩ now).data = some item :=
      parse_dlqMsg arch (h := ⟨d, w, job, Processor.headerMode d.msg⟩) hwf hcount now
    have hpayload : item.payload = some (reread p) := by
      show job.payload.map reread = _
      rw [hp]
      rfl
    have hwf' : item.payload.Wf := by
      rw [hpayload]
      intro q hq
      obtain rfl := Option.some_inj.mp hq
      exact wfEntries_reread p
    refine ⟨exists_republishedAs hparse hid (by rw [hpayload]; rfl), fun m hm => ?_⟩
    obtain ⟨t1, t2, t3, rfl⟩ := hm.repaired hparse
    obtain ⟨-, hmode, job', hread, hid', htype, hmode', hrepaired⟩ :=
      repairOf_repairedMsg hwf' (by rw [hpayload]; rfl) t1 t2 t3
    rw [hpayload] at hrepaired
    have hrepaired' : Repaired job.payload job'.payload := by
      rw [hp]
      exact hrepaired.of_reread (hwf p hp)
    exact recovers_of_repaired arch hread hmode hmode' hid' htype hrepaired'
      (overrideScenario_ne_term hbranch)

/-- The third attempt of a job that always fails, and that crashes its first worker. -/
def failedDelivery : Processor.Delivery where
  seq := 0
  msg := Processor.jetStreamMsg "j1"
    [("simulate_failure", .bool true), ("scenario", .str "crash_before_ack")]
  metadata := some ⟨1, 3⟩

def failedJob : Job where
  jobID := "j1"
  payload := some [("scenario", .str "crash_before_ack"), ("simulate_failure", .bool true)]

/-- The broker takes the dead letter. -/
def accepting : (c : Call Processor.Op Processor.Label) → Call.Res Processor.Op.Res Bool c
  | .prim (.publishDLQ _ _) => true
  | c => Processor.someAnswer c

theorem recovers_failedDelivery : ∃ entry, (∃ m, RepublishedAs entry m) ∧
    ∀ m, RepublishedAs entry m → Recovers .amd64 failedJob m := by
  have hrouted : ∃ entry, ⟨.prim (.publishDLQ 0 entry), true⟩ ∈
      handled .amd64 failedDelivery "processor-1" fun _ => accepting :=
    ⟨_, List.mem_of_getElem? (i := 5) rfl⟩
  obtain ⟨entry, hrouted⟩ := hrouted
  exact ⟨entry, recovers_of_routed .amd64 rfl (by decide) (by decide) hrouted⟩

end NatsDemo.Control
