import NatsDemo.Validation.Protocol

/-!
# The verdict reaches who asked for it

Whoever is answered in time is answered with the verdict on the job it posted, and the events of
the four stages of the exchange were handed to the connection in their order.  Every exchange is
about the job in its message, and only replies with the verdict on that job come to its inbox;
this is the regime that the requesters and the callbacks keep.
-/

namespace NatsDemo.Validation
open Lib Go Jobs Messaging

/-- The verdict on a job, as the requester reads it. -/
def verdict (job : Job) : JobValidationResponse := replyOf (Processor.validationOf job)

/-- The events of the processor `w` about a job. -/
def received (job : Job) (w : String) (now : Time) : Msg :=
  eventMsg ⟨subjectJobRequestReceived, job.jobID, "REQUEST_RECEIVED", 1, "", w, ""⟩ now

def replySent (job : Job) (w : String) (now : Time) : Msg :=
  eventMsg ⟨subjectJobReplySent, job.jobID, "REPLY_SENT", 1, "", w, ""⟩ now

/-- The events of a request for a job, of its receipt and of its reply were handed over. -/
def Told (bus : List Msg) (job : Job) : Prop :=
  ∃ w now now', [requestSent job, received job w now, replySent job w now'].Sublist bus

theorem Told.mono {bus bus' : List Msg} {job : Job} (h : Told bus job) (hbus : bus <+: bus') :
    Told bus' job := by
  obtain ⟨w, now, now', h⟩ := h
  exact ⟨w, now, now', h.trans hbus.sublist⟩

/-! ## The regime -/

/-- An exchange is about a job, and its replies are the verdict on it. -/
def Shared.Sound (s : Shared) : Prop :=
  ∀ (i : ℕ) e, s.exchanges[i]? = some e → ∃ job, Job.parse e.msg.data = some job ∧
    requestSent job ∈ s.bus ∧
    ∀ r ∈ e.replies, r = some (verdict job).marshal ∧ Told s.bus job

/-- Events are not taken back, exchanges keep their message, and records their history. -/
structure Shared.Grows (s s' : Shared) : Prop where
  bus : s.bus <+: s'.bus
  exchanges : ∀ (i : ℕ) e, s.exchanges[i]? = some e →
    ∃ e', s'.exchanges[i]? = some e' ∧ e'.msg = e.msg
  store : ∀ id d, s.store.get? id = some d →
    ∃ d', s'.store.get? id = some d' ∧ d.history <+: d'.history

/-- What an operation may only be done under: a request is sent after it was announced, and a
reply is the verdict of a processor that has announced it. -/
def Op.Allowed : Op → Shared → Prop
  | .send m, s => ∃ job, Job.parse m.data = some job ∧ requestSent job ∈ s.bus
  | .callback i _ (.prim (.respond resp)), s => ∃ e job, s.exchanges[i]? = some e ∧
      Job.parse e.msg.data = some job ∧ resp = Processor.validationOf job ∧ Told s.bus job
  | _, _ => True

/-- A callback is about the message of its exchange. -/
def Label.Starts : Label → Shared → Prop
  | .post _, _ => True
  | .callback i _ m, s => ∃ e, s.exchanges[i]? = some e ∧ e.msg = m

def regime : Regime Shared Label Op where
  inv := Shared.Sound
  le := Shared.Grows
  pre := Op.Allowed
  starts := Label.Starts

/-! ## What comes of a request -/

/-- The outcome is in the history of the job. -/
def Recorded (store : JobStore) (job : Job) (status : String) : Prop :=
  ∃ d, store.get? job.jobID = some d ∧ status ∈ d.history.map JobHistoryItem.status

/-- A request has got its reply: the verdict, after all the stages. -/
def Replied (job : Job) (bus : List Msg) : Except RequestError JobValidationResponse → Prop
  | .ok resp => resp = verdict job ∧ ∃ w now now',
      [requestSent job, received job w now, replySent job w now', replyReceived job].Sublist bus
  | .error e => (∃ err : NatsError, e = err.requestError) ∧
      [requestSent job, requestTimeout job].Sublist bus

/-- What a request has come to: it was refused, or its outcome is its answer, is recorded, and
its events were handed to the connection. -/
def Outcome (p : Post) (s : Shared) (a : Answer) : Prop :=
  match p.job with
  | .error a' => a = a'
  | .ok job => ∃ reply, a = answerOf reply ∧ Replied job s.bus reply ∧
      Recorded s.store job (statusOf reply)

/-- What the threads come to. -/
def Label.Post : Label → Option Answer → Shared → Prop
  | .post p, some a, s => Outcome p s a
  | _, _, _ => True

/-! ## Growth -/

namespace Shared

theorem grows_of_eq {s s' : Shared} (hbus : s'.bus = s.bus) (hexchanges : s'.exchanges = s.exchanges)
    (hstore : s'.store = s.store) : s.Grows s' where
  bus := hbus ▸ List.prefix_refl _
  exchanges _ e he := ⟨e, hexchanges ▸ he, rfl⟩
  store _ d hd := ⟨d, hstore ▸ hd, List.prefix_refl _⟩

theorem Grows.refl (s : Shared) : s.Grows s := grows_of_eq rfl rfl rfl

theorem Grows.trans {s s' s'' : Shared} (h : s.Grows s') (h' : s'.Grows s'') : s.Grows s'' where
  bus := h.bus.trans h'.bus
  exchanges i e he := by
    obtain ⟨e', he', hmsg⟩ := h.exchanges i e he
    obtain ⟨e'', he'', hmsg'⟩ := h'.exchanges i e' he'
    exact ⟨e'', he'', hmsg'.trans hmsg⟩
  store id d hd := by
    obtain ⟨d', hd', hhistory⟩ := h.store id d hd
    obtain ⟨d'', hd'', hhistory'⟩ := h'.store id d' hd'
    exact ⟨d'', hd'', hhistory.trans hhistory'⟩

theorem grows_publish (s : Shared) (m : Msg) : s.Grows (s.publish m) where
  bus := List.prefix_append _ _
  exchanges _ e he := ⟨e, he, rfl⟩
  store _ d hd := ⟨d, hd, List.prefix_refl _⟩

theorem grows_send (s : Shared) (m : Msg) :
    s.Grows { s with exchanges := s.exchanges ++ [{ msg := m }] } where
  bus := List.prefix_refl _
  exchanges i e he := by
    have hi : i < s.exchanges.length := (List.getElem?_eq_some_iff.mp he).1
    exact ⟨e, by rwa [List.getElem?_append_left hi], rfl⟩
  store _ d hd := ⟨d, hd, List.prefix_refl _⟩

theorem grows_respond (s : Shared) (i : ℕ) (resp : Processor.ValidationResponse) :
    s.Grows (s.respond i resp) where
  bus := List.prefix_refl _
  exchanges j e he := by
    rw [respond, List.getElem?_modify, he]
    by_cases hij : i = j <;> simp [hij]
  store _ d hd := ⟨d, hd, List.prefix_refl _⟩

theorem grows_addJob (s : Shared) (job : Job) (status : String) (now : Time) :
    s.Grows { s with store := s.store.addJob job status now } where
  bus := List.prefix_refl _
  exchanges _ e he := ⟨e, he, rfl⟩
  store id d hd := by
    by_cases hid : job.jobID = id
    · subst hid
      refine ⟨_, JobStore.get?_addJob_self s.store job status now, ?_⟩
      rw [hd]
      exact List.prefix_append _ _
    · exact ⟨d, by rwa [JobStore.get?_addJob_of_ne _ _ _ _ hid], List.prefix_refl _⟩

/-- A sound state stays so when events are added. -/
theorem Sound.publish {s : Shared} (hs : s.Sound) (m : Msg) : (s.publish m).Sound := by
  intro i e he
  obtain ⟨job, hjob, hsent, hreplies⟩ := hs i e he
  refine ⟨job, hjob, List.mem_append_left _ hsent, fun r hr => ?_⟩
  exact ⟨(hreplies r hr).1, (hreplies r hr).2.mono (List.prefix_append _ _)⟩

theorem Sound.send {s : Shared} (hs : s.Sound) {m : Msg} (hm : (Op.send m).Allowed s) :
    Sound { s with exchanges := s.exchanges ++ [{ msg := m }] } := by
  intro i e he
  rcases Nat.lt_or_ge i s.exchanges.length with hi | hi
  · rw [List.getElem?_append_left hi] at he
    exact hs i e he
  · rw [List.getElem?_append_right hi] at he
    obtain rfl := List.mem_singleton.mp (List.mem_of_getElem? he)
    obtain ⟨job, hjob, hsent⟩ := hm
    exact ⟨job, hjob, hsent, fun r hr => absurd hr List.not_mem_nil⟩

theorem Sound.respond {s : Shared} (hs : s.Sound) {i : ℕ} {w : String}
    {resp : Processor.ValidationResponse}
    (h : (Op.callback i w (.prim (.respond resp))).Allowed s) : (s.respond i resp).Sound := by
  obtain ⟨e₀, job, he₀, hjob, rfl, htold⟩ := h
  intro j e he
  rcases Machine.getElem?_modify_cases he with ⟨he, -⟩ | ⟨rfl, e', he', rfl⟩
  · exact hs j e he
  · obtain rfl : e' = e₀ := Option.some_inj.mp (he'.symm.trans he₀)
    obtain ⟨job', hjob', hsent, hreplies⟩ := hs i e' he'
    obtain rfl : job' = job := Option.some_inj.mp (hjob'.symm.trans hjob)
    refine ⟨job', hjob', hsent, fun r hr => ?_⟩
    rcases List.mem_append.mp hr with hr | hr
    · exact hreplies r hr
    · obtain rfl := List.mem_singleton.mp hr
      exact ⟨rfl, htold⟩

/-- Every operation that is allowed keeps a sound state sound and lets it grow. -/
theorem Sound.exec {s : Shared} (hs : s.Sound) (x : Choice) {o : Op} (ho : o.Allowed s) :
    (s.exec x o).2.Sound ∧ s.Grows (s.exec x o).2 := by
  cases o with
  | publish m => exact ⟨hs.publish m, grows_publish s m⟩
  | send m => exact ⟨hs.send ho, grows_send s m⟩
  | addJob job status => exact ⟨hs, grows_addJob s job status s.clock⟩
  | callback i w c =>
    cases c with
    | prim o =>
      cases o with
      | publishJobLifecycle e => exact ⟨hs.publish _, grows_publish s _⟩
      | respond resp =>
        show (if x.ok then s.respond i resp else s).Sound ∧
          s.Grows (if x.ok then s.respond i resp else s)
        split_ifs
        · exact ⟨hs.respond ho, grows_respond s i resp⟩
        · exact ⟨hs, .refl s⟩
      | _ => exact ⟨hs, .refl s⟩
    | _ => exact ⟨hs, .refl s⟩
  | _ => exact ⟨hs, .refl s⟩

end Shared

/-! ## The programs -/

/-- An event goes to the end of the bus, and all that grows from there has it after the others. -/
theorem sublist_publish {s s' : Shared} {m : Msg} {ms : List Msg} (h : ms.Sublist s.bus)
    (hle : (s.publish m).Grows s') : (ms ++ [m]).Sublist s'.bus :=
  (h.append (List.Sublist.refl [m])).trans hle.bus.sublist

theorem mem_publish {s s' : Shared} {m : Msg} (hle : (s.publish m).Grows s') : m ∈ s'.bus :=
  hle.bus.subset (List.mem_append_right _ (List.mem_singleton.mpr rfl))

abbrev Secures {β : Type} (p : Prog β) (K : Shared → Prop) (Q : β → Shared → Prop) : Prop :=
  p.Secures regime (fun o (x : Choice) s => s.exec x o) K Q

/-- A callback announces that it has the request, and that it answers, and then answers with the
verdict. -/
theorem callback_secures (i : ℕ) (w : String) (m : Msg) :
    Secures (program (.callback i w m)) (Label.Starts (.callback i w m))
      (Label.Post (.callback i w m)) := by
  -- the message of an exchange parses, so the first branch of the callback is not taken
  have hexchange {s : Shared} (hs : s.Sound) (hk : (Label.callback i w m).Starts s) :
      ∃ e job, s.exchanges[i]? = some e ∧ e.msg = m ∧ Job.parse m.data = some job ∧
        requestSent job ∈ s.bus := by
    obtain ⟨e, he, rfl⟩ := hk
    obtain ⟨job, hjob, hsent, -⟩ := hs i e he
    exact ⟨e, job, he, rfl, hjob, hsent⟩
  rw [program, Processor.jobValidateCallback]
  cases hparse : Job.parse m.data with
  | none =>
    refine (Proc.secures_prim _ _ _).mpr fun x s hs hk => ?_
    obtain ⟨e, job, -, -, hjob, -⟩ := hexchange hs hk
    rw [hparse] at hjob
    cases hjob
  | some job =>
    refine (Proc.secures_prim _ _ _).mpr fun x s₁ hs₁ hk₁ => ⟨trivial, ?_⟩
    show Proc.Secures _ _ (Proc.bind (Proc.embed _ _ (Proc.bind
      (ite (s₁.enabled w = true) _ _) _)) _) _ _
    by_cases henabled : s₁.enabled w = true
    · rw [if_pos henabled]
      refine (Proc.secures_prim _ _ _).mpr fun x s₂ hs₂ hk₂ => ⟨trivial, ?_⟩
      refine (Proc.secures_prim _ _ _).mpr fun x s₃ hs₃ hk₃ => ⟨trivial, ?_⟩
      refine (Proc.secures_prim _ _ _).mpr fun x s₄ hs₄ hk₄ => ⟨?_, fun _ _ _ => trivial⟩
      obtain ⟨-, job', -, -, hjob', hsent⟩ := hexchange hs₂ hk₂.1
      obtain rfl : job' = job := Option.some_inj.mp (hjob'.symm.trans hparse)
      obtain ⟨e, -, he, rfl, -, -⟩ := hexchange hs₄ hk₄.1.1.1
      have hreceived := sublist_publish (List.singleton_sublist.mpr hsent) hk₃.2
      exact ⟨e, job', he, hparse, rfl, w, _, _, sublist_publish hreceived hk₄.2⟩
    · rw [if_neg henabled]
      exact fun _ _ _ => trivial

/-- The replies to a request that was sent are the verdict on its job. -/
theorem receive_cases {x : Choice} {s s' : Shared} {m : Msg} {job : Job} (hs : s'.Sound)
    (hle : Shared.Grows { s with exchanges := s.exchanges ++ [{ msg := m }] } s')
    (hm : Job.parse m.data = some job) :
    (∃ e, s'.receive x s.exchanges.length = .error e) ∨
      s'.receive x s.exchanges.length = .ok (some (verdict job).marshal) ∧ Told s'.bus job := by
  obtain ⟨e, he, hmsg⟩ := hle.exchanges s.exchanges.length { msg := m } (by simp)
  obtain ⟨job', hjob', -, hreplies⟩ := hs _ e he
  obtain rfl : job' = job := by
    rw [hmsg] at hjob'
    exact Option.some_inj.mp (hjob'.symm.trans hm)
  rw [Shared.receive, he, Option.bind_some]
  cases x.fails with
  | some err => exact .inl ⟨err, rfl⟩
  | none =>
    cases hhead : e.replies.head? with
    | none => exact .inl ⟨.timeout, rfl⟩
    | some r =>
      obtain ⟨rfl, htold⟩ := hreplies r (List.mem_of_head? hhead)
      exact .inr ⟨rfl, htold⟩

/-- A request has an event before it is sent, and one when its reply has come or has not. -/
theorem requestJobValidation_secures {job : Job} (hjob : job.Wf) (trace : GoMap String)
    (why : String) : Secures (requestJobValidation job trace why) (fun _ => True)
      fun reply s => Replied job s.bus reply := by
  have hparse (now : Time) : Job.parse (jobValidate job now trace).data = some job.reread :=
    Job.parse_marshal_reread hjob
  refine (Proc.secures_prim _ _ _).mpr fun x₁ s₁ hs₁ hk₁ => ⟨trivial, ?_⟩
  refine (Proc.secures_prim _ _ _).mpr fun x₂ s₂ hs₂ hk₂ => ⟨trivial, ?_⟩
  refine (Proc.secures_prim _ _ _).mpr fun x₃ s₃ hs₃ hk₃ => ⟨?_, ?_⟩
  · exact ⟨job.reread, hparse s₁.clock, mem_publish hk₃.2⟩
  refine (Proc.secures_prim _ _ _).mpr fun x₄ s₄ hs₄ hk₄ => ⟨trivial, ?_⟩
  have hreceive := receive_cases (x := x₄) hs₄ hk₄.2 (hparse s₁.clock)
  show Proc.Secures _ _ (Proc.bind (.ret (s₄.receive x₄ s₃.exchanges.length)) _) _ _
  obtain ⟨e, he⟩ | ⟨hreply, w, now, now', htold⟩ := hreceive
  · rw [he]
    refine (Proc.secures_prim _ _ _).mpr fun x₅ s₅ hs₅ hk₅ => ⟨trivial, fun s hs hk => ?_⟩
    have hsent : requestSent job ∈ s₅.bus := mem_publish hk₅.1.1.2
    exact ⟨⟨e, rfl⟩, sublist_publish (List.singleton_sublist.mpr hsent) hk.2⟩
  · rw [hreply]
    refine (Proc.secures_prim _ _ _).mpr fun x₅ s₅ hs₅ hk₅ => ⟨trivial, fun s hs hk => ?_⟩
    have hverdict : verdict job.reread = verdict job :=
      congrArg replyOf (Processor.validationOf_reread hjob.payload)
    have hstages := sublist_publish (htold.trans hk₅.2.bus.sublist) hk.2
    exact ⟨hverdict, w, now, now', hstages⟩

/-- The outcome of a request is recorded under its job. -/
theorem validateJob_secures {job : Job} (hjob : job.Wf) (trace : GoMap String) (why : String) :
    Secures (validateJob job trace why) (fun _ => True)
      fun reply s => Replied job s.bus reply ∧ Recorded s.store job (statusOf reply) := by
  refine (requestJobValidation_secures hjob trace why).bind fun reply => ?_
  refine (Proc.secures_prim _ _ _).mpr fun x s hs hreplied => ⟨trivial, fun s' hs' hk => ?_⟩
  refine ⟨hk.1, ?_⟩
  obtain ⟨d, hd, hhistory⟩ := hk.2.store job.jobID _ (JobStore.get?_addJob_self _ job _ _)
  refine ⟨d, hd, (hhistory.map JobHistoryItem.status).subset ?_⟩
  simp [JobDetail.update]

theorem Post.wf_job {p : Post} {job : Job} (h : p.job = .ok job) : job.Wf := by
  have hread := Job.wf_unmarshal p.body
  simp only [Post.job] at h
  split_ifs at h
  obtain rfl := Except.ok.inj h
  cases hid : p.context.traceID with
  | none => simpa [Context.traced, hid] using hread
  | some id => exact ⟨by simpa [Context.traced, hid] using hread.headers,
      by simpa [Context.traced, hid] using hread.payload⟩

theorem post_secures (p : Post) :
    Secures (program (.post p)) (Label.Starts (.post p)) (Label.Post (.post p)) := by
  have hpost : Secures (post p) (fun _ => True) fun a s => Outcome p s a := by
    rw [post]
    simp only [Outcome]
    cases hp : p.job with
    | error a => exact fun _ _ _ => rfl
    | ok job =>
      refine (validateJob_secures (Post.wf_job hp) p.trace p.why).bind fun reply => ?_
      exact fun s _ h => ⟨reply, rfl, h⟩
  exact hpost.bind fun a => fun s _ h => h

theorem regime_checked : regime.Checked world Label.Post where
  refl := .refl
  trans _ _ _ h h' := h.trans h'
  env e s hs := by
    cases e with
    | request p => exact ⟨hs, .refl s, fun l hl => by
        obtain rfl := List.mem_singleton.mp hl
        trivial⟩
    | deliver i w =>
      refine ⟨hs, .refl s, fun l hl => ?_⟩
      obtain ⟨e, he, rfl⟩ := List.mem_map.mp hl
      exact ⟨e, Option.mem_toList.mp he, rfl⟩
    | setEnabled w enabled =>
      exact ⟨hs, Shared.grows_of_eq rfl rfl rfl, fun l hl => absurd hl List.not_mem_nil⟩
    | tick d => exact ⟨hs, Shared.grows_of_eq rfl rfl rfl, fun l hl => absurd hl List.not_mem_nil⟩
  exec o x s hs ho := hs.exec x ho
  lasts l s s' hl hle := by
    cases l with
    | post p => trivial
    | callback i w m =>
      obtain ⟨e, he, rfl⟩ := hl
      exact hle.exchanges i e he
  body l := by
    cases l with
    | post p => exact post_secures p
    | callback i w m => exact callback_secures i w m

/-! ## The runs -/

/-- Two processors get the request, and the second one, which is on, answers it. -/
def validateOne : List Act :=
  let p : Post := { body := some (.obj [("job_id", .str "a"), ("type", .str "data-sync"),
    ("payload", .obj [("note", .str "x")])]) }
  [.env (.request p), .op 0 {}, .op 0 {}, .op 0 {}, .env (.deliver 0 "processor-a"),
    .env (.deliver 0 "processor-b"), .op 1 {}, .op 2 {}, .op 2 {}, .op 2 {}, .op 2 {}, .op 0 {},
    .op 0 {}, .op 0 {}]

/-- The request of a thread and its answer. -/
def answered (t : Thread) : Option (Post × Answer) :=
  match t.label, t.rest with
  | .post p, .ret (some a) => some (p, a)
  | _, _ => none

end NatsDemo.Validation
