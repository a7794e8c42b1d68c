import NatsDemo.Control.Removals

/-!
# What the list of dead letters shows

`GET /dlq/messages` walks the numbers of the stream while others publish to it, reprocess it and
empty it.  The list is no snapshot, but nothing in it is made up, and what was there all along is
in it.
-/

namespace NatsDemo.Control.Desk
open Lib Go Messaging

/-! ## The rows of the list -/

/-- A stored message that the list shows: it is an entry of a job, with a payload or a reason. -/
structure Listable (raw : RawMsg) (entry : DLQMessage) : Prop where
  decodes : DLQMessage.parse raw.msg.data = some entry
  hasJob : entry.jobID ≠ ""
  tells : entry.payload.isSome ∨ entry.failureReason ≠ ""

/-- A row shows the entry under a number.  What the entry does not say of its time and of its
subject is taken from the stored message. -/
structure RowOf (seq : ℕ) (raw : RawMsg) (entry : DLQMessage) (row : Json) : Prop where
  sequence : row.member "sequence" = some (.int seq)
  jobID : row.member "job_id" = some (.str entry.jobID)
  type : row.member "type" = some (.str entry.type)
  originalSubject : row.member "original_subject" = some (.str
    (if entry.originalSubject = "" then raw.msg.header.get "X-Original-Subject"
      else entry.originalSubject))
  deliveryAttempts : row.member "delivery_attempts" = some (.int entry.deliveryAttempts)
  failureReason : row.member "failure_reason" = some (.str entry.failureReason)
  timestamp : row.member "timestamp" = some (.str
    (if entry.timestamp = "" then Time.formatRFC3339 raw.time else entry.timestamp))
  worker : row.member "worker" = if entry.worker = "" then none else some (.str entry.worker)
  payload : ∀ p, entry.payload = some p → p ≠ [] → row.member "payload" = some (marshalMap (some p))
  noPayload : entry.payload.getD [] = [] → row.member "payload" = none

/-- The stored message is listable, and the row shows it. -/
def Shows (seq : ℕ) (raw : RawMsg) (row : Json) : Prop :=
  ∃ entry, Listable raw entry ∧ RowOf seq raw entry row

/-- A row comes before another: its number is smaller. -/
def Precedes (row row' : Json) : Prop :=
  ∃ n n' : ℕ, row.member "sequence" = some (.int n) ∧ row'.member "sequence" = some (.int n') ∧
    n < n'

theorem lookup_payloadField (e : DLQMessage) :
    e.payloadField.lookup "worker" = none ∧
    (∀ p, e.payload = some p → p ≠ [] →
      e.payloadField.lookup "payload" = some (marshalMap (some p))) ∧
    (e.payload.getD [] = [] → e.payloadField.lookup "payload" = none) := by
  rw [DLQMessage.payloadField]
  rcases e.payload with _ | _ | ⟨x, p⟩
  · exact ⟨rfl, fun p hp => (by cases hp), fun _ => rfl⟩
  · exact ⟨rfl, fun p hp hne => absurd (Option.some_inj.mp hp).symm hne, fun _ => rfl⟩
  · refine ⟨rfl, fun p' hp _ => ?_, fun hempty => (by cases hempty)⟩
    obtain rfl := Option.some_inj.mp hp
    rfl

theorem member_worker (e : DLQMessage) :
    e.marshal.member "worker" = if e.worker = "" then none else some (.str e.worker) := by
  rw [DLQMessage.marshal, Json.member, omitEmpty]
  split_ifs
  · exact (lookup_payloadField e).1
  · rfl

theorem member_payload (e : DLQMessage) :
    e.marshal.member "payload" = e.payloadField.lookup "payload" := by
  rw [DLQMessage.marshal, Json.member, omitEmpty]
  split_ifs <;> rfl

/-- An item of the list, written as a row. -/
theorem shows_of_listEntry {seq : ℕ} {raw : RawMsg} {item : DLQMessage}
    (h : listEntry seq raw = some item) : Shows seq raw item.marshal := by
  cases hparse : DLQMessage.parse raw.msg.data with
  | none => simp [listEntry, hparse] at h
  | some entry =>
    obtain ⟨-, hjob, htells⟩ := listEntry_eq_some hparse h
    have hkept : ¬ (entry.jobID = "" ∨ entry.payload.isNone ∧ entry.failureReason = "") := by
      intro hskip
      simp only [listEntry, hparse, if_pos hskip, reduceCtorEq] at h
    simp only [listEntry, hparse, if_neg hkept, Option.some.injEq] at h
    subst h
    obtain ⟨-, hsome, hempty⟩ := lookup_payloadField { entry with sequence := seq }
    exact ⟨entry, ⟨hparse, hjob, htells⟩, rfl, rfl, rfl, rfl, rfl, rfl, rfl, member_worker _,
      fun p hp hne => (member_payload _).trans (hsome p hp hne),
      fun h => (member_payload _).trans (hempty h)⟩

/-! ## The calls of a request -/

/-- A call that was made, with its answer. -/
abbrev Done := (c : Call Op Label) × Call.Res Op.Res Response c

/-- What the list takes from a call. -/
def listed : Done → Option DLQMessage
  | ⟨.prim (.entries (.getMsg seq)), some raw⟩ => listEntry seq raw
  | _ => none

def readSeq : Done → Option ℕ
  | ⟨.prim (.entries (.getMsg seq)), _⟩ => some seq
  | _ => none

def infoOf : Done → Option (Option StreamInfo)
  | ⟨.prim (.entries .streamInfo), info⟩ => some info
  | _ => none

/-- The numbers to walk, by what was told of the stream. -/
def walk (info : Option StreamInfo) : List ℕ :=
  info.elim [] fun info => if info.msgs = 0 then [] else info.walked

/-- The calls of a request that lists, and its answer. -/
structure Lists (a : Response) (done : List Done) : Prop where
  answer : a = listResponse (done.filterMap listed)
  walked : done.filterMap readSeq = walk (done.filterMap infoOf).head?.join
  asked : done.filterMap infoOf ≠ [] ∨ (⟨.prim (.entries .connected), false⟩ : Done) ∈ done ∨
    (⟨.prim (.entries .getStream), false⟩ : Done) ∈ done

/-- The calls of the loop, and the list it ends with. -/
structure Walks (seqs : List ℕ) (messages messages' : List DLQMessage) (new : List Done) :
    Prop where
  reads : new.filterMap readSeq = seqs
  asks : new.filterMap infoOf = []
  shows : messages' = messages ++ new.filterMap listed

theorem Walks.cons {seq : ℕ} {seqs : List ℕ} {messages messages' : List DLQMessage}
    {new : List Done} {raw : Option RawMsg}
    (h : Walks seqs (messages ++ (listed ⟨.prim (.entries (.getMsg seq)), raw⟩).toList)
      messages' new) :
    Walks (seq :: seqs) messages messages' (⟨.prim (.entries (.getMsg seq)), raw⟩ :: new) where
  reads := by
    rw [List.filterMap_cons_some (f := readSeq) rfl, h.reads]
  asks := by
    rw [List.filterMap_cons_none (f := infoOf) rfl, h.asks]
  shows := by
    rw [h.shows, List.append_assoc]
    congr 1
    cases hx : listed ⟨.prim (.entries (.getMsg seq)), raw⟩ with
    | none => rw [List.filterMap_cons_none hx]; rfl
    | some item => rw [List.filterMap_cons_some hx]; rfl

theorem wp_listAll (seqs : List ℕ) (messages : List DLQMessage) (done : List Done) :
    ((listAll seqs messages).embed callOf answerOf).wp (Contract.record Shared fun _ => True)
      (fun a done' => ∃ new, done' = done ++ new ∧ Walks seqs messages a new) done := by
  induction seqs generalizing messages done with
  | nil => exact ⟨[], (List.append_nil _).symm, rfl, rfl, (List.append_nil _).symm⟩
  | cons seq seqs ih =>
    refine ⟨trivial, fun _ raw _ => ?_⟩
    cases raw with
    | none =>
      refine Proc.wp_mono (ih messages _) fun a done' ⟨new, hdone, hwalks⟩ =>
        ⟨⟨.prim (.entries (.getMsg seq)), none⟩ :: new, ?_, Walks.cons ?_⟩
      · exact hdone.trans (List.append_assoc done [_] new)
      · rwa [show (listed ⟨.prim (.entries (.getMsg seq)), none⟩).toList = [] from rfl,
          List.append_nil]
    | some raw =>
      refine Proc.wp_mono (ih _ _) fun a done' ⟨new, hdone, hwalks⟩ =>
        ⟨⟨.prim (.entries (.getMsg seq)), some raw⟩ :: new, ?_, hwalks.cons⟩
      exact hdone.trans (List.append_assoc done [_] new)

/-- A list that stops early shows nothing. -/
theorem lists_nothing {done : List Done} (hread : done.filterMap readSeq = [])
    (hlisted : done.filterMap listed = []) (hinfo : walk (done.filterMap infoOf).head?.join = [])
    (hasked : done.filterMap infoOf ≠ [] ∨ (⟨.prim (.entries .connected), false⟩ : Done) ∈ done ∨
      (⟨.prim (.entries .getStream), false⟩ : Done) ∈ done) : Lists (listResponse []) done :=
  ⟨by rw [hlisted], by rw [hread, hinfo], hasked⟩

theorem wp_messages :
    (handler (.entries .messages)).wp (Contract.record Shared fun _ => True) Lists [] := by
  refine ⟨trivial, fun _ connected _ => ?_⟩
  cases connected with
  | false => exact lists_nothing rfl rfl rfl (.inr (.inl (List.mem_singleton.mpr rfl)))
  | true =>
    refine ⟨trivial, fun _ stream _ => ?_⟩
    cases stream with
    | false =>
      exact lists_nothing rfl rfl rfl
        (.inr (.inr (List.mem_cons_of_mem _ (List.mem_singleton.mpr rfl))))
    | true =>
      refine ⟨trivial, fun _ info _ => ?_⟩
      cases info with
      | none => exact lists_nothing rfl rfl rfl (.inl (List.cons_ne_nil _ _))
      | some info =>
        let done : List Done := [⟨.prim (.entries .connected), true⟩,
          ⟨.prim (.entries .getStream), true⟩, ⟨.prim (.entries .streamInfo), some info⟩]
        change Proc.wp _ (Proc.embed callOf answerOf (if info.msgs = 0 then .ret (listResponse [])
          else listAll info.walked [] >>= fun messages => .ret (listResponse messages))) Lists done
        split_ifs with hmsgs
        · have hwalk : walk (some info) = [] := by rw [walk, Option.elim_some, if_pos hmsgs]
          have hnothing : Lists (listResponse []) done :=
            lists_nothing rfl rfl hwalk (.inl (List.cons_ne_nil _ _))
          exact hnothing
        · have hwalk : walk (some info) = info.walked := by
            rw [walk, Option.elim_some, if_neg hmsgs]
          rw [Proc.embed_bind]
          refine Proc.wp_bind.mpr (Proc.wp_mono (wp_listAll info.walked [] done) ?_)
          rintro messages done' ⟨new, rfl, hwalks⟩
          refine ⟨congrArg listResponse ?_, ?_, .inl ?_⟩
          · rw [List.filterMap_append]
            exact hwalks.shows
          · rw [List.filterMap_append, List.filterMap_append, hwalks.reads, hwalks.asks]
            exact hwalk.symm
          · rw [List.filterMap_append]
            exact List.cons_ne_nil _ _

/-! ## The list in a run -/

/-- A request that lists has come to its answer. -/
theorem lists_of_ret {t : Thread} {a : Response} (hl : t.label = .entries .messages)
    (hret : t.rest = .ret a) : Lists a (t.hist.map Lib.Event.done) := by
  obtain ⟨label, hist, rest, traced⟩ := t
  obtain rfl : label = .entries .messages := hl
  obtain rfl : rest = .ret a := hret
  have hwp := (traced.wp wp_messages (meets_of_mem (fun _ _ _ => trivial) _)).2
  rwa [Contract.after_record, List.nil_append] at hwp

theorem readSeq_eq_some {d : Done} {seq : ℕ} (h : readSeq d = some seq) :
    ∃ raw, d = ⟨.prim (.entries (.getMsg seq)), raw⟩ := by
  obtain ⟨c, r⟩ := d
  cases c with
  | prim o =>
    cases o with
    | entries o =>
      cases o with
      | getMsg seq' =>
        obtain rfl := Option.some_inj.mp h
        exact ⟨r, rfl⟩
      | _ => cases h
    | _ => cases h
  | _ => cases h

theorem infoOf_eq_some {d : Done} {info : Option StreamInfo} (h : infoOf d = some info) :
    d = ⟨.prim (.entries .streamInfo), info⟩ := by
  obtain ⟨c, r⟩ := d
  cases c with
  | prim o =>
    cases o with
    | entries o =>
      cases o with
      | streamInfo =>
        obtain rfl := Option.some_inj.mp h
        rfl
      | _ => cases h
    | _ => cases h
  | _ => cases h

theorem listed_eq_some {d : Done} {item : DLQMessage} (h : listed d = some item) :
    ∃ seq raw, d = ⟨.prim (.entries (.getMsg seq)), some raw⟩ ∧ listEntry seq raw = some item := by
  obtain ⟨c, r⟩ := d
  cases c with
  | prim o =>
    cases o with
    | entries o =>
      cases o with
      | getMsg seq =>
        cases r with
        | none => cases h
        | some raw => exact ⟨seq, raw, rfl, h⟩
      | _ => cases h
    | _ => cases h
  | _ => cases h

theorem Shows.sequence {seq : ℕ} {raw : RawMsg} {row : Json} (h : Shows seq raw row) :
    row.member "sequence" = some (.int seq) := by
  obtain ⟨entry, -, hrow⟩ := h
  exact hrow.sequence

theorem Lists.sorted {a : Response} {done : List Done} (h : Lists a done) :
    ((done.filterMap listed).map DLQMessage.marshal).Pairwise Precedes := by
  have hwalk : (done.filterMap readSeq).Pairwise (· < ·) := by
    rw [h.walked, walk]
    cases (done.filterMap infoOf).head?.join with
    | none => exact .nil
    | some info =>
      rw [Option.elim_some]
      split_ifs
      · exact .nil
      · exact List.pairwise_lt_range'
  refine List.pairwise_map.mpr (List.pairwise_filterMap.mpr
    ((List.pairwise_filterMap.mp hwalk).imp ?_))
  intro d d' hlt item hitem item' hitem'
  obtain ⟨seq, raw, rfl, hentry⟩ := listed_eq_some hitem
  obtain ⟨seq', raw', rfl, hentry'⟩ := listed_eq_some hitem'
  exact ⟨seq, seq', (shows_of_listEntry hentry).sequence, (shows_of_listEntry hentry').sequence,
    hlt seq rfl seq' rfl⟩

/-- The calls of a request all succeed. -/
def Succeeds (t : Thread) : Prop :=
  ∀ e ∈ t.hist, ∀ o r, e.done = ⟨.prim o, r⟩ → r = (e.ctx.exec {} o).1

/-- The entry stands under the number at every call of a request. -/
def Stands (t : Thread) (seq : ℕ) (raw : RawMsg) : Prop :=
  ∀ e ∈ t.hist, e.ctx.entry seq = some raw

/-- What stands all along is in the list. -/
theorem Lists.complete {t : Thread} {a : Response} (h : Lists a (t.hist.map Lib.Event.done))
    (hsucceeds : Succeeds t) {seq : ℕ} {raw : RawMsg} {item : DLQMessage}
    (hstands : Stands t seq raw) (hitem : listEntry seq raw = some item) :
    item ∈ (t.hist.map Lib.Event.done).filterMap listed := by
  -- a call on the entries is answered by the stream, with the entry in it
  have hanswer {o : Control.Op} {r : o.Res}
      (hmem : (⟨.prim (.entries o), r⟩ : Done) ∈ t.hist.map Lib.Event.done) :
      ∃ s : Control.Shared, s.entry seq = some raw ∧ r = (s.exec {} o).1 := by
    obtain ⟨e, he, hdone⟩ := List.mem_map.mp hmem
    obtain ⟨dlq, hdlq, hentry⟩ := Option.bind_eq_some_iff.mp (hstands e he)
    refine ⟨e.ctx.withQueue dlq, hentry, ?_⟩
    have hr := hsucceeds e he _ _ hdone
    simp only [Shared.exec, hdlq] at hr
    exact hr
  obtain hinfo | hconnected | hstream := h.asked
  · obtain ⟨info, infos, hinfos⟩ := List.exists_cons_of_ne_nil hinfo
    obtain ⟨d, hd, hdinfo⟩ := List.mem_filterMap.mp (hinfos ▸ List.mem_cons_self)
    obtain rfl := infoOf_eq_some hdinfo
    obtain ⟨s, hentry, rfl⟩ := hanswer hd
    obtain ⟨hmsgs, hfirst, hlast⟩ := Control.Shared.bounds_of_entry hentry
    have hwalk : walk (some s.info) = s.info.walked := by rw [walk, Option.elim_some, if_neg hmsgs]
    have hmem : seq ∈ (t.hist.map Lib.Event.done).filterMap readSeq := by
      rw [h.walked, hinfos]
      refine (hwalk.symm ▸ ?_ : seq ∈ walk (some s.info))
      exact List.mem_range'_1.mpr ⟨hfirst, by omega⟩
    obtain ⟨d', hd', hseq⟩ := List.mem_filterMap.mp hmem
    obtain ⟨r, rfl⟩ := readSeq_eq_some hseq
    obtain ⟨s', hentry', rfl⟩ := hanswer hd'
    have hraw : (s'.exec {} (.getMsg seq)).1 = some raw := hentry'
    refine List.mem_filterMap.mpr ⟨_, hd', ?_⟩
    rw [hraw]
    exact hitem
  · obtain ⟨s, -, hr⟩ := hanswer hconnected
    cases hr
  · obtain ⟨s, -, hr⟩ := hanswer hstream
    cases hr

/-- **The list is faithful.**  The list is in the order of the numbers, each row of it shows what
was a listable entry of the stream at some moment of the run, and where no call fails, there is a
row for whatever listable entry stood in the stream all the while. -/
theorem listing_faithful (s : Shared) (as : List Act) {i : ℕ} {t : Thread} {a : Response}
    (ht : (after s as).threads[i]? = some t) (hl : t.label = .entries .messages)
    (hret : t.rest = .ret a) : ∃ rows : List Json, a.status = 200 ∧ a.body = .arr rows ∧
      rows.Pairwise Precedes ∧
      (∀ row ∈ rows, ∃ bs seq raw, bs <+: as ∧ (after s bs).shared.entry seq = some raw ∧
        Shows seq raw row) ∧
      (Succeeds t → ∀ seq raw entry, Stands t seq raw → Listable raw entry →
        ∃ row ∈ rows, RowOf seq raw entry row) := by
  have hlists := lists_of_ret hl hret
  refine ⟨_, by rw [hlists.answer, listResponse], by rw [hlists.answer, listResponse],
    hlists.sorted, fun row hrow => ?_, fun hsucceeds seq raw entry hstands hentry => ?_⟩
  · obtain ⟨item, hitem, rfl⟩ := List.mem_map.mp hrow
    obtain ⟨d, hd, hlisted⟩ := List.mem_filterMap.mp hitem
    obtain ⟨seq, raw, rfl, hentry⟩ := listed_eq_some hlisted
    obtain ⟨e, he, hdone⟩ := List.mem_map.mp hd
    obtain ⟨bs, hbs, hctx, hanswer⟩ := Machine.seen_in_run rfl (List.mem_of_getElem? ht) e he
    obtain ⟨x, hx⟩ := hanswer _ _ hdone
    exact ⟨bs, seq, raw, hbs, hctx ▸ entry_of_getMsg hx, shows_of_listEntry hentry⟩
  · obtain ⟨item, hitem, -⟩ := listEntry_of_parse seq hentry.decodes hentry.hasJob hentry.tells
    refine ⟨item.marshal, List.mem_map_of_mem (hlists.complete hsucceeds hstands hitem), ?_⟩
    obtain ⟨entry', hentry', hrow⟩ := shows_of_listEntry hitem
    obtain rfl := Option.some_inj.mp (hentry.decodes.symm.trans hentry'.decodes)
    exact hrow

/-- A dead letter is stored, and the list is asked for. -/
def listOne : List Act :=
  [.env (.storeDLQ (deadLetter "a")), .env (.request (.entries .messages))] ++
    List.replicate 4 (.op 0 {})

/-- The answer of a request that has come to its end as a list. -/
def answered (t : Thread) : Option Response :=
  match t.label, t.rest with
  | .entries .messages, .ret a => some a
  | _, _ => none

/-- How many rows an answer has. -/
def rowCount (a : Response) : ℕ :=
  match a.body with
  | .arr rows => rows.length
  | _ => 0

/-- The dead letter is in the list, in the only row. -/
theorem listing_faithful_one :
    let s : Shared := { stream := some { window := 120 * Time.second } }
    ∃ a row bs seq raw, ((after s listOne).threads[0]?).bind answered = some a ∧
      a.body = .arr [row] ∧ bs <+: listOne ∧ (after s bs).shared.entry seq = some raw ∧
      Shows seq raw row := by
  have hone : (((after { stream := some { window := 120 * Time.second } }
      listOne).threads[0]?).bind answered).map rowCount = some 1 := by decide +kernel
  obtain ⟨a, ha, hcount⟩ := Option.map_eq_some_iff.mp hone
  obtain ⟨t, ht, hanswer⟩ := Option.bind_eq_some_iff.mp ha
  obtain ⟨label, hist, rest, traced⟩ := t
  cases label with
  | entries l =>
    cases l with
    | messages =>
      cases rest with
      | ret a' =>
        obtain rfl : a' = a := Option.some_inj.mp hanswer
        obtain ⟨rows, -, hrows, -, hshown, -⟩ := listing_faithful _ listOne ht rfl rfl
        rw [rowCount, hrows] at hcount
        obtain ⟨row, rfl⟩ := List.length_eq_one_iff.mp hcount
        obtain ⟨bs, seq, raw, hbs, hentry, hshows⟩ := hshown row List.mem_cons_self
        exact ⟨a', row, bs, seq, raw, ha, hrows, hbs, hentry, hshows⟩
      | call o k => cases hanswer
    | reprocess body query => cases hanswer
  | _ => cases hanswer

end NatsDemo.Control.Desk
