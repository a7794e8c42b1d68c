import NatsDemo.Control.DLQ
import NatsDemo.Control.Replay
import NatsDemo.Lib.Run
import NatsDemo.Messaging.Publisher
import NatsDemo.Processor.Worker

/-!
# Observed messages

The observer counts the deliveries of three subscriptions and merges those that agree in
the id of the message and in its subject.  The id is the header `X-Message-Id`; a message
without one gets an id made of its subject and its body.

The text of a body is what `json.Marshal` makes of its document, and the parameter `encode`.
-/

namespace NatsDemo.Control
open Lib Go Jobs Messaging

/-! ## The observer -/

structure ObservedEvent where
  messageID : String
  jobID : String
  subject : String
  receivedBy : List String
  timestamp : Time

/-- What deliveries are merged by. -/
def ObservedEvent.pair (e : ObservedEvent) : String × String := (e.messageID, e.subject)

/-- What a further delivery adds to an event. -/
def ObservedEvent.receive (e : ObservedEvent) (subscription jobID : String) : ObservedEvent :=
  { e with
    jobID := if e.jobID = "" then jobID else e.jobID
    receivedBy :=
      if subscription ∈ e.receivedBy then e.receivedBy else e.receivedBy ++ [subscription] }

abbrev Observer := List ObservedEvent

namespace Observer

/-- Change the first event of a pair. -/
def receiveFirst (pair : String × String) (subscription jobID : String) : Observer → Observer
  | [] => []
  | e :: es =>
    if e.pair = pair then e.receive subscription jobID :: es
    else e :: receiveFirst pair subscription jobID es

/-- `RecordEvent`. -/
def recordEvent (o : Observer) (messageID subscription subject jobID : String) (now : Time) :
    Observer :=
  if (messageID, subject) ∈ o.map ObservedEvent.pair then
    receiveFirst (messageID, subject) subscription jobID o
  else
    let events := o ++ [⟨messageID, jobID, subject, [subscription], now⟩]
    if 100 < events.length then events.tail else events

end Observer

/-- The text of a body. -/
def textOf (encode : Json → String) (m : Msg) : String := (m.data.map encode).getD ""

/-- The id of a message that comes without one. -/
def fallbackID (encode : Json → String) (m : Msg) : String :=
  s!"fallback-{m.subject}-{textOf encode m}"

/-- The id under which a message is observed. -/
def observedID (encode : Json → String) (m : Msg) : String :=
  let msgID := m.header.get "X-Message-Id"
  if msgID = "" then fallbackID encode m else msgID

/-- What the deliveries of a message are merged by. -/
def observedPair (encode : Json → String) (m : Msg) : String × String :=
  (observedID encode m, m.subject)

/-- The callback of a subscription of the observer. -/
def Observer.onMessage (encode : Json → String) (subscription : String) (m : Msg) (now : Time)
    (o : Observer) : Observer :=
  if m.subject = "jobs.validate" then o
  else o.recordEvent (observedID encode m) subscription m.subject (m.header.get "Nats-Msg-Id") now

theorem Observer.pairs_receiveFirst (pair : String × String) (subscription jobID : String)
    (o : Observer) :
    (receiveFirst pair subscription jobID o).map ObservedEvent.pair = o.map ObservedEvent.pair := by
  induction o with
  | nil => rfl
  | cons e es ih =>
    rw [receiveFirst]
    split_ifs
    · rfl
    · rw [List.map_cons, List.map_cons, ih]

theorem Observer.nodup_recordEvent (messageID subscription subject jobID : String) (now : Time)
    {o : Observer} (ho : (o.map ObservedEvent.pair).Nodup) :
    ((o.recordEvent messageID subscription subject jobID now).map ObservedEvent.pair).Nodup := by
  rw [recordEvent]
  split_ifs with hmem
  · rw [pairs_receiveFirst]
    exact ho
  · have hnew : ((o.map ObservedEvent.pair) ++ [(messageID, subject)]).Nodup :=
      List.nodup_append_comm.mp (List.nodup_cons.mpr ⟨hmem, ho⟩)
    dsimp only
    split_ifs
    · rw [List.map_tail, List.map_append]
      exact hnew.tail
    · rw [List.map_append]
      exact hnew

/-- No two events have one pair, so messages with one pair share an event. -/
theorem Observer.nodup_onMessage (encode : Json → String) (subscription : String) (m : Msg)
    (now : Time) {o : Observer} (ho : (o.map ObservedEvent.pair).Nodup) :
    ((o.onMessage encode subscription m now).map ObservedEvent.pair).Nodup := by
  rw [onMessage]
  split_ifs
  · exact ho
  · exact nodup_recordEvent _ _ _ _ now ho

/-- A delivery of a message to a subscription of the observer. -/
structure Observer.Delivered where
  subscription : String
  msg : Msg
  now : Time

/-- The observer after some deliveries, in their order. -/
def Observer.afterAll (encode : Json → String) (ds : List Observer.Delivered) : Observer :=
  run (fun o (d : Observer.Delivered) => onMessage encode d.subscription d.msg d.now o) [] ds

theorem Observer.nodup_afterAll (encode : Json → String) (ds : List Observer.Delivered) :
    ((afterAll encode ds).map ObservedEvent.pair).Nodup :=
  run_inv_all (fun o : Observer => (o.map ObservedEvent.pair).Nodup)
    (fun _ d ho => nodup_onMessage encode d.subscription d.msg d.now ho) ds List.nodup_nil

/-- A delivery leaves an event of its pair, also where the oldest one had to go. -/
theorem Observer.mem_onMessage (encode : Json → String) (subscription : String) {m : Msg}
    (now : Time) (o : Observer) (hm : m.subject ≠ "jobs.validate") :
    observedPair encode m ∈ (o.onMessage encode subscription m now).map ObservedEvent.pair := by
  rw [onMessage, if_neg hm, recordEvent]
  split_ifs with hmem
  · rw [pairs_receiveFirst]
    exact hmem
  · let e : ObservedEvent :=
      ⟨observedID encode m, m.header.get "Nats-Msg-Id", m.subject, [subscription], now⟩
    have he : e.pair = observedPair encode m := rfl
    rw [← he]
    dsimp only
    split_ifs with hlen
    · have hne : o ≠ [] := by
        rintro rfl
        simp at hlen
      rw [List.tail_append_of_ne_nil hne]
      exact List.mem_map_of_mem (List.mem_append_right _ List.mem_cons_self)
    · exact List.mem_map_of_mem (List.mem_append_right _ List.mem_cons_self)

/-- An observed message has exactly one event right after a delivery, that of its pair. -/
theorem Observer.count_afterAll (encode : Json → String) (ds : List Observer.Delivered)
    {d : Observer.Delivered} (hd : d.msg.subject ≠ "jobs.validate") :
    ((afterAll encode (ds ++ [d])).map ObservedEvent.pair).count (observedPair encode d.msg) =
      1 := by
  refine List.count_eq_one_of_mem (nodup_afterAll encode (ds ++ [d])) ?_
  rw [afterAll, run_append]
  exact mem_onMessage encode d.subscription d.now _ hd

/-! ## What is published -/

/-- A message on its way to the bus, by the place in the two services that published it. -/
inductive Publication where
  | jobSubmitted (job : Job) (now : Time) (trace : GoMap String)
  | jobQueue (job : Job) (now : Time) (trace : GoMap String)
  | jobLifecycle (e : JobLifecycle) (now : Time)
  | jobValidate (job : Job) (now : Time) (trace : GoMap String)
  | requestSent (job : Job)
  | requestTimeout (job : Job)
  | replyReceived (job : Job)
  | replayed (data : Option Json) (seq : ℕ)
  | deadLetter (arch : Platform) (h : Processor.Handling) (now : Time)
  | repaired (item : DLQMessage) (t1 t2 t3 : Time)
  | reprocessed (item : DLQMessage)

namespace Publication

def msg : Publication → Msg
  | jobSubmitted job now trace => Messaging.jobSubmitted job now trace
  | jobQueue job now trace => Messaging.jobQueue job now trace
  | jobLifecycle e now => Messaging.jobLifecycle e now
  | jobValidate job now trace => Messaging.jobValidate job now trace
  | requestSent job => Messaging.requestSent job
  | requestTimeout job => Messaging.requestTimeout job
  | replyReceived job => Messaging.replyReceived job
  | replayed data seq => replayMsg data seq
  | deadLetter arch h now => h.dlqMsg arch now
  | repaired item t1 t2 t3 => repairedMsg item t1 t2 t3
  | reprocessed item => reprocessedEvent item

/-- The id with the time in it that the publisher gives the message, if it gives one. -/
def stamp : Publication → Option String
  | jobSubmitted job now _ => some s!"msg-sub-{job.jobID}-{now}"
  | jobQueue job now _ => some s!"msg-q-{job.jobID}-{now}"
  | jobLifecycle e now => some s!"msg-lf-{e.jobID}-{e.status}-{now}"
  | jobValidate job now _ => some s!"msg-val-{job.jobID}-{now}"
  | repaired item _ _ t3 => some s!"msg-rep-{item.jobID}-{t3}"
  | _ => none

/-- The header that the observer reads. -/
def headerID (p : Publication) : String := p.msg.header.get "X-Message-Id"

/-- All stamps start alike. -/
theorem head?_of_stamp {p : Publication} {x : String} (hp : p.stamp = some x) :
    x.toList.head? = some 'm' := by
  cases p with
  | jobSubmitted | jobQueue | jobLifecycle | jobValidate | repaired =>
    obtain rfl := Option.some_inj.mp hp
    simp only [String.toList_append, List.append_assoc]
    rfl
  | _ => cases hp

/-- No id made of subject and body is a stamp. -/
theorem fallbackID_ne_of_stamp {p : Publication} {x : String} (hp : p.stamp = some x)
    (encode : Json → String) (m : Msg) : fallbackID encode m ≠ x := by
  have hfallback : (fallbackID encode m).toList.head? = some 'f' := by
    simp only [fallbackID, String.toList_append, List.append_assoc]
    rfl
  intro h
  rw [h, head?_of_stamp hp] at hfallback
  cases hfallback

/-- The message goes without an id. -/
def Bare (p : Publication) : Prop := p.headerID = ""

/-- The message goes with another id than the one its publisher made. -/
def Foreign (p : Publication) : Prop := p.headerID ≠ "" ∧ p.stamp ≠ some p.headerID

end Publication

/-- The observer gets to see the message. -/
def Observed (m : Msg) : Prop := Subscribed "jobs.>" m.subject ∧ m.subject ≠ "jobs.validate"

instance : DecidablePred Observed := fun _ => inferInstanceAs (Decidable (_ ∧ _))

/-- What is observed of some publications, in their order. -/
def observed (ps : List Publication) : List Publication := ps.filter fun p => Observed p.msg

/-- No two observed messages are merged. -/
def Separate (encode : Json → String) (ps : List Publication) : Prop :=
  ((observed ps).map fun p => observedPair encode p.msg).Nodup

/-- No two stamps are the same. -/
def StampsUnique (ps : List Publication) : Prop := (ps.filterMap Publication.stamp).Nodup

/-- What two messages on one subject must differ in: bodies, if neither has an id, and ids where
one of them is foreign, also from those made for messages without one. -/
structure Differ (encode : Json → String) (p q : Publication) : Prop where
  bodies : p.Bare → q.Bare → textOf encode p.msg ≠ textOf encode q.msg
  ids : p.Foreign ∨ q.Foreign → p.headerID ≠ q.headerID
  fallback : p.Bare → q.Foreign → fallbackID encode p.msg ≠ q.headerID
  fallback' : p.Foreign → q.Bare → p.headerID ≠ fallbackID encode q.msg

/-- Messages on one subject differ as they must. -/
def Apart (encode : Json → String) (p q : Publication) : Prop :=
  p.msg.subject = q.msg.subject → Differ encode p q

section
variable {encode : Json → String} {p q : Publication}

theorem observedID_of_bare (hp : p.Bare) : observedID encode p.msg = fallbackID encode p.msg :=
  if_pos hp

theorem observedID_of_not_bare (hp : ¬ p.Bare) : observedID encode p.msg = p.headerID := if_neg hp

theorem fallbackID_inj (hsubject : p.msg.subject = q.msg.subject) :
    fallbackID encode p.msg = fallbackID encode q.msg ↔
      textOf encode p.msg = textOf encode q.msg := by
  simp only [fallbackID, hsubject, String.append_right_inj]
  exact Iff.rfl

theorem Publication.not_foreign_of_bare (hp : p.Bare) : ¬ p.Foreign := fun h => h.1 hp

/-- A message with an id has that of its publisher, or a foreign one. -/
theorem Publication.stamp_of_not_foreign (hp : ¬ p.Bare) (hforeign : ¬ p.Foreign) :
    p.stamp = some p.headerID := by
  by_contra hne
  exact hforeign ⟨hp, hne⟩

theorem differ_iff_of_bare (hsubject : p.msg.subject = q.msg.subject) (hp : p.Bare) (hq : q.Bare) :
    Differ encode p q ↔ observedID encode p.msg ≠ observedID encode q.msg := by
  have hp' := Publication.not_foreign_of_bare hp
  have hq' := Publication.not_foreign_of_bare hq
  rw [observedID_of_bare hp, observedID_of_bare hq, Ne, fallbackID_inj hsubject]
  constructor
  · intro h
    exact h.bodies hp hq
  · intro h
    exact ⟨fun _ _ => h, fun hf => absurd hf (not_or.mpr ⟨hp', hq'⟩), fun _ hf => absurd hf hq',
      fun hf => absurd hf hp'⟩

theorem differ_iff_of_bare_left (hp : p.Bare) (hq : ¬ q.Bare) :
    Differ encode p q ↔ observedID encode p.msg ≠ observedID encode q.msg := by
  have hp' := Publication.not_foreign_of_bare hp
  rw [observedID_of_bare hp, observedID_of_not_bare hq]
  constructor
  · intro h
    by_cases hforeign : q.Foreign
    · exact h.fallback hp hforeign
    · exact Publication.fallbackID_ne_of_stamp
        (Publication.stamp_of_not_foreign hq hforeign) encode _
  · intro h
    have hid : p.headerID ≠ q.headerID := by
      intro heq
      exact hq (heq.symm.trans hp)
    exact ⟨fun _ hbare => absurd hbare hq, fun _ => hid, fun _ _ => h, fun hf => absurd hf hp'⟩

theorem Differ.symm (h : Differ encode p q) : Differ encode q p :=
  ⟨fun hq hp => (h.bodies hp hq).symm, fun hf => (h.ids hf.symm).symm,
    fun hq hf => (h.fallback' hf hq).symm, fun hf hp => (h.fallback hp hf).symm⟩

theorem differ_iff_of_not_bare (hp : ¬ p.Bare) (hq : ¬ q.Bare)
    (hstamps : ∀ x, p.stamp = some x → ∀ y, q.stamp = some y → x ≠ y) :
    Differ encode p q ↔ observedID encode p.msg ≠ observedID encode q.msg := by
  rw [observedID_of_not_bare hp, observedID_of_not_bare hq]
  constructor
  · intro h
    by_cases hforeign : p.Foreign ∨ q.Foreign
    · exact h.ids hforeign
    · obtain ⟨hp', hq'⟩ := not_or.mp hforeign
      exact hstamps _ (Publication.stamp_of_not_foreign hp hp') _
        (Publication.stamp_of_not_foreign hq hq')
  · intro h
    exact ⟨fun hbare => absurd hbare hp, fun _ => h, fun hbare => absurd hbare hp,
      fun _ hbare => absurd hbare hq⟩

/-- With unique stamps, two messages on one subject have different ids exactly when they differ. -/
theorem differ_iff (hsubject : p.msg.subject = q.msg.subject)
    (hstamps : ∀ x, p.stamp = some x → ∀ y, q.stamp = some y → x ≠ y) :
    Differ encode p q ↔ observedID encode p.msg ≠ observedID encode q.msg := by
  by_cases hp : p.Bare
  · by_cases hq : q.Bare
    · exact differ_iff_of_bare hsubject hp hq
    · exact differ_iff_of_bare_left hp hq
  · by_cases hq : q.Bare
    · rw [ne_comm, ← differ_iff_of_bare_left hq hp]
      exact ⟨Differ.symm, Differ.symm⟩
    · exact differ_iff_of_not_bare hp hq hstamps

theorem observedPair_ne_iff (hstamps : ∀ x, p.stamp = some x → ∀ y, q.stamp = some y → x ≠ y) :
    observedPair encode p.msg ≠ observedPair encode q.msg ↔ Apart encode p q := by
  rw [Apart, observedPair, observedPair, Ne, Prod.mk.injEq, and_comm, not_and]
  refine imp_congr_right fun hsubject => ?_
  exact (differ_iff hsubject hstamps).symm

end

/-! ## Who sets an id -/

/-- The headers that neither the publisher nor the service sets: those of the job, and those of
the propagator. -/
def Publication.furtherHeaders : Publication → GoMap String
  | jobSubmitted job _ trace => job.headers.getD [] ++ trace
  | jobQueue _ _ trace | jobValidate _ _ trace => trace
  | _ => []

/-- Where these do not name the id, a message goes with its stamp, or bare if it has none. -/
theorem Publication.headerID_of_unnamed {p : Publication}
    (h : ∀ e ∈ p.furtherHeaders, e.1 ≠ "X-Message-Id") : p.headerID = p.stamp.getD "" := by
  cases p with
  | jobSubmitted job now trace =>
    have hjob : ∀ e ∈ job.headers.getD [], e.1 ≠ "X-Message-Id" :=
      fun e he => h e (List.mem_append_left _ he)
    have htrace : ∀ e ∈ trace, e.1 ≠ "X-Message-Id" := fun e he => h e (List.mem_append_right _ he)
    simp only [headerID, msg, Messaging.jobSubmitted, get_foldl_set_of_none htrace,
      get_setCustom_of_none hjob]
    simp [publisherHeader, stamp]
  | jobQueue job now trace =>
    have htrace : ∀ e ∈ trace, e.1 ≠ "X-Message-Id" := h
    simp only [headerID, msg, Messaging.jobQueue, get_foldl_set_of_none htrace]
    simp [stamp]
  | jobValidate job now trace =>
    have htrace : ∀ e ∈ trace, e.1 ≠ "X-Message-Id" := h
    simp only [headerID, msg, Messaging.jobValidate, get_foldl_set_of_none htrace]
    simp [stamp]
  | jobLifecycle e now => simp [headerID, msg, Messaging.jobLifecycle, stamp]
  | repaired item t1 t2 t3 => simp [headerID, msg, repairedMsg, stamp]
  | _ => rfl

/-- Then only the bodies of messages without a stamp matter. -/
theorem apart_iff_of_unnamed {encode : Json → String} {p q : Publication}
    (hp : ∀ e ∈ p.furtherHeaders, e.1 ≠ "X-Message-Id")
    (hq : ∀ e ∈ q.furtherHeaders, e.1 ≠ "X-Message-Id") :
    Apart encode p q ↔ (p.msg.subject = q.msg.subject → p.stamp = none → q.stamp = none →
      textOf encode p.msg ≠ textOf encode q.msg) := by
  have hkind {p : Publication} (h : ∀ e ∈ p.furtherHeaders, e.1 ≠ "X-Message-Id") :
      (p.Bare ↔ p.stamp = none) ∧ ¬ p.Foreign := by
    have hid := Publication.headerID_of_unnamed h
    rw [Publication.Bare, Publication.Foreign, hid]
    cases hstamp : p.stamp with
    | none => simp
    | some x =>
      have hne : x ≠ "" := by
        rintro rfl
        cases Publication.head?_of_stamp hstamp
      simp [hne]
  obtain ⟨hbare, hforeign⟩ := hkind hp
  obtain ⟨hbare', hforeign'⟩ := hkind hq
  refine imp_congr_right fun hsubject => ?_
  rw [← hbare, ← hbare']
  constructor
  · intro h
    exact h.bodies
  · intro h
    exact ⟨h, fun hf => absurd hf (not_or.mpr ⟨hforeign, hforeign'⟩),
      fun _ hf => absurd hf hforeign', fun hf => absurd hf hforeign⟩

/-- **When messages are observed separately.**  In a run whose stamps are unique, no two
observed messages are merged if and only if on each subject the messages without an id differ
in their bodies, and no id from elsewhere is that of another message. -/
theorem separate_iff (encode : Json → String) {ps : List Publication} (hstamps : StampsUnique ps) :
    Separate encode ps ↔ (observed ps).Pairwise (Apart encode) := by
  have hpairs : (observed ps).Pairwise fun p q =>
      ∀ x, p.stamp = some x → ∀ y, q.stamp = some y → x ≠ y :=
    (List.pairwise_filterMap.mp hstamps).sublist List.filter_sublist
  rw [Separate, List.Nodup, List.pairwise_map]
  constructor
  · intro h
    exact (hpairs.and h).imp fun ⟨hpq, hne⟩ => (observedPair_ne_iff hpq).mp hne
  · intro h
    exact (hpairs.and h).imp fun ⟨hpq, hapart⟩ => (observedPair_ne_iff hpq).mpr hapart

/-- The text of an event whose fields need no escapes. -/
def eventText : Json → String
  | .obj fields => "\x7b" ++ String.intercalate "," (fields.map fun e =>
      "\"" ++ e.1 ++ "\":" ++ scalarText e.2) ++ "\x7d"
  | v => scalarText v
where
  scalarText : Json → String
    | .str s => "\"" ++ s ++ "\""
    | .int n => toString n
    | _ => "null"

/-- A job is submitted twice and begins, and two are validated, the first without an answer. -/
def submittedAndValidated : List Publication :=
  [.jobSubmitted { jobID := "job-1", type := "data-sync" } 1 [],
   .jobSubmitted { jobID := "job-1", type := "data-sync" } 2 [],
   .jobLifecycle { subject := subjectJobReceived, jobID := "job-1", status := "RECEIVED" } 3,
   .requestSent { jobID := "job-1", type := "data-sync" },
   .requestTimeout { jobID := "job-1", type := "data-sync" },
   .requestSent { jobID := "job-2", type := "data-sync" }]

theorem separate_submittedAndValidated : Separate eventText submittedAndValidated := by
  have hstamps : StampsUnique submittedAndValidated := by
    rw [StampsUnique]
    decide
  refine (separate_iff eventText hstamps).mpr ?_
  have hobserved : observed submittedAndValidated = submittedAndValidated :=
    List.filter_eq_self.mpr (by decide)
  rw [hobserved]
  have hunnamed : ∀ p ∈ submittedAndValidated, ∀ e ∈ p.furtherHeaders, e.1 ≠ "X-Message-Id" := by
    decide
  have hbodies : submittedAndValidated.Pairwise fun p q => p.msg.subject = q.msg.subject →
      p.stamp = none → q.stamp = none → textOf eventText p.msg ≠ textOf eventText q.msg := by
    decide
  exact hbodies.imp_of_mem fun hp hq hpq =>
    (apart_iff_of_unnamed (hunnamed _ hp) (hunnamed _ hq)).mpr hpq

/-- One job is validated twice, and nobody answers the first request in time. -/
def validatedTwice : List Publication :=
  [.requestSent { jobID := "job-1", type := "data-sync" },
   .requestTimeout { jobID := "job-1", type := "data-sync" },
   .requestSent { jobID := "job-1", type := "data-sync" }]

/-- The two requests are merged, however bodies are written. -/
theorem not_separate_validatedTwice :
    StampsUnique validatedTwice ∧ ¬ ∃ encode, Separate encode validatedTwice := by
  refine ⟨List.nodup_nil, ?_⟩
  rintro ⟨encode, h⟩
  have hobserved : observed validatedTwice = validatedTwice := List.filter_eq_self.mpr (by decide)
  rw [Separate, hobserved] at h
  exact (List.nodup_cons.mp h).1 (List.mem_cons_of_mem _ List.mem_cons_self)

end NatsDemo.Control
