import NatsDemo.Control.Replay
import NatsDemo.Control.ReplayRequest
import NatsDemo.Lib.Firsts
import NatsDemo.Messaging.JetStream

/-!
# The range of a replay

A consumer of its own starts at the beginning of the range, and the end is left to the
callback, which takes the zero time for no end at all.
-/

namespace NatsDemo.Control
open Go Jobs Lib Messaging

/-! ## The replay -/

namespace ReplayRange

def deliverPolicy : ReplayRange → DeliverPolicy
  | time start _ => .byStartTime start
  | sequence start _ => .byStartSequence start

/-- The callback drops a message behind the end. -/
def drops : ReplayRange → StreamMsg → Bool
  | time _ stop, m => stop ≠ Instant.zero ∧ stop < m.time
  | sequence _ stop, m => 0 < stop ∧ stop < m.seq

end ReplayRange

def replayConsumer (range : ReplayRange) (replayMode : String) (now : Time) : ConsumerConfig where
  name := s!"replay-{now % 1000000}"
  filterSubject := subjectJobSubmitted
  ackPolicy := .none
  deliverPolicy := range.deliverPolicy
  replayPolicy := if replayMode = "original" then .original else .instant

/-- How the calls of a replay go: their errors, if they fail. -/
structure ReplayCalls where
  now : Time
  stream : Option String := none
  createConsumer : Option String := none
  deleteConsumer : Option String := none

/-- What a stored message is replayed as. -/
def replayOf (m : StreamMsg) : Msg := replayMsg m.msg.data m.seq

/-- `ReplayJobs`: the answer, what is published, and the streams when the replay is over. -/
def replayJobs (why : String) (calls : ReplayCalls) (b : Broker) (body : Option Json) :
    Response × List Msg × Broker :=
  let r := Go.unmarshal ReplayRequest.fields {} body
  if !r.2 then (failure 400 ("Invalid replay payload: " ++ why), [], b)
  else
    match replayRange r.1.normalise with
    | .error resp => (resp, [], b)
    | .ok range =>
      if calls.stream.isSome ∨ (b.get? "JOBS").isNone then
        (failure 400 "JOBS stream does not exist in JetStream", [], b)
      else
        let config := replayConsumer range r.1.replayMode calls.now
        match b.createConsumer "JOBS" config calls.createConsumer with
        | (some err, b) => (failure 400 ("failed to create replay consumer: " ++ err), [], b)
        | (none, b) =>
          let (ms, b) := b.consume "JOBS" config
          (⟨202, .obj [("consumer", .str config.name), ("status", .str "REPLAY_STARTED")]⟩,
            (ms.filter fun m => !range.drops m).map replayOf,
            (b.deleteConsumer "JOBS" config.name calls.deleteConsumer).2)

/-! ## What a replay covers -/

/-- The replays of some messages of a stream: of exactly those, of each once, in their order. -/
def Republishes (s : JetStream) (wanted : StreamMsg → Prop) (published : List Msg) : Prop :=
  ∃ picked : List StreamMsg, published = picked.map replayOf ∧
    picked.Pairwise (fun m m' => m.seq < m'.seq) ∧
    ∀ m, m ∈ picked ↔ m ∈ s.messages ∧ m.msg.subject = subjectJobSubmitted ∧ wanted m

/-- The replay covers the range of the request, and leaves JOBS and its consumer alone. -/
structure Covers (r : ReplayRequest) (s : JetStream) (published : List Msg) (b : Broker) :
    Prop where
  bySequence : ¬ r.ByTime → r.firstSequence ≤ r.lastSequence ∧
    Republishes s (fun m => r.firstSequence ≤ m.seq ∧ m.seq ≤ r.lastSequence) published
  byTime : r.ByTime → ∃ start, parseReplayTime r.startText = .ok start ∧
    Republishes s (fun m => start ≤ m.time ∧
      ∀ stop, parseReplayTime r.endText = .ok stop → m.time ≤ stop) published
  unchanged : ∃ s', b.get? "JOBS" = some s' ∧ s'.config = s.config ∧ s'.messages = s.messages ∧
    s'.nextSeq = s.nextSeq ∧
    s'.consumers.get? "job-processor" = s.consumers.get? "job-processor"
  /-- JOBS does not take in what is published. -/
  apart : ∀ m ∈ published, ∀ subject ∈ s.config.subjects, ¬ Subscribed subject m.subject

/-- The jobs that are stored from the position of the start time on are not older than it, and
where the end is the zero time they are not newer than that. -/
structure WithinTimes (r : ReplayRequest) (s : JetStream) : Prop where
  start : ∀ start, parseReplayTime r.startText = .ok start →
    ∀ m ∈ s.fromStart (.byStartTime start), m.msg.subject = subjectJobSubmitted → start ≤ m.time
  zeroEnd : parseReplayTime r.endText = .ok Instant.zero →
    ∀ start, parseReplayTime r.startText = .ok start →
      ∀ m ∈ s.fromStart (.byStartTime start), m.msg.subject = subjectJobSubmitted →
        m.time ≤ Instant.zero

/-! ## The replay of an accepted request -/

/-- The messages that the callback replays. -/
def replayed (range : ReplayRange) (s : JetStream) : List StreamMsg :=
  ((s.fromStart range.deliverPolicy).filter fun m => m.msg.subject = subjectJobSubmitted).filter
    fun m => !range.drops m

theorem replayConsumer_name_ne (range : ReplayRange) (replayMode : String) (now : Time) :
    "job-processor" ≠ (replayConsumer range replayMode now).name := by
  intro h
  have hprefix : (toString "replay-").toList = ['r', 'e', 'p', 'l', 'a', 'y', '-'] := by decide
  have hfirst := congrArg (fun x => x.toList.head?) h
  simp [replayConsumer, hprefix] at hfirst

/-- What a replay does with the streams: its consumer comes and goes. -/
theorem replayJobs_accepted {why : String} {calls : ReplayCalls} {b : Broker} {body : Option Json}
    {s : JetStream} (hs : b.get? "JOBS" = some s)
    (haccepted : (replayJobs why calls b body).1.status = 202) :
    ∃ range,
      replayRange (ReplayRequest.ofBody body).normalise = .ok range ∧
      (replayJobs why calls b body).2.1 = (replayed range s).map replayOf ∧
      ∃ consumers, consumers.get? "job-processor" = s.consumers.get? "job-processor" ∧
        (replayJobs why calls b body).2.2.get? "JOBS" = some { s with consumers := consumers } := by
  simp only [replayJobs, ReplayRequest.ofBody] at haccepted ⊢
  generalize Go.unmarshal ReplayRequest.fields {} body = r at haccepted ⊢
  cases hfits : r.2 with
  | false => simp [hfits, failure] at haccepted
  | true =>
    simp only [hfits, Bool.not_true, Bool.false_eq_true, if_false] at haccepted ⊢
    cases hrange : replayRange r.1.normalise with
    | error resp =>
      simp only [hrange, replayRange_error hrange] at haccepted
      cases haccepted
    | ok range =>
      simp only [hrange, hs] at haccepted ⊢
      split_ifs at haccepted ⊢ with hstream
      · cases haccepted
      refine ⟨range, rfl, ?_⟩
      have hname := replayConsumer_name_ne range r.1.replayMode calls.now
      cases hcreate : calls.createConsumer with
      | some err =>
        simp only [hcreate, Broker.createConsumer] at haccepted
        cases haccepted
      | none =>
        simp only [Broker.createConsumer, Broker.consume]
        have hcreated := Broker.get?_withConsumers hs fun cs =>
          cs.set (replayConsumer range r.1.replayMode calls.now).name
            { config := replayConsumer range r.1.replayMode calls.now }
        refine ⟨?_, ?_⟩
        · rw [hcreated]
          rfl
        · generalize (((b.withConsumers "JOBS" _).get? "JOBS").elim [] _ : List StreamMsg) = ms
          have hconsumed := Broker.get?_withConsumers hcreated fun cs =>
            cs.set (replayConsumer range r.1.replayMode calls.now).name
              { config := replayConsumer range r.1.replayMode calls.now
                delivered := ms.map StreamMsg.seq }
          cases hdelete : calls.deleteConsumer with
          | some err =>
            refine ⟨_, ?_, hconsumed⟩
            rw [GoMap.get?_set_of_ne _ _ hname, GoMap.get?_set_of_ne _ _ hname]
          | none =>
            refine ⟨_, ?_, Broker.get?_withConsumers hconsumed _⟩
            rw [GoMap.get?_filter_ne _ hname, GoMap.get?_set_of_ne _ _ hname,
              GoMap.get?_set_of_ne _ _ hname]

/-! ## What is replayed -/

section
variable {s : JetStream}

theorem seq_eq_of_replayOf_eq {m m' : StreamMsg} (h : replayOf m = replayOf m') :
    m.seq = m'.seq := by
  have hdata := congrArg Msg.data h
  simp only [replayOf, replayMsg, Option.some.injEq, Json.obj.injEq, List.cons.injEq,
    Prod.mk.injEq, Json.int.injEq, Nat.cast_inj] at hdata
  exact hdata.2.2.2.2.1.2

/-- The messages of a part of the stream are replayed as they should be if they are the ones
that should be. -/
theorem republishes_iff {kept : List StreamMsg} (hkept : kept.Sublist s.messages)
    (wanted : StreamMsg → Prop) : Republishes s wanted (kept.map replayOf) ↔
      ∀ m ∈ s.messages, m ∈ kept ↔ m.msg.subject = subjectJobSubmitted ∧ wanted m := by
  constructor
  · rintro ⟨picked, hmap, -, hpicked⟩ m hm
    have hsame : m ∈ kept ↔ m ∈ picked := by
      constructor
      · intro hmem
        have himage : replayOf m ∈ picked.map replayOf := hmap ▸ List.mem_map_of_mem hmem
        obtain ⟨m', hm', heq⟩ := List.mem_map.mp himage
        exact s.eq_of_seq_eq ((hpicked m').mp hm').1 hm (seq_eq_of_replayOf_eq heq) ▸ hm'
      · intro hmem
        have himage : replayOf m ∈ kept.map replayOf := hmap ▸ List.mem_map_of_mem hmem
        obtain ⟨m', hm', heq⟩ := List.mem_map.mp himage
        exact s.eq_of_seq_eq (hkept.subset hm') hm (seq_eq_of_replayOf_eq heq) ▸ hm'
    rw [hsame, hpicked, and_iff_right hm]
  · intro h
    refine ⟨kept, rfl, s.ordered.sublist hkept, ?_⟩
    intro m
    constructor
    · intro hmem
      have hm := hkept.subset hmem
      exact ⟨hm, (h m hm).mp hmem⟩
    · rintro ⟨hm, hwanted⟩
      exact (h m hm).mpr hwanted

theorem fromStart_sublist (s : JetStream) (policy : DeliverPolicy) :
    (s.fromStart policy).Sublist s.messages := by
  cases policy with
  | all => exact List.Sublist.refl _
  | byStartSequence seq => exact List.dropWhile_sublist _
  | byStartTime start => exact List.dropWhile_sublist _

theorem replayed_sublist (range : ReplayRange) (s : JetStream) :
    (replayed range s).Sublist s.messages :=
  List.filter_sublist.trans (List.filter_sublist.trans (fromStart_sublist s _))

theorem mem_replayed_iff {range : ReplayRange} {m : StreamMsg} : m ∈ replayed range s ↔
    m ∈ s.fromStart range.deliverPolicy ∧ m.msg.subject = subjectJobSubmitted ∧
      range.drops m = false := by
  rw [replayed, List.mem_filter, List.mem_filter, and_assoc]
  simp

/-- By sequence, what is replayed is the closed range. -/
theorem mem_replayed_sequence {start stop : ℕ} (hstop : 0 < stop) {m : StreamMsg}
    (hm : m ∈ s.messages) : m ∈ replayed (.sequence start stop) s ↔
      m.msg.subject = subjectJobSubmitted ∧ start ≤ m.seq ∧ m.seq ≤ stop := by
  have hfrom : m ∈ s.fromStart (.byStartSequence start) ↔ start ≤ m.seq := by
    have hordered : s.messages.Pairwise fun m m' =>
        decide (m'.seq < start) → decide (m.seq < start) := by
      refine s.ordered.imp ?_
      intro m m' hlt hpast
      have hseq : m'.seq < start := of_decide_eq_true hpast
      exact decide_eq_true (by omega)
    rw [JetStream.fromStart, mem_dropWhile_iff hordered]
    simp [hm]
  rw [mem_replayed_iff, ReplayRange.deliverPolicy, hfrom]
  simp only [ReplayRange.drops, hstop, true_and, decide_eq_false_iff_not, not_lt]
  tauto

/-- By time, what is replayed is the closed range as long as the position of the start and the
zero end do not let anything else through. -/
theorem republishes_time_iff {r : ReplayRequest} {start stop : Instant}
    (hstart : parseReplayTime r.startText = .ok start)
    (hstop : r.endText = "" ∧ stop = Instant.zero ∨
      parseReplayTime r.endText = .ok stop ∧ start < stop) :
    Republishes s (fun m => start ≤ m.time ∧
      ∀ stop, parseReplayTime r.endText = .ok stop → m.time ≤ stop)
      ((replayed (.time start stop) s).map replayOf) ↔ WithinTimes r s := by
  have hdrops (m : StreamMsg) : ReplayRange.drops (.time start stop) m = false ↔
      stop = Instant.zero ∨ m.time ≤ stop := by
    simp [ReplayRange.drops, imp_iff_not_or]
  rw [republishes_iff (replayed_sublist _ s)]
  simp only [mem_replayed_iff, hdrops, ReplayRange.deliverPolicy]
  constructor
  · intro h
    constructor
    · intro start' hstart' m hm hsubject
      obtain rfl := Except.ok.inj (hstart.symm.trans hstart')
      by_contra hold
      have hkept : stop = Instant.zero ∨ m.time ≤ stop := by
        rcases hstop with ⟨-, hzero⟩ | ⟨-, hlt⟩
        · exact .inl hzero
        · exact .inr ((not_le.mp hold).trans hlt).le
      exact hold ((h m ((fromStart_sublist s _).subset hm)).mp ⟨hm, hsubject, hkept⟩).2.1
    · intro hend start' hstart' m hm hsubject
      obtain rfl := Except.ok.inj (hstart.symm.trans hstart')
      have hzero : stop = Instant.zero := by
        rcases hstop with ⟨-, hzero⟩ | ⟨hparse, -⟩
        · exact hzero
        · exact Except.ok.inj (hparse.symm.trans hend)
      exact ((h m ((fromStart_sublist s _).subset hm)).mp ⟨hm, hsubject, .inl hzero⟩).2.2 _ hend
  · rintro ⟨hfrom, hzeroEnd⟩ m hm
    constructor
    · rintro ⟨hmem, hsubject, hkept⟩
      refine ⟨hsubject, hfrom start hstart m hmem hsubject, ?_⟩
      intro stop' hparse'
      rcases hstop with ⟨hempty, -⟩ | ⟨hparse, -⟩
      · exact absurd (hempty ▸ hparse') parseReplayTime_empty
      · obtain rfl := Except.ok.inj (hparse.symm.trans hparse')
        rcases hkept with rfl | hle
        · exact hzeroEnd hparse start hstart m hmem hsubject
        · exact hle
    · rintro ⟨hsubject, hle, hbound⟩
      refine ⟨mem_dropWhile_of_not hm (by simpa using hle), hsubject, ?_⟩
      rcases hstop with ⟨-, hzero⟩ | ⟨hparse, -⟩
      · exact .inl hzero
      · exact .inr (hbound stop hparse)

end

/-- JOBS with one job, stored in November 2023. -/
def oneJob : JetStream where
  config := jobsStreamConfig
  messages := [⟨1, 1700000000 * Instant.second, { subject := "jobs.submitted" }⟩]
  lastSeq := 1
  ordered := List.pairwise_singleton _ _
  numbered := by decide

def fromFirst : Option Json := some (.obj [("from_sequence", .int 1)])

/-- The times of the year 0. -/
def yearZero : Option Json :=
  some (.obj [("start_time", .str "0000-06-01T00:00"), ("end_time", .str "0001-01-01T00:00")])

end NatsDemo.Control
