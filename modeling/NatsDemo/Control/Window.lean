import NatsDemo.Control.Observer
import NatsDemo.Lib.Firsts

/-!
# Observation under interleaving

The subscriptions of the observer run on their own, so its calls come in any order.  A late
delivery of a message whose event had to go makes another one; where none comes too late, the
events are those of the last 100 messages, whatever the order of the calls.
-/

namespace NatsDemo.Control
open Lib Go

/-- A call of `RecordEvent`, with the time it finds. -/
structure Recorded where
  messageID : String
  subscription : String
  subject : String
  jobID : String
  now : Time

def Recorded.pair (c : Recorded) : String × String := (c.messageID, c.subject)

namespace Observer

def record (o : Observer) (c : Recorded) : Observer :=
  o.recordEvent c.messageID c.subscription c.subject c.jobID c.now

/-- The observer after some calls, in the order in which they got its lock. -/
def afterCalls (cs : List Recorded) : Observer := run record [] cs

/-- `GetEvents`, which copies all but the id of the message. -/
def getEvents (o : Observer) : List ObservedEvent := o.map fun e => { e with messageID := "" }

/-- The messages of some calls, by their first delivery. -/
def messages (cs : List Recorded) : List (String × String) :=
  (cs.map Recorded.pair).eraseDups

/-- A subscription delivers a message in one of the calls. -/
def Delivers (cs : List Recorded) (pair : String × String) (subscription : String) : Prop :=
  ∃ c ∈ cs, c.pair = pair ∧ c.subscription = subscription

/-- The events are well kept: one for each message, with no subscription twice, and no more
than 100. -/
structure Tidy (o : Observer) : Prop where
  pairs : (o.map ObservedEvent.pair).Nodup
  receivedBy : ∀ e ∈ o, e.receivedBy.Nodup
  length : o.length ≤ 100

/-- The events are those of the last messages, and each has the subscriptions that delivered
its message. -/
structure Merges (cs : List Recorded) (o : Observer) : Prop where
  pairs : o.map ObservedEvent.pair = (messages cs).rtake 100
  receivedBy : ∀ e ∈ o, ∀ subscription,
    subscription ∈ e.receivedBy ↔ Delivers cs e.pair subscription

/-- Between the first delivery of a message and any other one, fewer than 100 messages get
their first delivery. -/
def Timely (cs : List Recorded) : Prop :=
  ∀ before first between last after, cs = before ++ first :: (between ++ last :: after) →
    first.pair ∉ before.map Recorded.pair → last.pair = first.pair →
    (newIn ((before ++ [first]).map Recorded.pair) (between.map Recorded.pair)).length < 100

/-! ## One call -/

theorem mem_receive {e : ObservedEvent} {subscription jobID s : String} :
    s ∈ (e.receive subscription jobID).receivedBy ↔ s ∈ e.receivedBy ∨ s = subscription := by
  rw [ObservedEvent.receive]
  dsimp only
  split_ifs with hmem
  · constructor
    · exact Or.inl
    · rintro (h | rfl)
      · exact h
      · exact hmem
  · rw [List.mem_append, List.mem_singleton]

theorem nodup_receive {e : ObservedEvent} (he : e.receivedBy.Nodup) (subscription jobID : String) :
    (e.receive subscription jobID).receivedBy.Nodup := by
  rw [ObservedEvent.receive]
  dsimp only
  split_ifs with hmem
  · exact he
  · rw [← List.concat_eq_append]
    exact he.concat hmem

/-- With one event for each message, the first one of a message is the only one. -/
theorem receiveFirst_eq_map (pair : String × String) (subscription jobID : String) {o : Observer}
    (ho : (o.map ObservedEvent.pair).Nodup) :
    receiveFirst pair subscription jobID o =
      o.map fun e => if e.pair = pair then e.receive subscription jobID else e := by
  induction o with
  | nil => rfl
  | cons e es ih =>
    obtain ⟨hnew, hes⟩ := List.nodup_cons.mp ho
    rw [receiveFirst, List.map_cons]
    split_ifs with he
    · have hrest : ∀ e' ∈ es,
          (if e'.pair = pair then e'.receive subscription jobID else e') = id e' := by
        intro e' he'
        refine if_neg fun heq => hnew ?_
        rw [he, ← heq]
        exact List.mem_map_of_mem he'
      rw [List.map_congr_left hrest, List.map_id]
    · rw [ih hes]

/-- What a call does: it changes the event of its message, or it appends one and lets the
oldest go where there are too many. -/
theorem record_cases {o : Observer} (ho : (o.map ObservedEvent.pair).Nodup) (c : Recorded) :
    (c.pair ∈ o.map ObservedEvent.pair ∧
      o.record c = o.map fun e => if e.pair = c.pair then e.receive c.subscription c.jobID else e) ∨
    (c.pair ∉ o.map ObservedEvent.pair ∧
      ∃ e, e.pair = c.pair ∧ e.receivedBy = [c.subscription] ∧
        o.record c = if 100 < (o ++ [e]).length then (o ++ [e]).tail else o ++ [e]) := by
  by_cases hmem : c.pair ∈ o.map ObservedEvent.pair
  · refine Or.inl ⟨hmem, ?_⟩
    exact (if_pos hmem).trans (receiveFirst_eq_map c.pair c.subscription c.jobID ho)
  · refine Or.inr ⟨hmem, ⟨c.messageID, c.jobID, c.subject, [c.subscription], c.now⟩, rfl, rfl, ?_⟩
    exact if_neg hmem

theorem Tidy.record {o : Observer} (h : Tidy o) (c : Recorded) : Tidy (o.record c) := by
  have hpairs : ((o.record c).map ObservedEvent.pair).Nodup :=
    nodup_recordEvent _ _ _ _ c.now h.pairs
  rcases record_cases h.pairs c with ⟨-, heq⟩ | ⟨-, e, -, hby, heq⟩
  · refine ⟨hpairs, ?_, ?_⟩
    · rw [heq]
      intro e' he'
      obtain ⟨e, he, rfl⟩ := List.mem_map.mp he'
      split_ifs
      · exact nodup_receive (h.receivedBy e he) _ _
      · exact h.receivedBy e he
    · rw [heq, List.length_map]
      exact h.length
  · have hall : ∀ e' ∈ o ++ [e], e'.receivedBy.Nodup := by
      intro e' he'
      rcases List.mem_append.mp he' with he' | he'
      · exact h.receivedBy e' he'
      · rw [List.mem_singleton.mp he', hby]
        exact List.nodup_singleton _
    have hlen := h.length
    refine ⟨hpairs, ?_, ?_⟩
    · rw [heq]
      split_ifs
      · exact fun e' he' => hall e' (List.mem_of_mem_tail he')
      · exact hall
    · rw [heq]
      split_ifs with hmany
      · rw [List.length_tail, List.length_append, List.length_singleton]
        omega
      · omega

theorem delivers_concat {cs : List Recorded} {c : Recorded} {pair : String × String} {s : String} :
    Delivers (cs ++ [c]) pair s ↔ Delivers cs pair s ∨ (c.pair = pair ∧ c.subscription = s) := by
  simp [Delivers, or_and_right, exists_or]

theorem mem_pairs_of_delivers {cs : List Recorded} {pair : String × String} {s : String}
    (h : Delivers cs pair s) : pair ∈ cs.map Recorded.pair := by
  obtain ⟨c, hc, rfl, -⟩ := h
  exact List.mem_map_of_mem hc

/-- A call keeps the events merged, unless it comes too late: unless its message was delivered
before and has no event any more. -/
theorem Merges.record {cs : List Recorded} {o : Observer} (h : Merges cs o)
    (ho : (o.map ObservedEvent.pair).Nodup) {c : Recorded}
    (hlate : c.pair ∈ cs.map Recorded.pair → c.pair ∈ o.map ObservedEvent.pair) :
    Merges (cs ++ [c]) (o.record c) := by
  rcases record_cases ho c with ⟨hmem, heq⟩ | ⟨hmem, e, hpair, hby, heq⟩
  · have hold : c.pair ∈ cs.map Recorded.pair := by
      rw [h.pairs] at hmem
      exact List.mem_eraseDups.mp (List.mem_of_mem_drop hmem)
    refine ⟨?_, ?_⟩
    · have hkept : (o.record c).map ObservedEvent.pair = o.map ObservedEvent.pair := by
        rw [heq, List.map_map]
        refine List.map_congr_left fun e _ => ?_
        dsimp only [Function.comp_apply]
        split_ifs <;> rfl
      rw [hkept, h.pairs, messages, messages, List.map_append, List.map_singleton,
        eraseDups_concat_of_mem hold]
    · rw [heq]
      intro e' he' s
      obtain ⟨e, he, rfl⟩ := List.mem_map.mp he'
      rw [delivers_concat]
      split_ifs with hpair
      · rw [mem_receive, h.receivedBy e he s]
        have hsame : (e.receive c.subscription c.jobID).pair = e.pair := rfl
        rw [hsame]
        refine or_congr_right ?_
        rw [and_iff_right hpair.symm, eq_comm]
      · rw [h.receivedBy e he s]
        refine (or_iff_left ?_).symm
        rintro ⟨heq', -⟩
        exact hpair heq'.symm
  · have hnew : c.pair ∉ cs.map Recorded.pair := fun hmem' => hmem (hlate hmem')
    have hall : ∀ e' ∈ o ++ [e], ∀ s, s ∈ e'.receivedBy ↔ Delivers (cs ++ [c]) e'.pair s := by
      intro e' he' s
      rw [delivers_concat]
      rcases List.mem_append.mp he' with he' | he'
      · rw [h.receivedBy e' he' s]
        refine (or_iff_left ?_).symm
        rintro ⟨heq', -⟩
        exact hmem (heq' ▸ List.mem_map_of_mem he')
      · obtain rfl := List.mem_singleton.mp he'
        have hnone : ¬ Delivers cs e'.pair s := fun hd => hnew (hpair ▸ mem_pairs_of_delivers hd)
        rw [hby, List.mem_singleton, or_iff_right hnone, and_iff_right hpair.symm, eq_comm]
    refine ⟨?_, ?_⟩
    · have hmessages : messages (cs ++ [c]) = messages cs ++ [c.pair] := by
        rw [messages, List.map_append, List.map_singleton, eraseDups_concat_of_not_mem hnew,
          messages]
      rw [hmessages, rtake_concat (messages cs) c.pair 99, ← h.pairs, heq]
      simp only [List.length_append, List.length_map, List.length_singleton]
      split_ifs
      · rw [List.map_tail, List.map_append, List.map_singleton, hpair]
      · rw [List.map_append, List.map_singleton, hpair]
    · rw [heq]
      split_ifs
      · exact fun e' he' => hall e' (List.mem_of_mem_tail he')
      · exact hall

/-! ## All calls -/

theorem tidy_afterCalls (cs : List Recorded) : Tidy (afterCalls cs) :=
  run_inv_all Tidy (fun _ c h => h.record c) cs
    ⟨List.nodup_nil, List.forall_mem_nil _, Nat.zero_le 100⟩

theorem Timely.of_append {cs ds : List Recorded} (h : Timely (cs ++ ds)) : Timely cs := by
  rintro before first between last after rfl
  exact h before first between last (after ++ ds) (by simp)

/-- Where there are not even 100 calls between, none is late. -/
theorem timely_of_length {cs : List Recorded} (h : cs.length ≤ 101) : Timely cs := by
  rintro before first between last after rfl - -
  have hnew : (newIn ((before ++ [first]).map Recorded.pair)
      (between.map Recorded.pair)).length ≤ between.length := by
    have hsub := length_newIn_le ((before ++ [first]).map Recorded.pair)
      (between.map Recorded.pair)
    rwa [List.length_map] at hsub
  simp only [List.length_append, List.length_cons] at h
  omega

/-- The first delivery of a message. -/
theorem exists_first {cs : List Recorded} {pair : String × String}
    (h : pair ∈ cs.map Recorded.pair) : ∃ before first between,
      cs = before ++ first :: between ∧ first.pair = pair ∧ pair ∉ before.map Recorded.pair := by
  obtain ⟨ps, qs, hcs, hps⟩ := List.eq_append_cons_of_mem h
  obtain ⟨before, rest, rfl, rfl, hrest⟩ := List.map_eq_append_iff.mp hcs
  obtain ⟨first, between, rfl, hfirst, -⟩ := List.map_eq_cons_iff.mp hrest
  exact ⟨before, first, between, rfl, hfirst, hps⟩

/-- By induction over the calls: the message of a timely call is among the last 100, so it
still has its event. -/
theorem merges_afterCalls {cs : List Recorded} (h : Timely cs) : Merges cs (afterCalls cs) := by
  induction cs using List.reverseRecOn with
  | nil => exact ⟨rfl, List.forall_mem_nil _⟩
  | append_singleton cs c ih =>
    have hbefore := ih h.of_append
    rw [afterCalls, run_append]
    refine hbefore.record (tidy_afterCalls cs).pairs fun hold => ?_
    rw [hbefore.pairs]
    obtain ⟨before, first, between, rfl, hfirst, hnew⟩ := exists_first hold
    have hfew := h before first between c [] (by simp) (hfirst.symm ▸ hnew) hfirst.symm
    rw [List.map_append, List.map_singleton, hfirst] at hfew
    rw [messages, List.map_append, List.map_cons, hfirst]
    exact mem_rtake_eraseDups hnew hfew

/-- The events that are shown have the subjects of the last messages. -/
theorem subjects_getEvents {cs : List Recorded} (h : Timely cs) :
    (getEvents (afterCalls cs)).map ObservedEvent.subject =
      ((messages cs).rtake 100).map Prod.snd := by
  rw [← (merges_afterCalls h).pairs, getEvents, List.map_map, List.map_map]
  exact List.map_congr_left fun _ _ => rfl

/-- **Observation does not depend on the order.**  After any calls the events are well kept;
and where no call is late, they are those of the last 100 messages by their first delivery,
and each was received by just the subscriptions that delivered its message. -/
theorem observed_exactly (cs : List Recorded) :
    Tidy (afterCalls cs) ∧ (Timely cs → Merges cs (afterCalls cs)) :=
  ⟨tidy_afterCalls cs, merges_afterCalls⟩

/-- Two messages, the deliveries of which cross. -/
def crossing : List Recorded :=
  [⟨"m1", "exact", "jobs.submitted", "j1", 0⟩, ⟨"m2", "multi-level", "jobs.dlq", "", 1⟩,
   ⟨"m1", "multi-level", "jobs.submitted", "j1", 2⟩, ⟨"m2", "single-level", "jobs.dlq", "", 3⟩,
   ⟨"m1", "exact", "jobs.submitted", "j1", 4⟩]

theorem observed_crossing : Merges crossing (afterCalls crossing) :=
  (observed_exactly crossing).2 (timely_of_length (by decide))

end Observer

end NatsDemo.Control
