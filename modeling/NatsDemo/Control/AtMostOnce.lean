import NatsDemo.Control.World
import NatsDemo.Lib.Leases

/-!
# Reprocessing at most once

An entry is read, republished and deleted in three steps, and nothing keeps two requests
from being between the first and the last of them with one entry.  A request has an entry
from the moment it gets it until it comes back from publishing it.
-/

namespace NatsDemo.Control
open Lib Go Jobs Messaging

/-- The entries that JOBS holds a message of, in the order they were stored. -/
def Shared.origins (s : Shared) : List ℕ := s.jobs.records.filterMap fun r => r.body.origin

/-- No entry has caused two messages. -/
def AtMostOnce (s : State) : Prop := s.shared.origins.Nodup

/-- What a request has: the jobs it saw, and the entry it is about to publish. -/
structure Holding where
  seenJobs : List String := []
  entry : Option ℕ := none

def Holding.get (g : Holding) (filter : String) (seq : ℕ) (raw : Option RawMsg) : Holding :=
  match verdict filter g.seenJobs raw with
  | .take item => ⟨item.jobID :: g.seenJobs, some seq⟩
  | _ => { g with entry := none }

def note (g : Holding) : Label → (o : Call Op Label) → Call.Res Op.Res Response o → Holding
  | .reprocess body query, .prim (.getMsg seq), raw => g.get (requestedJobID body query) seq raw
  | _, .prim (.publishMsg _ _), _ => { g with entry := none }
  | _, _, _ => g

/-- A request publishes only the entry it has. -/
def publishing (l : Label) :
    Contract Shared (Call Op Label) (Call.Res Op.Res Response) Holding where
  pre g
    | .prim (.publishMsg origin _) => g.entry = some origin
    | _ => True
  ans _ _ _ _ := True
  next g _ := note g l

section
variable {l : Label} {g : Holding}

theorem wp_republish (seq : ℕ) (item : DLQMessage) (hg : g.entry = some seq) :
    (republish seq item).wp (publishing l) (fun _ g' => g'.seenJobs = g.seenJobs) g := by
  simp [republish, publishing, note, hg]

/-- The jobs that the loop has seen are those that the request is seen to hold. -/
theorem wp_reprocessEntry {body : Option Json} {query : String} (seq : ℕ) (s : Progress)
    (hg : g.seenJobs = s.seenJobs) :
    (reprocessEntry (requestedJobID body query) seq s).wp (publishing (.reprocess body query))
      (fun s' g' => g'.seenJobs = s'.seenJobs) g := by
  rw [reprocessEntry_eq]
  refine ⟨trivial, fun _ raw _ => ?_⟩
  show Proc.wp _ (carryOut seq s (verdict _ s.seenJobs raw)) _ (g.get _ seq raw)
  rw [Holding.get, hg]
  cases verdict (requestedJobID body query) s.seenJobs raw with
  | skip => rfl
  | drop => exact ⟨trivial, fun _ _ _ => rfl⟩
  | take item =>
    refine Proc.wp_bind.mpr (Proc.wp_mono (wp_republish seq item rfl) ?_)
    intro ok g' hg'
    exact hg'

theorem wp_reprocessAll {body : Option Json} {query : String} (seqs : List ℕ) (s : Progress)
    (hg : g.seenJobs = s.seenJobs) :
    (reprocessAll (requestedJobID body query) seqs s).wp (publishing (.reprocess body query))
      (fun _ _ => True) g := by
  induction seqs generalizing s g with
  | nil => trivial
  | cons seq seqs ih =>
    exact Proc.wp_bind.mpr (Proc.wp_mono (wp_reprocessEntry seq s hg) fun s' _ hg' => ih s' hg')

def Publishes : Call Op Label → Prop
  | .prim (.publishMsg _ _) => True
  | _ => False

theorem listAll_avoids (seqs : List ℕ) (messages : List DLQMessage) :
    (listAll seqs messages).Avoids Publishes := by
  induction seqs generalizing messages with
  | nil => trivial
  | cons seq seqs ih =>
    refine ⟨id, fun raw => ?_⟩
    cases raw with
    | none => exact ih messages
    | some raw => exact ih _

theorem getDLQMessages_avoids : getDLQMessages.Avoids Publishes := by
  simp only [getDLQMessages, op_eq, Proc.call_bind, Proc.ret_bind]
  refine ⟨id, fun connected => ?_⟩
  cases connected with
  | false => trivial
  | true =>
    refine ⟨id, fun stream => ?_⟩
    cases stream with
    | false => trivial
    | true =>
      refine ⟨id, fun info => ?_⟩
      cases info with
      | none => trivial
      | some info =>
        by_cases hmsgs : info.msgs = 0
        · simp [hmsgs]
        · have hlist := listAll_avoids info.walked []
          simp only [if_neg hmsgs]
          exact hlist.bind fun _ => trivial

theorem wp_reprocessDLQ (body : Option Json) (query : String) :
    (reprocessDLQ (requestedJobID body query)).wp (publishing (.reprocess body query))
      (fun _ _ => True) {} := by
  simp only [reprocessDLQ, op_eq, Proc.call_bind, Proc.ret_bind]
  refine ⟨trivial, fun _ connected _ => ?_⟩
  cases connected with
  | false => trivial
  | true =>
    refine ⟨trivial, fun _ stream _ => ?_⟩
    cases stream with
    | false => trivial
    | true =>
      refine ⟨trivial, fun _ info _ => ?_⟩
      cases info with
      | none => trivial
      | some info =>
        by_cases hmsgs : info.msgs = 0
        · simp [hmsgs]
        · simp only [if_neg hmsgs]
          exact Proc.wp_bind.mpr (wp_reprocessAll info.walked {} rfl)

theorem wp_handler (l : Label) : (handler l).wp (publishing l) (fun _ _ => True) {} := by
  cases l with
  | messages =>
    refine Proc.wp_of_avoids (fun _ => True) (fun _ _ _ _ _ _ => trivial) ?_
      getDLQMessages_avoids (fun _ _ _ => trivial) trivial
    intro g o ho _
    simp only [publishing]
    split
    · exact absurd trivial ho
    · trivial
  | reprocess body query => exact wp_reprocessDLQ body query

end

/-! ## The requests as holders of entries -/

def holding (t : Thread) : Holding :=
  run (fun g e => note g t.label e.op e.ans) {} t.hist

theorem holding_advance {t : Thread} {o : Call Op Label}
    {k : Call.Res Op.Res Response o → Prog Response} (hr : t.rest = .call o k) (c : Shared)
    (r : Call.Res Op.Res Response o) :
    holding (t.advance hr c r) = note (holding t) t.label o r := run_append _ t.hist [_]

/-- What is published is the entry that the request holds. -/
theorem entry_of_rest {t : Thread} {origin : ℕ} {m : Msg} {k : Bool → Prog Response}
    (hr : t.rest = .call (.prim (.publishMsg origin m)) k) : (holding t).entry = some origin := by
  have h := (t.traced.wp (wp_handler t.label) (meets_of_mem (fun _ _ _ => trivial) _)).2
  rw [hr] at h
  exact h.1

/-- The entries done are those republished, and each request has the one it holds. -/
def leases (s : State) : Leases ℕ where
  done := s.shared.origins
  taken := s.threads.map fun t => (holding t).entry

/-- The entry that a request takes with its next call. -/
def taking (t : Thread) (x : Choice) (s : Shared) : Option ℕ :=
  match t.label, t.rest with
  | .reprocess body query, .call (.prim (.getMsg seq)) _ =>
    ((holding t).get (requestedJobID body query) seq (s.exec x (.getMsg seq)).1).entry
  | _, _ => none

/-- A request takes an entry only when JOBS holds no message of it, and no other request
has it. -/
def TakesFree (s : State) : Act → Prop
  | .env _ => True
  | .op i x => ∀ t ∈ s.threads[i]?, ∀ seq ∈ taking t x s.shared, (leases s).Free i seq

instance (s : State) : ∀ a : Act, Decidable (TakesFree s a)
  | .env _ => inferInstanceAs (Decidable True)
  | .op i x =>
    inferInstanceAs (Decidable (∀ t ∈ s.threads[i]?, ∀ seq ∈ taking t x s.shared, _))

instance (s : State) : Decidable (AtMostOnce s) := inferInstanceAs (Decidable (List.Nodup _))

theorem origins_publish {l : Log String Stored} (now : Time) (id : Option String) (job : Stored) :
    (l.publish now id job).records.filterMap (fun r => r.body.origin) =
      l.records.filterMap (fun r => r.body.origin) ∨
    (l.publish now id job).records.filterMap (fun r => r.body.origin) =
      l.records.filterMap (fun r => r.body.origin) ++ job.origin.toList := by
  by_cases hdup : l.Duplicate now id
  · exact Or.inl (by rw [Log.publish_of_duplicate hdup])
  · refine Or.inr ?_
    rw [Log.publish_of_not_duplicate hdup]
    cases h : job.origin <;> simp [h]

theorem origins_input (s : Shared) (e : Input) : (s.input e).1.origins = s.origins := by
  cases e with
  | storeJob m =>
    rcases origins_publish (l := s.jobs) s.clock m.msgID ⟨none, m⟩ with h | h
    · exact h
    · exact h.trans (List.append_nil _)
  | _ => rfl

section
variable {s : State} {i : ℕ} {t : Thread}

theorem leases_set (u : Thread) (sh : Shared) :
    leases ⟨sh, s.threads.set i u⟩ =
      ⟨sh.origins, (leases s).taken.set i (holding u).entry⟩ := by
  simp [leases, List.map_set]

theorem leases_start (sh : Shared) (ts : List Thread) (ls : List Label) :
    leases ⟨sh, ts ++ ls.map .start⟩ = (leases ⟨sh, ts⟩).join ls.length := by
  have hstart (l : Label) : (holding (.start l)).entry = none := rfl
  simp [leases, Leases.join, Function.comp_def, hstart]

/-- A call that neither gets nor publishes an entry does not show. -/
theorem exclusive_other {o : Call Op Label} {k : Call.Res Op.Res Response o → Prog Response}
    (hs : (leases s).Exclusive)
    (ht : s.threads[i]? = some t) (hr : t.rest = .call o k) (r : Call.Res Op.Res Response o)
    (hget : ∀ seq, o ≠ .prim (.getMsg seq)) (hpub : ∀ origin m, o ≠ .prim (.publishMsg origin m))
    {sh : Shared} (hsh : sh.origins = s.shared.origins) :
    (leases ⟨sh, s.threads.set i (t.advance hr s.shared r)⟩).Exclusive := by
  have hnote : note (holding t) t.label o r = holding t := by
    simp only [note]
    split
    · exact absurd rfl (hget _)
    · exact absurd rfl (hpub _ _)
    · rfl
  have htaken : (s.threads.set i (t.advance hr s.shared r)).map (fun t => (holding t).entry) =
      s.threads.map fun t => (holding t).entry :=
    Machine.map_set_same ht (by rw [holding_advance, hnote])
  simp only [leases, htaken, hsh]
  exact hs

theorem exclusive_getMsg {x : Choice} {seq : ℕ} {k : Option RawMsg → Prog Response}
    (hs : (leases s).Exclusive) (ha : TakesFree s (.op i x)) (ht : s.threads[i]? = some t)
    (hr : t.rest = .call (.prim (.getMsg seq)) k) :
    (leases ⟨s.shared, s.threads.set i
      (t.advance hr s.shared (s.shared.exec x (.getMsg seq)).1)⟩).Exclusive := by
  rw [leases_set, holding_advance]
  cases hl : t.label with
  | messages =>
    have hsame : (leases s).taken.set i (holding t).entry = (leases s).taken := by
      rw [leases, ← List.map_set]
      exact Machine.map_set_same ht rfl
    show Leases.Exclusive ⟨_, (leases s).taken.set i (holding t).entry⟩
    rw [hsame]
    exact hs
  | reprocess body query =>
    show Leases.Exclusive ⟨_, (leases s).taken.set i ((holding t).get _ seq _).entry⟩
    cases hentry : ((holding t).get (requestedJobID body query) seq
        (s.shared.exec x (.getMsg seq)).1).entry with
    | none => exact hs.release i
    | some q =>
      have htaking : taking t x s.shared = some q := by simp only [taking, hl, hr, hentry]
      exact hs.take (ha t ht q htaking)

theorem exclusive_publishMsg {x : Choice} {origin : ℕ} {m : Msg} {k : Bool → Prog Response}
    (hs : (leases s).Exclusive) (ht : s.threads[i]? = some t)
    (hr : t.rest = .call (.prim (.publishMsg origin m)) k) :
    (leases ⟨(s.shared.exec x (.publishMsg origin m)).2, s.threads.set i
      (t.advance hr s.shared x.ok)⟩).Exclusive := by
  have htaken : (leases s).taken[i]? = some (some origin) := by
    simp [leases, ht, entry_of_rest hr]
  have hnone : (holding (t.advance hr s.shared x.ok)).entry = none := by
    rw [holding_advance]
    cases t.label <;> rfl
  rw [leases_set, hnone]
  have hdone : (s.shared.exec x (.publishMsg origin m)).2.origins = s.shared.origins ∨
      (s.shared.exec x (.publishMsg origin m)).2.origins = s.shared.origins ++ [origin] := by
    cases hx : x.done with
    | false => exact Or.inl (by simp [Shared.exec, hx])
    | true =>
      simp only [Shared.exec, hx, if_true]
      exact origins_publish s.shared.clock _ ⟨some origin, m⟩
  cases hdone with
  | inl hsame =>
    rw [hsame]
    exact hs.release i
  | inr hstored =>
    rw [hstored]
    exact hs.finish htaken

theorem exclusive_step {a : Act} (hs : (leases s).Exclusive) (ha : TakesFree s a) :
    (leases (stepWorld s a)).Exclusive := by
  have h := Machine.step_spec s a
  rw [stepWorld]
  generalize Machine.step s a = s' at h
  cases h with
  | idle => exact hs
  | env e =>
    have hdone : (world.env e s.shared).1.origins = s.shared.origins := origins_input s.shared e
    rw [leases_start]
    simp only [leases, hdone]
    exact hs.join _
  | @prim i t o k x ht hr =>
    cases o with
    | getMsg seq => exact exclusive_getMsg hs ha ht hr
    | publishMsg origin m => exact exclusive_publishMsg hs ht hr
    | deleteMsg seq =>
      have hdone : (s.shared.exec x (.deleteMsg seq)).2.origins = s.shared.origins := by
        simp only [Shared.exec]
        split
        · cases seq <;> rfl
        · rfl
      exact exclusive_other hs ht hr _ (by simp) (by simp) hdone
    | _ => exact exclusive_other hs ht hr _ (by simp) (by simp) rfl
  | @fork i t l k x ht hr =>
    have hjoin := (exclusive_other hs ht hr s.threads.length (by simp) (by simp) rfl).join 1
    exact (leases_start s.shared _ [l]) ▸ hjoin
  | await x ht hr hu hret => exact exclusive_other hs ht hr _ (by simp) (by simp) rfl

end

/-- **When reprocessing is at most once.**  In a run in which a request takes an entry only
when nothing was made of it and no other request has it, no entry causes two messages. -/
theorem atMostOnce_of_takesFree (dlq : Log String Msg) {as : List Act}
    (h : Meets stepWorld TakesFree (State.start dlq) as) :
    Throughout stepWorld AtMostOnce (State.start dlq) as := by
  refine throughout_of_inv (fun s => (leases s).Exclusive) (fun _ hs => hs.nodup)
    (fun _ _ hs ha => exclusive_step hs ha) ?_ h
  exact ⟨List.nodup_nil, fun i seq hi => by simp [leases, State.start] at hi⟩

/-- The dead letters of two jobs. -/
def twoDeadLetters : Log String Msg where
  window := 120 * Time.second
  records := [⟨none, 0, deadLetter "a", false⟩, ⟨none, 0, deadLetter "b", false⟩]

/-- Two requests at once, each for a job of its own: the second reads the first entry before the
first has published it, and the first reads the second entry while the other is about it. -/
def apart : List Act :=
  [.env (.request (.reprocess none "a")), .env (.request (.reprocess none "b"))] ++ calls 0 4 ++
    calls 1 5 ++ calls 0 7 ++ calls 1 7

theorem atMostOnce_two_requests :
    Throughout stepWorld AtMostOnce (State.start twoDeadLetters) apart :=
  atMostOnce_of_takesFree twoDeadLetters (by decide +kernel)

/-- A stream that holds one dead letter. -/
def oneDeadLetter : Log String Msg where
  window := 120 * Time.second
  records := [⟨none, 0, deadLetter "a", false⟩]

/-- A request comes in; its calls up to the third get it to the entry, which the fourth
gets, the eighth publishes and the ninth deletes. -/
def request : Act := .env (.request (.reprocess none ""))

/-- Two requests get the entry before either publishes it. -/
def interleaved : List Act :=
  [request, request] ++ calls 0 4 ++ calls 1 4 ++ calls 0 6 ++ [.env (.tick 1)] ++ calls 1 6

/-- The entry of a request is not deleted, and a second request comes in. -/
def retried : List Act :=
  [request] ++ calls 0 8 ++ [.op 0 { ok := false }] ++ calls 0 1 ++ [.env (.tick 1), request] ++
    calls 1 10

theorem not_atMostOnce :
    ¬ AtMostOnce (run stepWorld (State.start oneDeadLetter) interleaved) ∧
    ¬ AtMostOnce (run stepWorld (State.start oneDeadLetter) retried) := by
  decide +kernel

end NatsDemo.Control
