import NatsDemo.Control.Broadcast
import NatsDemo.Processor.Turns

/-!
# The activity log of a run

What the goroutines of a processor publish in a run comes to the tracker as one publication
after the other, along with what the other services publish.  `Heard` is what the tracker gets,
in its order; the listing is that of what was told in it since the log was last cleared.
-/

namespace NatsDemo.Processor.Service
open Lib Go Control

variable {arch : Platform}

/-! ## The events of a processor -/

/-- A call publishes an event of a kind unknown to the tracker, or one of an attempt that nobody
has counted. -/
def Stray (l : Label) : Call Op Label → Prop
  | .prim (.publishJobLifecycle e) =>
    (e.subject, e.status) ∉ lifecycleKinds ∨ l.kind ≠ .core ∧ e.deliveryCount ≠ 1
  | _ => False

theorem avoids_stray (l : Label) : (program arch l).Avoids (Stray l) := by
  have hother (h : l.kind ∉ [.core, .queue, .validate]) : (program arch l).Avoids (Stray l) := by
    refine program_avoids fun o ho hmem => ?_
    cases o with
    | prim o =>
      cases o with
      | publishJobLifecycle e => exact h hmem
      | _ => exact ho
    | _ => exact ho
  cases l with
  | core m =>
    have hbody : program arch (.core m) = (taken m).elim (pure false) fun r =>
        processCore arch r.1 r.2 := jobSubmittedCallback_eq arch m
    rw [hbody]
    cases taken m with
    | none => trivial
    | some r => simp [processCore, coreEvent, Stray, Label.kind, lifecycleKinds]
  | queue m w =>
    simp only [program, handleQueueMessage]
    cases Jobs.Job.parse m.data with
    | none => trivial
    | some job => simp [Stray, lifecycleKinds]
  | validate m w =>
    simp only [program, jobValidateCallback]
    cases Jobs.Job.parse m.data with
    | none => simp [Stray]
    | some job =>
      refine ⟨by simp [Stray], fun enabled => ?_⟩
      cases enabled with
      | true => simp [Stray, lifecycleKinds, Proc.bind]
      | false => trivial
  | _ => exact hother (by simp [Label.kind])

/-- The event has been published by a goroutine of the run. -/
def PublishedIn (arch : Platform) (as : List Act) (e : LifecycleEvent) : Prop :=
  ∃ (i : ℕ) (t : Thread arch), (after arch as).threads[i]? = some t ∧ e ∈ published t

theorem not_stray_of_published {t : Thread arch} {e : LifecycleEvent} (he : e ∈ published t) :
    ¬ Stray t.label (.prim (.publishJobLifecycle e)) := by
  obtain ⟨⟨o, r⟩, hd, hevent⟩ := List.mem_filterMap.mp he
  obtain ⟨c, hc, hop⟩ := List.mem_filterMap.mp hd
  obtain ⟨⟨state, c, r'⟩, hmem, rfl⟩ := List.mem_map.mp hc
  have havoid := t.traced.not_mem (avoids_stray t.label) _ hmem
  cases c with
  | prim o' =>
    cases Option.some_inj.mp hop
    cases o with
    | publishJobLifecycle e' =>
      obtain rfl := Option.some_inj.mp hevent
      exact havoid
    | _ => cases hevent
  | fork l => cases hop
  | await i => cases hop

theorem PublishedIn.kind {as : List Act} {e : LifecycleEvent} (he : PublishedIn arch as e) :
    (e.subject, e.status) ∈ lifecycleKinds := by
  obtain ⟨i, t, -, he⟩ := he
  exact not_not.mp (not_or.mp (not_stray_of_published he)).1

/-- No job is attempted more often than there are steps. -/
theorem le_of_mem_draws {as : List Act} {jobID : String} {i n : ℕ}
    (h : (i, n) ∈ draws arch as jobID) : n ≤ as.length := by
  have hmem := List.mem_map_of_mem (f := Prod.snd) h
  rw [draws_snd, List.mem_range'_1] at hmem
  have hdraws : (draws arch as jobID).length ≤ (deeds arch as).length :=
    List.length_filterMap_le _ _
  have hdeeds : (deeds arch as).length ≤ as.length := Machine.length_journal_le _ as
  omega

theorem PublishedIn.count {as : List Act} (hlen : as.length < 2 ^ 63) {e : LifecycleEvent}
    (he : PublishedIn arch as e) : e.deliveryCount < 2 ^ 63 := by
  obtain ⟨i, t, ht, he⟩ := he
  by_cases hcore : t.label.kind = .core
  · obtain ⟨m, hlabel⟩ : ∃ m, t.label = .core m := by
      cases hlabel : t.label with
      | core m => exact ⟨m, rfl⟩
      | _ => rw [hlabel] at hcore; cases hcore
    obtain ⟨jobID, n, hattempt⟩ := attempt_of_published arch ht hlabel (List.ne_nil_of_mem he)
    have hn := le_of_mem_draws hattempt.drawn
    have hcount := (hattempt.of_mem arch he).2
    omega
  · have hone := not_and.mp (not_or.mp (not_stray_of_published he)).2 hcore
    rw [not_not] at hone
    omega

end NatsDemo.Processor.Service

namespace NatsDemo.Control
open Lib Go Messaging

/-! ## What the tracker gets -/

/-- An event of a goroutine, as it is given to the publisher. -/
def lifecycleOf (e : Processor.LifecycleEvent) : JobLifecycle :=
  ⟨e.subject, e.jobID, e.status, e.deliveryCount, e.error, e.worker, e.deliveryMode, 0⟩

/-- What comes to the tracker: a message on the bus, with the text of the error that the decoder
may have, or a request. -/
inductive Heard where
  | message (p : Publication) (why : String) (now : Time)
  | clearActivities
  | getActivities

/-- The tracker gets the messages that it has subscribed to. -/
def Tracker.hear (zone : Time → Time) (t : Tracker) : Heard → Tracker
  | .message p why now =>
    if Subscribed "jobs.>" p.msg.subject then t.onMessage zone why p.msg now else t
  | .clearActivities => t.clearActivities
  | .getActivities => t

namespace Heard

/-- The call that this comes to. -/
def call : Heard → Option TrackerCall
  | message p _ now => p.told.map fun e => .addEvent e now
  | clearActivities => some .clearActivities
  | getActivities => some .getActivities

def told : Heard → Option (Event × Time)
  | message p _ now => p.told.map fun e => (e, now)
  | _ => none

def clears : Heard → Bool
  | clearActivities => true
  | _ => false

end Heard

/-- What has been told since the last clear, the latest first. -/
def toldSince (hs : List Heard) : List (Event × Time) :=
  (hs.reverse.takeWhile fun h => !h.clears).filterMap Heard.told

/-- A publication that is made as the services make it, or an event of a processor in a run. -/
def Publication.Authentic (arch : Platform) (as : List Processor.Service.Act) (p : Publication) :
    Prop :=
  p.Plain ∨ ∃ e now, Processor.Service.PublishedIn arch as e ∧ p = jobLifecycle (lifecycleOf e) now

theorem Publication.plain_of_authentic {arch : Platform} {as : List Processor.Service.Act}
    (hlen : as.length < 2 ^ 63) {p : Publication} (hp : p.Authentic arch as) : p.Plain := by
  obtain hp | ⟨e, now, he, rfl⟩ := hp
  · exact hp
  · have hcount := he.count hlen
    refine ⟨List.forall_mem_nil _, ?_, nofun⟩
    intro l now' h
    obtain ⟨rfl, -⟩ := Publication.jobLifecycle.inj h
    refine ⟨he.kind, ?_, Nat.two_pow_pos 64⟩
    simp only [lifecycleOf, minInt, maxInt]
    omega

/-! ## The log -/

variable {arch : Platform} {as : List Processor.Service.Act}

/-- What the tracker gets is authentic. -/
def Heard.Authentic (arch : Platform) (as : List Processor.Service.Act) : Heard → Prop
  | message p _ _ => p.Authentic arch as
  | _ => True

theorem Tracker.hear_eq (zone : Time → Time) (t : Tracker) {h : Heard} (hlen : as.length < 2 ^ 63)
    (hh : h.Authentic arch as) : t.hear zone h = h.call.elim t (t.call zone) := by
  cases h with
  | message p why now =>
    have hp := Publication.plain_of_authentic hlen hh
    rw [hear, Heard.call]
    split_ifs with hlistens
    · rw [hp.onMessage_eq hlistens]
      cases p.told with
      | none => rfl
      | some e => rfl
    · have hnone : p.told = none := by
        cases he : p.event with
        | none => simp [Publication.told, he]
        | some e => exact absurd (hp.listensTo he).1 hlistens
      rw [hnone]
      rfl
  | clearActivities => rfl
  | getActivities => rfl

/-- What is heard makes the tracker what the calls make it. -/
theorem run_hear (zone : Time → Time) (hlen : as.length < 2 ^ 63) {hs : List Heard}
    (hhs : ∀ h ∈ hs, h.Authentic arch as) :
    run (Tracker.hear zone) {} hs = Tracker.after zone (hs.filterMap Heard.call) := by
  induction hs using List.reverseRecOn with
  | nil => rfl
  | append_singleton hs h ih =>
    have hinit : ∀ h' ∈ hs, h'.Authentic arch as :=
      fun h' hmem => hhs h' (List.mem_append_left _ hmem)
    have hlast : h.Authentic arch as := hhs h (List.mem_append_right _ List.mem_cons_self)
    rw [run_append, run_cons, run_nil, ih hinit, List.filterMap_append,
      Tracker.hear_eq zone _ hlen hlast]
    cases hcall : h.call with
    | none => simp [hcall]
    | some c => simp [hcall, Tracker.after, run_append]

theorem toldSince_concat (hs : List Heard) (h : Heard) : toldSince (hs ++ [h]) =
    if h.clears then [] else h.told.toList ++ toldSince hs := by
  cases hclears : h.clears <;> cases htold : h.told <;> simp [toldSince, hclears, htold]

theorem sinceClear_filterMap (hs : List Heard) :
    sinceClear (hs.filterMap Heard.call) = toldSince hs := by
  induction hs using List.reverseRecOn with
  | nil => rfl
  | append_singleton hs h ih =>
    rw [List.filterMap_append, toldSince_concat, ← ih]
    cases h with
    | message p why now =>
      cases htold : p.told with
      | none => simp [Heard.call, Heard.told, Heard.clears, htold]
      | some e =>
        simp [Heard.call, Heard.told, Heard.clears, htold, sinceClear_concat, TrackerCall.clears,
          TrackerCall.event]
    | clearActivities => simp [Heard.call, Heard.clears, sinceClear_concat, TrackerCall.clears]
    | getActivities =>
      simp [Heard.call, Heard.told, Heard.clears, sinceClear_concat, TrackerCall.clears,
        TrackerCall.event]

/-- **The log tells what was published.**  Whatever the services publish, and the processor in a
run, in whatever order it comes, the listing is that of just what it is about. -/
theorem log_faithful (zone : Time → Time) (hlen : as.length < 2 ^ 63) {hs : List Heard}
    (hhs : ∀ h ∈ hs, h.Authentic arch as) :
    Lists zone (toldSince hs) (run (Tracker.hear zone) {} hs).getActivities := by
  rw [run_hear zone hlen hhs, ← sinceClear_filterMap]
  exact (Tracker.getActivities_lists zone _).1

/-- A Core job is processed, and its events are heard out of order between a clear and a job on a
subject of its own. -/
def oneCoreJob : List Processor.Service.Act :=
  let job : Msg := { subject := subjectJobSubmitted, data := some (.obj [("job_id", .str "a")]) }
  [.env (.input (.control (.subscribeCore true))), .env (.input (.store job)),
    .op 0 {}, .op 0 {}, .op 0 {}, .op 0 {}, .op 0 {}, .op 0 {}]

theorem log_faithful_core :
    let received : Processor.LifecycleEvent :=
      ⟨subjectJobReceived, "a", "RECEIVED", 1, "", "processor-1", "CORE"⟩
    let completed : Processor.LifecycleEvent :=
      ⟨subjectJobCompleted, "a", "COMPLETED", 1, "", "processor-1", "CORE"⟩
    let job : Jobs.Job := { jobID := "a", type := "data-sync", deliveryMode := "CORE" }
    let other : Jobs.Job := { jobID := "b", type := "email", subject := "jobs.reports" }
    let hs : List Heard := [.clearActivities,
      .message (.jobLifecycle (lifecycleOf completed) 9) "" 10,
      .message (.jobSubmitted job 1 []) "" 11,
      .message (.jobLifecycle (lifecycleOf received) 8) "" 12,
      .message (.jobSubmitted other 3 []) "" 13]
    Lists id (toldSince hs) (run (Tracker.hear id) {} hs).getActivities := by
  intro received completed job other hs
  have hpublished : ((Processor.Service.after .amd64 oneCoreJob).threads[0]?).map
      Processor.Service.published = some [received,
        ⟨subjectJobProcessingStarted, "a", "PROCESSING", 1, "", "processor-1", "CORE"⟩,
        completed] := by
    rfl
  obtain ⟨t, ht, hevents⟩ := Option.map_eq_some_iff.mp hpublished
  have hevent (e : Processor.LifecycleEvent) (now : Time) (he : e ∈ [received, completed]) :
      (Publication.jobLifecycle (lifecycleOf e) now).Authentic .amd64 oneCoreJob := by
    refine .inr ⟨e, now, ⟨0, t, ht, ?_⟩, rfl⟩
    rw [hevents]
    simp only [List.mem_cons, List.not_mem_nil, or_false] at he ⊢
    rcases he with rfl | rfl
    · exact .inl rfl
    · exact .inr (.inr rfl)
  have hjob (j : Jobs.Job) (hj : j.headers = none) (now : Time) :
      (Publication.jobSubmitted j now []).Plain := by
    refine ⟨?_, nofun, nofun⟩
    simp [Publication.furtherHeaders, hj]
  have hhs : ∀ h ∈ hs, h.Authentic .amd64 oneCoreJob := by
    simp only [hs, List.forall_mem_cons]
    exact ⟨trivial, hevent completed 9 (by simp), .inl (hjob job rfl 1),
      hevent received 8 (by simp), .inl (hjob other rfl 3), List.forall_mem_nil _⟩
  exact log_faithful id (by decide) hhs

end NatsDemo.Control
