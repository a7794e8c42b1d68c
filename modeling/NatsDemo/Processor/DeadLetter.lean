import NatsDemo.Processor.Scenario

/-!
# On the way to the dead letter queue

A handling whose attempts are exhausted publishes a dead letter and then acknowledges its
message, whatever came of the publish.  So a failed job is lost only where the publish
failed: the contract of a handling is shown for publishes that succeed.
-/

namespace NatsDemo.Processor
open Lib Go Jobs Messaging

section
variable (arch : Platform) (h : Handling)

/-- No scenario takes the message, and its attempts are exhausted. -/
def Routed (g : Seen) : Prop :=
  h.exhausted arch ∧ ∃ r, g.reading = some r ∧ ∀ b, ¬ h.Leads r.value b

/-- What is acknowledged as exhausted has been published, and tells of the job. -/
def Covered (g : Seen) : Prop :=
  g.acked ≠ none → Routed arch h g →
    ∃ τ now, g.published = some (τ, h.dlqMsg arch now) ∧ LetterOf h.job (h.dlqMsg arch now)

/-- The handling publishes its own dead letter, once, and covers its acknowledgement,
where publishes succeed. -/
def deadLetter : Contract Shared (Call Op Label) (Call.Res Op.Res Bool) Seen where
  pre g o := Covered arch h g ∧
    match o with
    | .prim (.publishDLQ origin m) =>
      origin = h.d.seq ∧ g.published = none ∧ ∃ now, m = h.dlqMsg arch now
    | .prim .readScenario => g.acked = none
    | _ => True
  ans _ _ o r :=
    match o, r with
    | .prim (.publishDLQ _ _), ok => ok = true
    | _, _ => True
  next := note

end

section
variable {arch : Platform} {h : Handling} {g : Seen}

theorem note_reading {o : Call Op Label} (ho : ¬ Marked o) (c : Shared)
    (r : Call.Res Op.Res Bool o) : (note g c o r).reading = g.reading := by
  simp only [note]
  split
  case h_1 => exact absurd trivial ho
  case h_4 => exact absurd trivial ho
  all_goals rfl

theorem covered_of_not_routed (h' : ¬ Routed arch h g) : Covered arch h g :=
  fun _ hr => absurd hr h'

/-- What neither reads nor publishes keeps a handling that is not routed covered. -/
theorem wp_of_not_routed {p : Prog Bool} (hp : p.Avoids Marked)
    (hg : ∀ g', g'.reading = g.reading → ¬ Routed arch h g') :
    p.wp (deadLetter arch h) (fun _ g' => Covered arch h g') g := by
  refine Proc.wp_of_avoids (fun g' => g'.reading = g.reading) ?_ ?_ hp ?_ rfl
  · intro g' c o r ho hg'
    exact (note_reading ho c r).trans hg'
  · intro g' o ho hg'
    refine ⟨covered_of_not_routed (hg g' hg'), ?_⟩
    split
    · exact absurd trivial ho
    · exact absurd trivial ho
    · trivial
  · intro _ g' hg'
    exact covered_of_not_routed (hg g' hg')

theorem deadLetter_routeToDLQ (hacked : g.acked = none) (hpublished : g.published = none) :
    (h.routeToDLQ arch).wp (deadLetter arch h) (fun _ g' => Covered arch h g') g := by
  simp [Handling.routeToDLQ, Handling.recordWorkerEvent, Handling.ackIfWanted, deadLetter, note,
    Covered, hacked, hpublished, letterOf_dlqMsg]

theorem deadLetter_evaluate (hacked : g.acked = none) (hpublished : g.published = none) :
    (h.evaluate arch).wp (deadLetter arch h) (fun _ g' => Covered arch h g') g := by
  rw [Handling.evaluate]
  by_cases hf : Handling.failureFires arch h.job.payload h.attemptCount
  · by_cases hmax : Handling.maxDeliveryAttempts arch h.job.payload ≤ h.attemptCount
    · rw [if_pos hf, if_pos hmax]
      exact deadLetter_routeToDLQ hacked hpublished
    · rw [if_pos hf, if_neg hmax]
      exact wp_of_not_routed (retry_avoids arch h) fun _ _ hr => hmax hr.1.2
  · rw [if_neg hf]
    exact wp_of_not_routed (complete_avoids h) fun _ _ hr => hf hr.1.1

theorem deadLetter_process (hacked : g.acked = none) (hpublished : g.published = none) :
    (h.process arch).wp (deadLetter arch h) (fun _ g' => Covered arch h g') g := by
  have hcovered : Covered arch h g := fun hne => absurd hacked hne
  have hpull : h.recordPull.wp (deadLetter arch h) (fun _ g' => g' = g) g := by
    by_cases hre : 1 < h.attemptCount <;>
      simp [Handling.recordPull, hre, Handling.recordWorkerEvent, deadLetter, note, hcovered]
  refine Proc.wp_bind.mpr (Proc.wp_mono hpull ?_)
  rintro _ _ rfl
  refine ⟨⟨hcovered, trivial⟩, fun _ _ _ => ⟨⟨hcovered, hacked⟩, fun c r _ => ?_⟩⟩
  dsimp only [Proc.bind]
  split
  next b hb =>
    -- a handling that a scenario takes is not routed
    refine wp_of_not_routed (runBranch_avoids h r.2 b) ?_
    rintro g' hg' ⟨-, r', hr', hno⟩
    obtain rfl : _ = r' := Option.some_inj.mp (hg'.symm.trans hr')
    exact hno b hb
  next => exact deadLetter_evaluate hacked hpublished

end

/-! ## Runs -/

section
variable {arch : Platform}

/-- What the handlings acknowledged as exhausted, they have published. -/
def NothingLost (s : State arch) : Prop :=
  ∀ (i : ℕ) t h, s.threads[i]? = some t → t.label.handling = some h → Covered arch h (seen t)

/-- A publish to the dead letter queue succeeds. -/
def PublishSucceeds (s : State arch) : Act → Prop
  | .env _ => True
  | .op i x => ∀ t origin m k, s.threads[i]? = some t →
      t.rest = .call (.prim (.publishDLQ origin m)) k → x.ok = true

/-- Whatever the step calls for succeeds. -/
def succeeds : Act → Bool
  | .env _ => true
  | .op _ x => x.ok

theorem publishSucceeds_of_succeeds {a : Act} (ha : succeeds a = true) (s : State arch) :
    PublishSucceeds s a := by
  cases a with
  | env e => trivial
  | op i x => exact fun _ _ _ _ _ _ => ha

/-- All publishes to the dead letter queue have succeeded. -/
def AllAnswered (s : State arch) : Prop :=
  ∀ (i : ℕ) t h, s.threads[i]? = some t → t.label.handling = some h →
    (deadLetter arch h).Answered {} t.hist

theorem AllAnswered.step {s : State arch} {a : Act} (hs : AllAnswered s)
    (ha : PublishSucceeds s a) : AllAnswered (stepWorld arch s a) := by
  intro j u h hu hh
  cases (Machine.step_spec s a).origin hu with
  | same hu => exact hs j u h hu hh
  | started l _ _ hl =>
    subst hl
    trivial
  | @prim t o k x hact ht hr hadv =>
    subst hadv
    refine (meets_append _ _ _).mpr ⟨hs j t h ht hh, ?_, trivial⟩
    cases o with
    | publishDLQ origin m =>
      subst hact
      exact ha t origin m k ht hr
    | _ => trivial
  | @other t o k ht hr ho r hadv =>
    subst hadv
    refine (meets_append _ _ _).mpr ⟨hs j t h ht hh, ?_, trivial⟩
    cases o with
    | prim p => exact absurd rfl (ho p)
    | fork l => trivial
    | await i => trivial

theorem wp_handling {t : Thread arch} {h : Handling} (hh : t.label.handling = some h) :
    (program arch t.label).wp (deadLetter arch h) (fun _ g => Covered arch h g) {} := by
  rw [program_of_handling hh]
  exact deadLetter_process rfl rfl

/-- A handling publishes its own dead letter, once. -/
theorem AllAnswered.of_publish {s : State arch} (hs : AllAnswered s) {i : ℕ} {t : Thread arch}
    {h : Handling} (ht : s.threads[i]? = some t) (hh : t.label.handling = some h) {origin : ℕ}
    {m : Msg} {k : Bool → Prog Bool} (hr : t.rest = .call (.prim (.publishDLQ origin m)) k) :
    origin = h.d.seq ∧ (seen t).published = none ∧ ∃ now, m = h.dlqMsg arch now := by
  have hwp := (t.traced.wp (wp_handling hh) (hs i t h ht hh)).2
  rw [hr] at hwp
  exact hwp.1.2

theorem AllAnswered.nothingLost {s : State arch} (hs : AllAnswered s) : NothingLost s := by
  intro i t h ht hh
  exact t.traced.after_of_wp (wp_handling hh) (hs i t h ht hh) (fun _ _ hpre => hpre.1)
    fun _ _ hg => hg

/-- **When no failed job is lost.**  In a run in which the publishes to the dead letter
queue succeed, what is acknowledged as exhausted has been published. -/
theorem nothingLost_of_publishSucceeds (arch : Platform) {as : List Act}
    (has : Meets (stepWorld arch) PublishSucceeds (State.empty arch) as) :
    Throughout (stepWorld arch) NothingLost (State.empty arch) as :=
  throughout_of_inv AllAnswered (fun _ hs => hs.nothingLost) (fun _ _ hs ha => hs.step ha)
    (fun i t h ht => by simp [State.empty] at ht) has

end

/-- A job that fails on every attempt. -/
def failingMsg (jobID : String) (payload : List (String × Json)) : Msg :=
  jetStreamMsg jobID (("simulate_failure", .bool true) :: payload)

/-- An attempt that fails and is not the last: the pull loop `i` fetches the message `q`,
and the goroutine `j` handles it. -/
def failedAttempt (i j q : ℕ) : List Act := pulling i q ++ calls j 6 ++ calls i 2

/-- The three attempts of a job; the broker takes its dead letter, or does not. -/
def deadLetterRun (ok : Bool) : List Act :=
  startUp ++ [.env (.store (failingMsg "j1" []))] ++ failedAttempt 0 2 0 ++
    failedAttempt 3 4 0 ++ pulling 5 0 ++ calls 6 5 ++ [.op 6 { ok := ok }] ++ calls 6 3

theorem nothingLost_accepted :
    Throughout (stepWorld .amd64) NothingLost (State.empty .amd64) (deadLetterRun true) := by
  apply nothingLost_of_publishSucceeds .amd64
  have hall : ∀ a ∈ deadLetterRun true, succeeds a = true := by decide
  exact meets_of_mem (fun a ha s => publishSucceeds_of_succeeds (hall a ha) s) _

set_option maxRecDepth 8000 in
/-- The broker refuses the dead letter, and the message is acknowledged all the same. -/
theorem not_nothingLost_refused :
    ¬ NothingLost (run (stepWorld .amd64) (State.empty .amd64) (deadLetterRun false)) := by
  intro h
  have hcovered := fun hd hh => h 6 _ hd rfl hh
  obtain ⟨τ, now, hpublished, -⟩ := hcovered _ rfl (by decide)
    ⟨by decide, ⟨0, "normal", true⟩, rfl, by intro b; cases b <;> decide⟩
  cases hpublished

end NatsDemo.Processor
