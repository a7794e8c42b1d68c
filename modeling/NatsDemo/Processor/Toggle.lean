import NatsDemo.Processor.Pool

/-!
# Switching the processor on and off

Two paths switch the processor: the subject `processor.state.set` starts and stops the
pull loops and binds and unbinds the consumer, while `PUT /processor/state` only sets
flags.  So the HTTP path can enable a processor that has nothing to work with.
-/

namespace NatsDemo.Processor
open Lib Go

/-- The requests that switch and scale the processor. -/
inductive Toggle where
  | nats (enabled : Bool) (coreOk : Bool) (now : Time)
  | http (enabled : Bool)
  | scale (targetCount : ℤ)

/-- Every broker call of `subscribeJetStream` succeeds. -/
def Toggle.request : Toggle → Request
  | .nats enabled coreOk now => .natsState enabled coreOk now .bound
  | .http enabled => .httpState enabled
  | .scale n => .scaleWorkers n

namespace Pool

def toggle (p : Pool) (t : Toggle) : Pool := p.perform t.request

/-- An enabled processor has a live pull loop and a consumer to pull from. -/
def EnabledWorking (p : Pool) : Prop :=
  p.app.processingEnabled = true → (∃ i, p.isLive i = true) ∧ p.app.jsConsumer = true

/-- The HTTP path never switches on what the NATS path has switched off; `on` is what the
NATS path said last. -/
def NatsHasLastWord : Bool → List Toggle → Prop
  | _, [] => True
  | _, .nats enabled _ _ :: ts => NatsHasLastWord enabled ts
  | on, .http enabled :: ts => (enabled = true → on = true) ∧ NatsHasLastWord on ts
  | on, .scale _ :: ts => NatsHasLastWord on ts

/-! ## The registered loops run -/

/-- Without crashes every registered loop is live, and stands in one slot only. -/
structure AllRunning (p : Pool) : Prop where
  nodup : p.app.workerCancels.Nodup
  running : ∀ i ∈ p.app.workerCancels, p.isLive i = true

theorem AllRunning.of_app {p : Pool} (h : p.AllRunning) {a : App}
    (hcancels : a.workerCancels = p.app.workerCancels) : ({ p with app := a } : Pool).AllRunning :=
  ⟨by rw [hcancels]; exact h.nodup, fun i hi => h.running i (by rwa [← hcancels])⟩

theorem AllRunning.scaleWorkers {p : Pool} (h : p.AllRunning) (n : ℤ) :
    (p.apply (p.app.scaleWorkers p.loops.length n)).AllRunning := by
  simp only [App.scaleWorkers]
  generalize (if p.app.consumerConfig.ordering = "ordered" then 1 else clampWorkers n) = t
  constructor
  · refine List.Nodup.append (h.nodup.sublist (List.take_sublist t _)) List.nodup_range' ?_
    intro i hold hnew
    have hlt := isLive_lt_length (h.running i (List.mem_of_mem_take hold))
    exact absurd (List.mem_range'_1.mp hnew).1 (by omega)
  · intro i hi
    refine isLive_apply.mpr ?_
    rcases List.mem_append.mp hi with hold | hnew
    · refine Or.inl ⟨h.running i (List.mem_of_mem_take hold), ?_⟩
      have hdisj := List.disjoint_take_drop h.nodup (le_refl t)
      exact fun hdrop => hdisj hold hdrop
    · have := List.mem_range'_1.mp hnew
      exact Or.inr (by simpa using this)

theorem AllRunning.startWorkers {p : Pool} :
    (p.apply (p.app.startWorkers p.loops.length)).AllRunning := by
  constructor
  · exact List.nodup_range'
  · intro i hi
    refine isLive_apply.mpr (Or.inr ?_)
    have := List.mem_range'_1.mp hi
    simpa [App.startWorkers] using this

theorem workerCancels_scaleWorkers_ne_nil (a : App) (next : ℕ) (n : ℤ) :
    (a.scaleWorkers next n).app.workerCancels ≠ [] := by
  have hpos : 0 < clampWorkers n := by
    rw [clampWorkers]
    split_ifs <;> omega
  refine List.ne_nil_of_length_pos ?_
  simp only [App.scaleWorkers, List.length_append, List.length_take, List.length_range']
  split_ifs <;> omega

theorem workerCancels_startWorkers_ne_nil (a : App) (next : ℕ) :
    (a.startWorkers next).app.workerCancels ≠ [] := by
  refine List.ne_nil_of_length_pos ?_
  simp only [App.startWorkers, List.length_range']
  split_ifs <;> omega

/-! ## Runs of toggles -/

/-- What the pool has in common with the last word `on` of the NATS path: the consumer is
bound, and there are loops, exactly from its ON to its OFF. -/
structure Switched (on : Bool) (p : Pool) : Prop where
  allRunning : p.AllRunning
  jsConsumer : p.app.jsConsumer = on
  nonempty : on = true → p.app.workerCancels ≠ []

theorem Switched.enabledWorking_iff {on : Bool} {p : Pool} (h : Switched on p) :
    p.EnabledWorking ↔ (p.app.processingEnabled = true → on = true) := by
  rw [EnabledWorking]
  rw [h.jsConsumer]
  constructor
  · exact fun hp he => (hp he).2
  · intro hp he
    obtain ⟨i, hi⟩ := List.exists_mem_of_ne_nil _ (h.nonempty (hp he))
    exact ⟨⟨i, h.allRunning.running i hi⟩, hp he⟩

theorem jsConsumer_subscribeJetStream_bound (a : App) (now : Time) :
    (a.subscribeJetStream now .bound).jsConsumer = true := by
  rw [App.subscribeJetStream]
  split
  next h => exact h
  next => rfl

theorem switched_startWorkers {p : Pool} (h : p.app.jsConsumer = true) :
    Switched true (p.apply (p.app.startWorkers p.loops.length)) :=
  ⟨.startWorkers, h, fun _ => workerCancels_startWorkers_ne_nil _ _⟩

theorem toggle_nats_on (p : Pool) (coreOk : Bool) (now : Time) :
    Switched true (p.toggle (.nats true coreOk now)) ∧
      (p.toggle (.nats true coreOk now)).app.processingEnabled = true := by
  let a := ((p.app.setEnabled true).subscribeCore coreOk).subscribeJetStream now .bound
  have henabled : a.processingEnabled = true :=
    App.processingEnabled_subscribeJetStream _ now .bound
  exact ⟨switched_startWorkers (p := { p with app := a })
    (jsConsumer_subscribeJetStream_bound _ now), henabled⟩

theorem toggle_nats_off (p : Pool) (coreOk : Bool) (now : Time) :
    Switched false (p.toggle (.nats false coreOk now)) ∧
      (p.toggle (.nats false coreOk now)).app.processingEnabled = false :=
  ⟨⟨⟨List.nodup_nil, fun _ hi => absurd hi List.not_mem_nil⟩, rfl, nofun⟩, rfl⟩

theorem Switched.http {on : Bool} {p : Pool} (h : Switched on p) (enabled : Bool) :
    Switched on (p.toggle (.http enabled)) :=
  ⟨h.allRunning.of_app rfl, h.jsConsumer, h.nonempty⟩

theorem Switched.scale {on : Bool} {p : Pool} (h : Switched on p) (n : ℤ) :
    Switched on (p.toggle (.scale n)) :=
  ⟨h.allRunning.scaleWorkers n, h.jsConsumer, fun _ => workerCancels_scaleWorkers_ne_nil _ _ n⟩

theorem switched_start (now : Time) (core : Bool) :
    Switched true (start now .bound core) :=
  (toggle_nats_on { app := {} } core now).1

theorem Switched.throughout_iff {on : Bool} {p : Pool} (h : Switched on p)
    (hp : p.app.processingEnabled = true → on = true) (ts : List Toggle) :
    Throughout toggle EnabledWorking p ts ↔ NatsHasLastWord on ts := by
  induction ts generalizing on p with
  | nil => exact iff_of_true (h.enabledWorking_iff.mpr hp) trivial
  | cons t ts ih =>
    have hnow : p.EnabledWorking := h.enabledWorking_iff.mpr hp
    simp only [Throughout, hnow, true_and]
    cases t with
    | nats enabled coreOk now =>
      cases enabled with
      | true =>
        obtain ⟨hs, -⟩ := toggle_nats_on p coreOk now
        exact ih hs fun _ => rfl
      | false =>
        obtain ⟨hs, he⟩ := toggle_nats_off p coreOk now
        exact ih hs fun htrue => by simp [he] at htrue
    | http enabled =>
      have hs := h.http enabled
      constructor
      · intro hrun
        have hfirst : (p.toggle (.http enabled)).EnabledWorking := by
          cases ts with
          | nil => exact hrun
          | cons _ _ => exact hrun.1
        have hon := hs.enabledWorking_iff.mp hfirst
        exact ⟨hon, (ih hs hon).mp hrun⟩
      · rintro ⟨hon, hrest⟩
        exact (ih hs hon).mpr hrest
    | scale n => exact ih (h.scale n) hp

/-- **When enabled means working.**  Over all sequences of toggles on both paths and of
scalings, an enabled processor is a working one all along if and only if the HTTP path
never switches on what the NATS path switched off. -/
theorem enabledWorking_throughout_iff (now : Time) (core : Bool) (ts : List Toggle) :
    Throughout toggle EnabledWorking (start now .bound core) ts ↔ NatsHasLastWord true ts :=
  (switched_start now core).throughout_iff (fun _ => rfl) ts

/-- OFF over NATS and ON over HTTP leave an enabled processor without loops. -/
theorem not_enabledWorking_off_on :
    ¬ (run toggle (start 0 .bound true) [.nats false true 0, .http true]).EnabledWorking := by
  intro h
  exact absurd (h (by decide)).2 (by decide)

end Pool

end NatsDemo.Processor
