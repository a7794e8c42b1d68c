import Mathlib.Data.Finset.Card
import NatsDemo.Lib.Run
import NatsDemo.Processor.App

/-!
# The pool of pull workers

The registry of the `App` beside the pull loops it is meant to describe.  A loop is one
call of `jsPullLoop`: it has a name and a context, and ends by a simulated crash or by
finding its context cancelled, so from its cancellation on it counts as stopped.  A
crash leaves a supervisor asleep, which respawns the worker at any later time.

The controls are cut into the sections they run under `mu`; what one request does is
the run of its sections.
-/

namespace NatsDemo.Processor
open Lib Go

structure PullLoop where
  name : String
  cancelled : Bool := false
  crashed : Bool := false
  deriving DecidableEq

/-- `respawns` holds the names of the workers whose supervisor is still asleep. -/
structure Pool where
  app : App
  loops : List PullLoop := []
  respawns : List String := []

namespace Pool

/-- A loop is live from its start until it crashes or its context is cancelled. -/
def isLive (p : Pool) (i : ℕ) : Bool :=
  match p.loops[i]? with
  | some l => !l.cancelled && !l.crashed
  | none => false

def live (p : Pool) : Finset ℕ := (Finset.range p.loops.length).filter fun i => p.isLive i

def nameOf (p : Pool) (i : ℕ) : Option String := (p.loops[i]?).map PullLoop.name

/-- Carry out a change of the registry: cancel contexts, and start loops on new ones. -/
def apply (p : Pool) (c : Change) : Pool :=
  { p with
    app := c.app
    loops := p.loops.mapIdx (fun i l => { l with cancelled := l.cancelled || i ∈ c.cancelled }) ++
      c.started.map fun n => { name := n } }

/-- The loop crashes: it ends without touching its context. -/
def crash (p : Pool) (i : ℕ) : Pool :=
  match p.loops[i]? with
  | some l =>
    if l.crashed then p
    else { app := p.app.crashGoroutine l.name
           loops := p.loops.set i { l with crashed := true }
           respawns := p.respawns ++ [l.name] }
  | none => p

/-- The supervisor numbered `k`, that of the worker `w`, starts a new loop for it. -/
def wake (p : Pool) (k : ℕ) (w : String) : Pool :=
  { p with respawns := p.respawns.eraseIdx k }.apply (p.app.respawn p.loops.length w)

/-- One of the supervisors wakes up. -/
def respawn (p : Pool) (k : ℕ) : Pool :=
  match p.respawns[k]? with
  | some w => p.wake k w
  | none => p

end Pool

/-- What happens to the pool without interruption. -/
inductive Section where
  | setEnabled (enabled : Bool)
  | subscribeCore (ok : Bool)
  | unsubscribeCore
  | subscribeJetStream (now : Time) (b : Binding)
  | unsubscribeJetStream
  | startWorkers
  | cancelWorkers
  | scaleWorkers (targetCount : ℤ)
  | httpState (enabled : Bool)
  | httpRestart
  | crash (i : ℕ)
  | respawn (k : ℕ)

namespace Pool

def step (p : Pool) : Section → Pool
  | .setEnabled b => { p with app := p.app.setEnabled b }
  | .subscribeCore ok => { p with app := p.app.subscribeCore ok }
  | .unsubscribeCore => { p with app := p.app.unsubscribeCore }
  | .subscribeJetStream now b => { p with app := p.app.subscribeJetStream now b }
  | .unsubscribeJetStream => { p with app := p.app.unsubscribeJetStream }
  | .startWorkers => p.apply (p.app.startWorkers p.loops.length)
  | .cancelWorkers => p.apply p.app.cancelWorkers
  | .scaleWorkers n => p.apply (p.app.scaleWorkers p.loops.length n)
  | .httpState b => { p with app := p.app.httpState b }
  | .httpRestart => { p with app := p.app.httpRestart }
  | .crash i => p.crash i
  | .respawn k => p.respawn k

/-- The pool `Run` starts with, after its calls of `subscribeJetStream`, `startWorkers`
and `subscribeCore`. -/
def start (now : Time) (b : Binding) (core : Bool) : Pool :=
  run step { app := {} } [.subscribeJetStream now b, .startWorkers, .subscribeCore core]

end Pool

/-- The requests that reach the pool, and the events that do; the answers of the broker
come with the requests that need them. -/
inductive Request where
  | scaleWorkers (targetCount : ℤ)
  | natsState (enabled : Bool) (coreOk : Bool) (now : Time) (b : Binding)
  | httpState (enabled : Bool)
  | httpRestart
  | crash (i : ℕ)
  | respawn (k : ℕ)

/-- The sections of a request, in order. -/
def Request.sections : Request → List Section
  | .scaleWorkers n => [.scaleWorkers n]
  | .natsState true ok now b =>
    [.setEnabled true, .subscribeCore ok, .subscribeJetStream now b, .startWorkers]
  | .natsState false _ _ _ =>
    [.setEnabled false, .unsubscribeCore, .cancelWorkers, .unsubscribeJetStream]
  | .httpState b => [.httpState b]
  | .httpRestart => [.httpRestart]
  | .crash i => [.crash i]
  | .respawn k => [.respawn k]

def Pool.perform (p : Pool) (r : Request) : Pool := run Pool.step p r.sections

/-- The subscription to JetStream is about the consumer only. -/
theorem App.subscribeJetStream_eq (a : App) (now : Time) (b : Binding) :
    ∃ name bound, a.subscribeJetStream now b =
      { a with consumerName := name, jsConsumer := bound } := by
  simp only [App.subscribeJetStream]
  split
  next h => exact ⟨a.consumerName, true, by rw [← h]⟩
  next h =>
    cases b with
    | noStream => exact ⟨a.consumerName, a.jsConsumer, rfl⟩
    | createFailed => exact ⟨a.consumerNameAt now, a.jsConsumer, rfl⟩
    | bound => exact ⟨a.consumerNameAt now, true, rfl⟩

namespace App
variable (a : App) (now : Time) (b : Binding)

theorem subscribeJetStream_frame : a.subscribeJetStream now b =
    { a with
      consumerName := (a.subscribeJetStream now b).consumerName
      jsConsumer := (a.subscribeJetStream now b).jsConsumer } := by
  obtain ⟨name, bound, h⟩ := a.subscribeJetStream_eq now b
  rw [h]

@[simp] theorem workerCancels_subscribeJetStream :
    (a.subscribeJetStream now b).workerCancels = a.workerCancels := by
  rw [subscribeJetStream_frame]

@[simp] theorem consumerConfig_subscribeJetStream :
    (a.subscribeJetStream now b).consumerConfig = a.consumerConfig := by
  rw [subscribeJetStream_frame]

@[simp] theorem processingEnabled_subscribeJetStream :
    (a.subscribeJetStream now b).processingEnabled = a.processingEnabled := by
  rw [subscribeJetStream_frame]

@[simp] theorem activeScenario_subscribeJetStream :
    (a.subscribeJetStream now b).activeScenario = a.activeScenario := by
  rw [subscribeJetStream_frame]

@[simp] theorem scenarioOnce_subscribeJetStream :
    (a.subscribeJetStream now b).scenarioOnce = a.scenarioOnce := by
  rw [subscribeJetStream_frame]

@[simp] theorem consumerDistribution_subscribeJetStream :
    (a.subscribeJetStream now b).consumerDistribution = a.consumerDistribution := by
  rw [subscribeJetStream_frame]

end App

/-- The sections that are about neither the loops nor the configuration. -/
def Section.Plain : Section → Prop
  | .setEnabled _ | .subscribeCore _ | .unsubscribeCore | .subscribeJetStream _ _
  | .unsubscribeJetStream | .httpState _ | .httpRestart => True
  | _ => False

/-- What depends on the loops and the configuration alone is kept by a plain section. -/
theorem Pool.step_of_plain {P : Pool → Prop} {p : Pool} {a : Section} (ha : a.Plain)
    (hP : ∀ app : App, app.workerCancels = p.app.workerCancels →
      app.consumerConfig = p.app.consumerConfig → P { p with app }) : P (p.step a) := by
  cases a with
  | subscribeJetStream now b =>
    exact hP _ (p.app.workerCancels_subscribeJetStream now b)
      (p.app.consumerConfig_subscribeJetStream now b)
  | startWorkers | cancelWorkers | scaleWorkers n | crash i | respawn k => exact ha.elim
  | _ => exact hP _ rfl rfl

/-! ## The loops after a section -/

namespace Pool
variable {p : Pool} {i : ℕ}

theorem isLive_iff : p.isLive i = true ↔
    ∃ l, p.loops[i]? = some l ∧ l.cancelled = false ∧ l.crashed = false := by
  cases h : p.loops[i]? <;> simp [isLive, h]

theorem isLive_lt_length (h : p.isLive i = true) : i < p.loops.length := by
  obtain ⟨l, hl, -⟩ := isLive_iff.mp h
  exact (List.getElem?_eq_some_iff.mp hl).1

@[simp] theorem mem_live : i ∈ p.live ↔ p.isLive i = true := by
  simp only [live, Finset.mem_filter, Finset.mem_range, and_iff_right_iff_imp]
  exact isLive_lt_length

theorem apply_loops_lt {c : Change} (h : i < p.loops.length) :
    (p.apply c).loops[i]? =
      (p.loops[i]?).map fun l => { l with cancelled := l.cancelled || i ∈ c.cancelled } := by
  rw [apply, List.getElem?_append_left (by simpa using h), List.getElem?_mapIdx]

theorem apply_loops_add {c : Change} (k : ℕ) :
    (p.apply c).loops[p.loops.length + k]? = (c.started[k]?).map fun n => { name := n } := by
  rw [apply, List.getElem?_append_right (by simp)]
  simp

/-- After a change the live loops are those not cancelled and those just started. -/
theorem isLive_apply {c : Change} : (p.apply c).isLive i = true ↔
    (p.isLive i = true ∧ i ∉ c.cancelled) ∨
      (p.loops.length ≤ i ∧ i < p.loops.length + c.started.length) := by
  rcases Nat.lt_or_ge i p.loops.length with h | h
  · have hnot : ¬ p.loops.length ≤ i := by omega
    simp only [isLive, apply_loops_lt h, hnot, false_and, or_false]
    cases p.loops[i]? with
    | none => simp
    | some l => simp [and_assoc, and_left_comm, and_comm]
  · obtain ⟨k, rfl⟩ := Nat.exists_eq_add_of_le h
    have hold : p.isLive (p.loops.length + k) = false := by
      simp [isLive]
    rw [hold]
    simp only [isLive, apply_loops_add]
    cases hk : c.started[k]? with
    | none => simpa using hk
    | some n => simpa using (List.getElem?_eq_some_iff.mp hk).1

theorem nameOf_apply_of_some {c : Change} {w : String} (h : p.nameOf i = some w) :
    (p.apply c).nameOf i = some w := by
  obtain ⟨l, hl, rfl⟩ := Option.map_eq_some_iff.mp h
  simp [nameOf, apply_loops_lt (List.getElem?_eq_some_iff.mp hl).1, hl]

theorem nameOf_apply_add {c : Change} (k : ℕ) :
    (p.apply c).nameOf (p.loops.length + k) = c.started[k]? := by
  simp [nameOf, apply_loops_add, Function.comp_def]

theorem nameOf_apply_cases {c : Change} {w : String} (h : (p.apply c).nameOf i = some w) :
    p.nameOf i = some w ∨ w ∈ c.started := by
  rcases Nat.lt_or_ge i p.loops.length with hi | hi
  · refine Or.inl ?_
    simpa [nameOf, apply_loops_lt hi, Function.comp_def] using h
  · obtain ⟨k, rfl⟩ := Nat.exists_eq_add_of_le hi
    rw [nameOf_apply_add] at h
    exact Or.inr (List.mem_of_getElem? h)

@[simp] theorem apply_app (c : Change) : (p.apply c).app = c.app := rfl
@[simp] theorem apply_respawns (c : Change) : (p.apply c).respawns = p.respawns := rfl

@[simp] theorem apply_length (c : Change) :
    (p.apply c).loops.length = p.loops.length + c.started.length := by simp [apply]

/-- A crash takes the loop away and leaves its supervisor asleep. -/
theorem crash_eq {l : PullLoop} (hl : p.loops[i]? = some l) (hc : l.crashed = false) :
    p.crash i = { app := p.app.crashGoroutine l.name
                  loops := p.loops.set i { l with crashed := true }
                  respawns := p.respawns ++ [l.name] } := by
  simp [crash, hl, hc]

/-- Only a loop that has not crashed can. -/
theorem crash_cases (p : Pool) (i : ℕ) :
    (∀ l, p.loops[i]? = some l → l.crashed = true) ∧ p.crash i = p ∨
    ∃ l, p.loops[i]? = some l ∧ l.crashed = false ∧
      p.crash i = { app := p.app.crashGoroutine l.name
                    loops := p.loops.set i { l with crashed := true }
                    respawns := p.respawns ++ [l.name] } := by
  cases hl : p.loops[i]? with
  | none => exact Or.inl ⟨nofun, by simp [crash, hl]⟩
  | some l =>
    by_cases hc : l.crashed = true
    · refine Or.inl ⟨?_, by simp [crash, hl, hc]⟩
      rintro _ ⟨⟩
      exact hc
    · rw [Bool.not_eq_true] at hc
      exact Or.inr ⟨l, rfl, hc, crash_eq hl hc⟩

theorem nameOf_crash (p : Pool) (i j : ℕ) : (p.crash i).nameOf j = p.nameOf j := by
  rcases crash_cases p i with ⟨-, h⟩ | ⟨l, hl, -, h⟩
  · rw [h]
  · by_cases hij : i = j
    · subst hij
      simp [h, nameOf, hl, List.getElem?_set_self (List.getElem?_eq_some_iff.mp hl).1]
    · simp [h, nameOf, List.getElem?_set_ne hij]

theorem isLive_crash {p : Pool} {i : ℕ} {l : PullLoop} (hl : p.loops[i]? = some l)
    (hc : l.crashed = false) (j : ℕ) :
    (p.crash i).isLive j = true ↔ p.isLive j = true ∧ j ≠ i := by
  have hlt := (List.getElem?_eq_some_iff.mp hl).1
  by_cases hij : i = j
  · subst hij
    simp [crash, hl, hc, isLive, List.getElem?_set_self hlt]
  · simp [crash, hl, hc, isLive, List.getElem?_set_ne hij, Ne.symm hij]

theorem live_crash {p : Pool} {i : ℕ} {l : PullLoop} (hl : p.loops[i]? = some l)
    (hc : l.crashed = false) : (p.crash i).live = p.live.erase i := by
  ext j
  rw [mem_live, isLive_crash hl hc, Finset.mem_erase, mem_live, and_comm]

theorem respawn_cases (p : Pool) (k : ℕ) : p.respawns[k]? = none ∧ p.respawn k = p ∨
    ∃ w, p.respawns[k]? = some w ∧ p.respawn k = p.wake k w := by
  cases h : p.respawns[k]? with
  | none => exact Or.inl ⟨rfl, by simp [respawn, h]⟩
  | some w => exact Or.inr ⟨w, rfl, by simp [respawn, h]⟩

@[simp] theorem isLive_wake {k : ℕ} {w : String} :
    (p.wake k w).isLive i = true ↔ p.isLive i = true ∨ i = p.loops.length := by
  rw [wake, isLive_apply]
  simp only [App.respawn, List.not_mem_nil, not_false_eq_true, and_true, List.length_singleton]
  refine or_congr Iff.rfl ?_
  omega

theorem nameOf_wake_of_some {k : ℕ} {w v : String} (h : p.nameOf i = some v) :
    (p.wake k w).nameOf i = some v := nameOf_apply_of_some h

@[simp] theorem nameOf_wake_new {k : ℕ} {w : String} :
    (p.wake k w).nameOf p.loops.length = some w :=
  nameOf_apply_add (p := { p with respawns := p.respawns.eraseIdx k }) 0

@[simp] theorem wake_app {k : ℕ} {w : String} :
    (p.wake k w).app = (p.app.respawn p.loops.length w).app := rfl

theorem live_wake {k : ℕ} {w : String} :
    (p.wake k w).live = insert p.loops.length p.live := by
  ext i
  simp [or_comm]

theorem card_live_wake {k : ℕ} {w : String} : (p.wake k w).live.card = p.live.card + 1 := by
  rw [live_wake, Finset.card_insert_of_notMem]
  intro h
  exact (isLive_lt_length (mem_live.mp h)).false

/-- Live loops that all stand in a list are no more than its length. -/
theorem card_live_le {l : List ℕ} (h : ∀ i, p.isLive i = true → i ∈ l) :
    p.live.card ≤ l.length := by
  have hsub : p.live ⊆ l.toFinset := by
    intro i hi
    exact List.mem_toFinset.mpr (h i (mem_live.mp hi))
  exact (Finset.card_le_card hsub).trans l.toFinset_card_le

end Pool

end NatsDemo.Processor
