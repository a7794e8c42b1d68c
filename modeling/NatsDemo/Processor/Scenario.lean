import NatsDemo.Processor.Seen

/-!
# The scenario and its readers

An abstract model of how goroutines share the failure scenario: a setting, and for each
goroutine what it read of it and whether it wrote it back.  A goroutine reads the setting
in one section and writes it back in a later one, without looking at it again.

`scene` abstracts a state of the processor, `moveOf` names the move that a step makes,
and `scene_step` says that the processor does nothing else to the scenario.
-/

namespace NatsDemo.Processor
open Lib Go Jobs Messaging

/-- What concerns the scenario of a goroutine. -/
structure View where
  label : Label
  reading : Option Reading := none
  fetched : Option ℕ := none
  reset : Bool := false

structure Scene where
  setting : Reading
  views : List View

inductive Move where
  | put (value : String) (once : Bool)
  | read (i : ℕ)
  | fetch (i n : ℕ)
  | writeBack (i : ℕ)
  | start (ls : List Label)

namespace Scene

/-- A request numbers its setting; a write-back keeps the number. -/
def step (c : Scene) : Move → Scene
  | .put value once => { c with setting := ⟨c.setting.stamp + 1, value, once⟩ }
  | .read i => { c with views := c.views.modify i fun v => { v with reading := some c.setting } }
  | .fetch i n => { c with views := c.views.modify i fun v => { v with fetched := some n } }
  | .writeBack i =>
    { setting := { c.setting with value := "normal" }
      views := c.views.modify i fun v => { v with reset := true } }
  | .start ls => { c with views := c.views ++ ls.map fun l => { label := l } }

end Scene

/-- The branch that a goroutine is bound to write the scenario back in. -/
def View.Due (v : View) (b : Branch) : Prop :=
  v.reset = false ∧ (b = .batch → v.fetched = some 3) ∧
    ∃ r, v.reading = some r ∧ r.once = true ∧ v.label.Leads r.value b

theorem View.not_due_of_not_read {v : View} (h : v.reading = none) (b : Branch) : ¬ v.Due b := by
  rintro ⟨-, -, r, hr, -⟩
  cases h.symm.trans hr

/-- A goroutine reads the setting once, and before it fetches; what it writes back is due. -/
def Scene.Enabled (c : Scene) : Move → Prop
  | .read i => ∀ v, c.views[i]? = some v → v.reading = none ∧ v.fetched = none ∧ v.reset = false
  | .writeBack i => ∃ v b, c.views[i]? = some v ∧ v.Due b
  | _ => True

/-! ## The processor as a scene -/

section
variable {arch : Platform}

/-- What a reading of the scenario would give. -/
def Shared.setting (s : Shared) : Reading := ⟨s.puts, s.app.activeScenario, s.app.scenarioOnce⟩

def view (t : Thread arch) : View :=
  ⟨t.label, (seen t).reading, (seen t).fetched, (seen t).reset⟩

def scene (s : State arch) : Scene := ⟨s.shared.setting, s.threads.map view⟩

def primMove (s : Shared) (i : ℕ) (x : Choice) : Op → Move
  | .readScenario => .read i
  | .fetch n => .fetch i (s.fetch x n).1.messages.length
  | .resetScenario _ => .writeBack i
  | _ => .start []

/-- The move that a step makes. -/
def moveOf (s : State arch) : Act → Move
  | .env (.putScenario value once) => .put (if value = "" then "normal" else value) once
  | .env e => .start (s.shared.input e).2
  | .op i x =>
    match (s.threads[i]?).map Machine.Thread.rest with
    | some (.call (.prim o) _) => primMove s.shared i x o
    | some (.call (.fork l) _) => .start [l]
    | _ => .start []

theorem setting_exec (x : Choice) (s : Shared) {o : Op} (ho : ∀ b, o ≠ .resetScenario b) :
    (s.exec x o).2.setting = s.setting := by
  cases o with
  | resetScenario b => exact absurd rfl (ho b)
  | subscribeJetStream | fetch n | ack seq | term seq | publishDLQ origin m =>
    simp [Shared.exec, Shared.setting]
  | _ => rfl

theorem setting_input (s : Shared) {e : Input} (he : ∀ value once, e ≠ .putScenario value once) :
    (s.input e).1.setting = s.setting := by
  cases e with
  | putScenario value once => exact absurd rfl (he value once)
  | control a =>
    cases a with
    | subscribeJetStream now b => simp [Shared.input, Section.change, Shared.apply, Shared.setting]
    | _ => rfl
  | _ => rfl

@[simp] theorem view_start (l : Label) :
    view (Machine.Thread.start l : Thread arch) = { label := l } := rfl

theorem seen_advance {t : Thread arch} {o : Call Op Label}
    {k : Call.Res Op.Res Bool o → Prog Bool} (hr : t.rest = .call o k) (c : Shared)
    (r : Call.Res Op.Res Bool o) : seen (t.advance hr c r) = note (seen t) c o r :=
  seenOf_snoc _ _

/-- Most calls do not show in the view. -/
theorem view_advance {t : Thread arch} {o : Call Op Label} {k : Call.Res Op.Res Bool o → Prog Bool}
    (hr : t.rest = .call o k) (c : Shared) (r : Call.Res Op.Res Bool o)
    (hread : o ≠ .prim .readScenario) (hfetch : ∀ n, o ≠ .prim (.fetch n))
    (hreset : ∀ b, o ≠ .prim (.resetScenario b)) : view (t.advance hr c r) = view t := by
  simp only [view, seen_advance, note]
  split
  case h_1 => exact absurd rfl hread
  case h_2 => exact absurd rfl (hfetch _)
  case h_3 => exact absurd rfl (hreset _)
  case h_4 => split <;> rfl
  all_goals rfl

theorem scene_env (s : State arch) (e : Input) :
    scene (stepWorld arch s (.env e)) = (scene s).step (moveOf s (.env e)) := by
  have hthreads : (stepWorld arch s (.env e)).threads =
      s.threads ++ (s.shared.input e).2.map Machine.Thread.start := rfl
  have hscene : scene (stepWorld arch s (.env e)) = ⟨(s.shared.input e).1.setting,
      (scene s).views ++ (s.shared.input e).2.map fun l => { label := l }⟩ := by
    simp only [scene, hthreads, List.map_append, List.map_map]
    rfl
  rw [hscene]
  cases e with
  | putScenario value once =>
    simp [Shared.input, scene, moveOf, Scene.step, Shared.setting, App.putScenario]
  | _ =>
    rw [setting_input _ (by simp)]
    rfl

theorem scene_silent {s : State arch} {i : ℕ} {t : Thread arch} {o : Op}
    {k : Op.Res o → Prog Bool} (x : Choice) (ht : s.threads[i]? = some t)
    (hr : t.rest = .call (.prim o) k) (hread : o ≠ .readScenario) (hfetch : ∀ n, o ≠ .fetch n)
    (hreset : ∀ b, o ≠ .resetScenario b) :
    scene (⟨((world arch).exec o x s.shared).2, s.threads.set i
      (t.advance hr s.shared ((world arch).exec o x s.shared).1)⟩ : State arch) = scene s := by
  have hset : ((world arch).exec o x s.shared).2.setting = s.shared.setting :=
    setting_exec x s.shared hreset
  have hview := view_advance hr s.shared ((world arch).exec o x s.shared).1 (by simpa using hread)
    (by simpa using hfetch) (by simpa using hreset)
  simp only [scene, hset, Machine.map_set_same ht hview]

theorem scene_prim {s : State arch} {i : ℕ} {t : Thread arch} {o : Op}
    {k : Op.Res o → Prog Bool} (x : Choice) (ht : s.threads[i]? = some t)
    (hr : t.rest = .call (.prim o) k) :
    scene (⟨((world arch).exec o x s.shared).2, s.threads.set i
      (t.advance hr s.shared ((world arch).exec o x s.shared).1)⟩ : State arch) =
      (scene s).step (primMove s.shared i x o) := by
  cases o with
  | readScenario =>
    have hview : view (t.advance hr s.shared ((world arch).exec .readScenario x s.shared).1) =
        { view t with reading := some s.shared.setting } := by
      simp only [view, seen_advance]
      rfl
    exact congrArg (Scene.mk _) (Machine.map_set_modify ht hview)
  | fetch n =>
    have hview : view (t.advance hr s.shared ((world arch).exec (.fetch n) x s.shared).1) =
        { view t with fetched := some (s.shared.fetch x n).1.messages.length } := by
      simp only [view, seen_advance]
      rfl
    have hset : ((world arch).exec (.fetch n) x s.shared).2.setting = s.shared.setting :=
      setting_exec x s.shared (by simp)
    simp only [scene, hset]
    exact congrArg (Scene.mk _) (Machine.map_set_modify ht hview)
  | resetScenario b =>
    have hview : view (t.advance hr s.shared
        ((world arch).exec (.resetScenario b) x s.shared).1) = { view t with reset := true } := by
      simp only [view, seen_advance]
      rfl
    exact congrArg (Scene.mk _) (Machine.map_set_modify ht hview)
  | _ =>
    rw [scene_silent x ht hr (by simp) (by simp) (by simp)]
    simp [primMove, Scene.step]

/-- **Refinement.**  What a step of the processor does to the scenario is its move. -/
theorem scene_step (s : State arch) (a : Act) :
    scene (stepWorld arch s a) = (scene s).step (moveOf s a) := by
  cases a with
  | env e => exact scene_env s e
  | op i x =>
    rw [stepWorld]
    cases ht : s.threads[i]? with
    | none => simp [Machine.step, moveOf, ht, Scene.step]
    | some t =>
      cases hr : t.rest with
      | ret b => simp [Machine.step_ret x ht hr, moveOf, ht, hr, Scene.step]
      | call o k =>
        cases o with
        | fork l =>
          rw [Machine.step_fork x ht hr]
          have hview := view_advance hr s.shared s.threads.length (by simp) (by simp) (by simp)
          simp [moveOf, ht, hr, Scene.step, scene, Machine.map_set_same ht hview]
        | await j =>
          rcases Machine.step_await x ht hr with h | ⟨a, h⟩
          · simp [h, moveOf, ht, hr, Scene.step]
          · have hview := view_advance hr s.shared a (by simp) (by simp) (by simp)
            simp [h, moveOf, ht, hr, Scene.step, scene, Machine.map_set_same ht hview]
        | prim o =>
          have hmove : moveOf s (.op i x) = primMove s.shared i x o := by simp [moveOf, ht, hr]
          rw [Machine.step_prim x ht hr, hmove]
          exact scene_prim x ht hr

theorem scene_enabled (s : State arch) (a : Act) : (scene s).Enabled (moveOf s a) := by
  cases a with
  | env e => cases e <;> trivial
  | op i x =>
    cases ht : s.threads[i]? with
    | none => simp [moveOf, ht, Scene.Enabled]
    | some t =>
      cases hr : t.rest with
      | ret b => simp [moveOf, ht, hr, Scene.Enabled]
      | call o k =>
        have hview : (scene s).views[i]? = some (view t) := by simp [scene, ht]
        cases o with
        | fork l => simp [moveOf, ht, hr, Scene.Enabled]
        | await j => simp [moveOf, ht, hr, Scene.Enabled]
        | prim o =>
          have hmove : moveOf s (.op i x) = primMove s.shared i x o := by simp [moveOf, ht, hr]
          rw [hmove]
          cases o with
          | readScenario =>
            intro v hv
            cases hview.symm.trans hv
            exact not_read_of_rest hr
          | resetScenario b => exact ⟨view t, b, hview, reading_of_rest hr⟩
          | _ => trivial

end

/-! ## Handlings and scenarios -/

/-- The payload names a scenario of its own. -/
def Overrides (p : Payload) : Prop :=
  p.text "scenario" ≠ "" ∨ p.flag "simulate_crash" = true ∨ p.flag "simulate_no_ack" = true ∨
    p.flag "simulate_nak" = true ∨ p.flag "simulate_term" = true ∨
    p.flag "simulate_out_of_order" = true

instance (p : Payload) : Decidable (Overrides p) :=
  inferInstanceAs (Decidable (_ ∨ _ ∨ _ ∨ _ ∨ _ ∨ _))

theorem overrideScenario_of_not {p : Payload} (h : ¬ Overrides p) (value : String) :
    Handling.overrideScenario p value = value := by
  simp only [Overrides, not_or, ne_eq, not_not, Bool.not_eq_true] at h
  obtain ⟨htext, hcrash, hnoAck, hnak, hterm, hbatch⟩ := h
  simp [Handling.overrideScenario, htext, hcrash, hnoAck, hnak, hterm, hbatch]

theorem scenario_of_branchOf {scenario : String} {n : ℕ} {b : Branch}
    (h : Handling.branchOf scenario n = some b) : scenario = b.scenario := by
  unfold Handling.branchOf at h
  split_ifs at h with h1 h2 h3 h4 <;> cases h
  · exact h1.1
  · exact h2.1
  · exact h3.1
  · exact h4

theorem Branch.scenario_ne_normal (b : Branch) : b.scenario ≠ "normal" := by
  cases b <;> decide

/-- Without overrides a handling takes no branch but that of the scenario it read. -/
theorem Handling.Leads.scenario {h : Handling} {value : String} {b : Branch}
    (hleads : h.Leads value b) (hno : ¬ Overrides h.job.payload) : value = b.scenario := by
  rw [Handling.Leads, overrideScenario_of_not hno] at hleads
  exact scenario_of_branchOf hleads

end NatsDemo.Processor
