import NatsDemo.Processor.OneShot

/-!
# An armed scenario is not lost

A write-back does not ask what it overwrites, so an armed scenario can be disarmed by a
goroutine that never took it: one whose reading is older than the request, or one whose
payload named the scenario.  Where neither is bound to write back, whoever writes back
took the armed scenario.
-/

namespace NatsDemo.Processor
open Lib Go Jobs Messaging

/-- The setting is a scenario of the message handling, to fire once. -/
def Reading.Armed (r : Reading) : Prop :=
  r.once = true ∧ ∃ b : Branch, b ≠ .batch ∧ r.value = b.scenario

/-- The handling of a message without overrides that read just this setting, and executes
the branch of its scenario. -/
def View.Took (v : View) (r : Reading) (b : Branch) : Prop :=
  ∃ h, v.label.handling = some h ∧ ¬ Overrides h.job.payload ∧ v.reading = some r ∧
    h.Leads r.value b

namespace Scene

/-- A move leaves an armed scenario as it is, unless it is a request, or the write-back
of a handling that took it. -/
def KeepsArmed (c : Scene) (m : Move) : Prop :=
  c.setting.Armed →
    (c.step m).setting.value = c.setting.value ∨ (∃ value once, m = .put value once) ∨
      ∃ i v b, m = .writeBack i ∧ c.views[i]? = some v ∧ v.Due b ∧ v.Took c.setting b

/-- No request arms a scenario while a write-back is due; and while one is armed, no
handling takes a branch by its payload, and no out-of-order batch is fetched. -/
def Undisturbed (c : Scene) : Move → Prop
  | .put value once => Reading.Armed ⟨c.setting.stamp + 1, value, once⟩ →
      ∀ (i : ℕ) v b, c.views[i]? = some v → ¬ v.Due b
  | .read i => c.setting.Armed → ∀ v h b, c.views[i]? = some v → v.label.handling = some h →
      Overrides h.job.payload → ¬ h.Leads c.setting.value b
  | .fetch i n => c.setting.Armed → ∀ v, c.views[i]? = some v →
      ¬ View.Due { v with fetched := some n } .batch
  | _ => True

/-- While a scenario is armed, the write-backs due are those of handlings that took it. -/
def Held (c : Scene) : Prop :=
  c.setting.Armed → ∀ (i : ℕ) v b, c.views[i]? = some v → v.Due b → v.Took c.setting b

end Scene

/-- Only a handling takes the scenarios of the message handling. -/
theorem handling_of_leads {l : Label} {value : String} {b : Branch} (h : l.Leads value b)
    (hb : b ≠ .batch) : ∃ hd, l.handling = some hd ∧ hd.Leads value b := by
  cases l with
  | handle d worker => exact h
  | pull ctx worker => exact absurd h.2 hb
  | _ => exact h.elim

namespace Scene
variable {c : Scene} {m : Move}

theorem Held.read {i : ℕ} (hm : c.Enabled (.read i)) (hc : c.Undisturbed (.read i))
    (harmed : c.setting.Armed) {v : View} {b : Branch} (hv : c.views[i]? = some v)
    (hdue : View.Due { v with reading := some c.setting } b) :
    View.Took { v with reading := some c.setting } c.setting b := by
  obtain ⟨-, hbatch, r, hr, -, hleads⟩ := hdue
  obtain rfl : c.setting = r := Option.some_inj.mp hr
  have hb : b ≠ .batch := by
    intro hb
    simpa [(hm v hv).2.1] using hbatch hb
  obtain ⟨h, hh, hleads⟩ := handling_of_leads hleads hb
  exact ⟨h, hh, fun hov => hc harmed v h b hv hh hov hleads, rfl, hleads⟩

theorem Held.step (hs : c.Held) (hm : c.Enabled m) (hc : c.Undisturbed m) : (c.step m).Held := by
  intro harmed i v' b hv' hdue
  cases m with
  | put value once => exact absurd hdue (hc harmed i v' b hv')
  | read j =>
    rcases Machine.getElem?_modify_cases hv' with ⟨hv, -⟩ | ⟨rfl, v, hv, rfl⟩
    · exact hs harmed i v' b hv hdue
    · exact Held.read hm hc harmed hv hdue
  | fetch j n =>
    rcases Machine.getElem?_modify_cases hv' with ⟨hv, -⟩ | ⟨rfl, v, hv, rfl⟩
    · exact hs harmed i v' b hv hdue
    · by_cases hb : b = .batch
      · subst hb
        exact absurd hdue (hc harmed v hv)
      · exact hs harmed j v b hv ⟨hdue.1, fun hb' => absurd hb' hb, hdue.2.2⟩
  | writeBack j =>
    obtain ⟨-, b', -, hvalue⟩ := harmed
    exact absurd hvalue.symm b'.scenario_ne_normal
  | start ls =>
    rcases Nat.lt_or_ge i c.views.length with hi | hi
    · exact hs harmed i v' b (by rwa [Scene.step, List.getElem?_append_left hi] at hv') hdue
    · rw [Scene.step, List.getElem?_append_right hi] at hv'
      obtain ⟨l, -, rfl⟩ := List.mem_map.mp (List.mem_of_getElem? hv')
      exact absurd hdue (View.not_due_of_not_read rfl b)

theorem Held.keepsArmed (hs : c.Held) (hm : c.Enabled m) : c.KeepsArmed m := by
  intro harmed
  cases m with
  | put value once => exact Or.inr (Or.inl ⟨value, once, rfl⟩)
  | writeBack i =>
    obtain ⟨v, b, hv, hdue⟩ := hm
    exact Or.inr (Or.inr ⟨i, v, b, rfl, hv, hdue, hs harmed i v b hv hdue⟩)
  | _ => exact Or.inl rfl

end Scene

/-- **When an armed scenario is not lost.**  In a run without disturbance every step
leaves an armed scenario as it is, unless a request replaces it or a handling that took
it executes its branch. -/
theorem keepsArmed_of_undisturbed (arch : Platform) {as : List Act}
    (has : Meets (stepWorld arch) (fun s a => (scene s).Undisturbed (moveOf s a))
      (State.empty arch) as) :
    Meets (stepWorld arch) (fun s a => (scene s).KeepsArmed (moveOf s a)) (State.empty arch)
      as := by
  refine meets_of_inv (fun s => (scene s).Held) ?_ ?_ ?_ has
  · intro s a hs hc
    rw [scene_step]
    exact hs.step (scene_enabled s a) hc
  · intro s a hs _
    exact hs.keepsArmed (scene_enabled s a)
  · intro _ i v b hv
    simp [scene, State.empty] at hv

/-- A handling takes the armed scenario, and executes its branch. -/
def takenRun : List Act :=
  startUp ++ [.env (.putScenario "nak_message" true), .env (.store (jetStreamMsg "j1" []))] ++
    pulling 0 0 ++ calls 2 5

theorem keepsArmed_taken :
    Meets (stepWorld .amd64) (fun s a => (scene s).KeepsArmed (moveOf s a)) (State.empty .amd64)
      takenRun := by
  apply keepsArmed_of_undisturbed .amd64
  refine ⟨trivial, trivial, trivial, ?put, trivial, trivial, trivial, ?pullReads, ?fetch, trivial,
    trivial, trivial, trivial, ?handlingReads, trivial, trivial⟩
  case put =>
    intro _ i v b hv
    cases i <;> cases hv
    exact View.not_due_of_not_read rfl b
  case pullReads =>
    intro _ v h b hv hh
    cases hv
    cases hh
  case fetch =>
    intro _ v hv
    cases hv
    rintro ⟨-, hfetched, -⟩
    exact absurd (hfetched rfl) (by decide)
  case handlingReads =>
    intro _ v h b hv hh hov
    cases hv
    cases hh
    exact absurd hov (by decide)

/-- The message asks for a NAK by its payload while a crash is armed. -/
def overriddenRun : List Act :=
  startUp ++ [.env (.store (jetStreamMsg "j1" [("simulate_nak", .bool true)])),
    .env (.putScenario "crash_before_ack" true)] ++ pulling 0 0 ++ calls 2 4

/-- Its write-back disarms the crash. -/
theorem not_keepsArmed_override :
    ¬ Meets (stepWorld .amd64) (fun s a => (scene s).KeepsArmed (moveOf s a)) (State.empty .amd64)
      (overriddenRun ++ calls 2 1) := by
  intro h
  have hlast := ((meets_append _ overriddenRun _).mp h).2.1
  rcases hlast ⟨rfl, .crash, by decide, rfl⟩ with
    hkeep | ⟨value, once, hput⟩ | ⟨i, v, b, hi, hv, -, htook⟩
  · exact absurd hkeep (by decide)
  · cases hput
  · cases hi
    cases hv
    obtain ⟨h, hh, hno, -⟩ := htook
    cases hh
    exact hno (by decide)

end NatsDemo.Processor
