import NatsDemo.Processor.Scenario

/-!
# A one-shot scenario fires once

The goroutines that read a scenario before the first of them writes it back all execute
its branch.  So a request with `once` makes at most one handling execute its branch if
and only if no handling takes the scenario in between.
-/

namespace NatsDemo.Processor
open Lib Go Jobs Messaging

/-- The handling of a message without overrides that executes the branch of the scenario
which the `k`-th request set, to fire once. -/
def View.FiredBy (v : View) (k : ℕ) : Prop :=
  ∃ h r b, v.label.handling = some h ∧ ¬ Overrides h.job.payload ∧
    v.reading = some r ∧ r.stamp = k ∧ r.once = true ∧ h.Leads r.value b

namespace View
variable {v w : View} {k : ℕ}

theorem firedBy_congr (hlabel : v.label = w.label) (hreading : v.reading = w.reading) :
    v.FiredBy k ↔ w.FiredBy k := by
  simp only [FiredBy, hlabel, hreading]

theorem not_firedBy_of_not_read (h : v.reading = none) : ¬ v.FiredBy k := by
  simp [FiredBy, h]

/-- No branch belongs to the setting "normal". -/
theorem FiredBy.value_ne_normal {r : Reading} (h : View.FiredBy { v with reading := some r } k) :
    r.stamp = k ∧ r.value ≠ "normal" := by
  obtain ⟨h, r', b, -, hno, hr, hstamp, -, hleads⟩ := h
  cases hr
  refine ⟨hstamp, ?_⟩
  rw [hleads.scenario hno]
  exact b.scenario_ne_normal

end View

namespace Scene

/-- Every request makes at most one handling execute its branch. -/
def OneShot (c : Scene) : Prop :=
  ∀ (i j : ℕ) v w k, c.views[i]? = some v → c.views[j]? = some w →
    v.FiredBy k → w.FiredBy k → i = j

/-- Where a handling reads the scenario and takes it, all that took it before have
written it back. -/
def ReadsAlone (c : Scene) : Move → Prop
  | .read i => ∀ v, c.views[i]? = some v →
      View.FiredBy { v with reading := some c.setting } c.setting.stamp →
      ∀ (j : ℕ) w, c.views[j]? = some w → w.FiredBy c.setting.stamp → w.reset = true
  | _ => True

/-- Nobody took a scenario of the future, and one that was written back is gone. -/
structure Spent (c : Scene) : Prop where
  stamp_le : ∀ (i : ℕ) v k, c.views[i]? = some v → v.FiredBy k → k ≤ c.setting.stamp
  value_normal : ∀ (i : ℕ) v, c.views[i]? = some v → v.FiredBy c.setting.stamp →
    v.reset = true → c.setting.value = "normal"

/-- Where a view after a move comes from: it had read the same before, it has read
nothing, or it has just read the setting. -/
theorem step_view {c : Scene} {m : Move} {i : ℕ} {v' : View}
    (h : (c.step m).views[i]? = some v') :
    (∃ v, c.views[i]? = some v ∧ v'.label = v.label ∧ v'.reading = v.reading ∧
      (v'.reset = v.reset ∨ m = .writeBack i)) ∨
    v'.reading = none ∨
    (m = .read i ∧ ∃ v, c.views[i]? = some v ∧ v' = { v with reading := some c.setting }) := by
  cases m with
  | put value once => exact Or.inl ⟨v', h, rfl, rfl, Or.inl rfl⟩
  | read j =>
    rcases Machine.getElem?_modify_cases h with ⟨hv, -⟩ | ⟨rfl, v, hv, rfl⟩
    · exact Or.inl ⟨v', hv, rfl, rfl, Or.inl rfl⟩
    · exact Or.inr (Or.inr ⟨rfl, v, hv, rfl⟩)
  | fetch j n =>
    rcases Machine.getElem?_modify_cases h with ⟨hv, -⟩ | ⟨rfl, v, hv, rfl⟩
    · exact Or.inl ⟨v', hv, rfl, rfl, Or.inl rfl⟩
    · exact Or.inl ⟨v, hv, rfl, rfl, Or.inl rfl⟩
  | writeBack j =>
    rcases Machine.getElem?_modify_cases h with ⟨hv, -⟩ | ⟨rfl, v, hv, rfl⟩
    · exact Or.inl ⟨v', hv, rfl, rfl, Or.inl rfl⟩
    · exact Or.inl ⟨v, hv, rfl, rfl, Or.inr rfl⟩
  | start ls =>
    rcases Nat.lt_or_ge i c.views.length with hi | hi
    · exact Or.inl ⟨v', by rwa [step, List.getElem?_append_left hi] at h, rfl, rfl, Or.inl rfl⟩
    · rw [step, List.getElem?_append_right hi] at h
      obtain ⟨l, -, rfl⟩ := List.mem_map.mp (List.mem_of_getElem? h)
      exact Or.inr (Or.inl rfl)

section
variable {c : Scene} {m : Move}

/-- A handling that took a scenario had taken it before, or takes it by its reading. -/
theorem step_firedBy {i k : ℕ} {v' : View} (h : (c.step m).views[i]? = some v')
    (hfired : v'.FiredBy k) :
    (∃ v, c.views[i]? = some v ∧ v.FiredBy k ∧ (v'.reset = v.reset ∨ m = .writeBack i)) ∨
    (m = .read i ∧ k = c.setting.stamp ∧ c.setting.value ≠ "normal" ∧
      ∃ v, c.views[i]? = some v ∧ v' = { v with reading := some c.setting }) := by
  rcases step_view h with ⟨v, hv, hlabel, hreading, hreset⟩ | hnone | ⟨rfl, v, hv, rfl⟩
  · exact Or.inl ⟨v, hv, (View.firedBy_congr hlabel hreading).mp hfired, hreset⟩
  · exact absurd hfired (View.not_firedBy_of_not_read hnone)
  · exact Or.inr ⟨rfl, hfired.value_ne_normal.1.symm, hfired.value_ne_normal.2, v, hv, rfl⟩

theorem Spent.step (hs : c.Spent) (hm : c.Enabled m) : (c.step m).Spent where
  stamp_le i v' k hv' hfired := by
    have hle : c.setting.stamp ≤ (c.step m).setting.stamp := by
      cases m <;> simp [Scene.step]
    rcases step_firedBy hv' hfired with ⟨v, hv, hfired, -⟩ | ⟨-, rfl, -⟩
    · exact (hs.stamp_le i v k hv hfired).trans hle
    · exact hle
  value_normal i v' hv' hfired hreset := by
    rcases step_firedBy hv' hfired with ⟨v, hv, hfired', hsame⟩ | ⟨rfl, -, -, v, hv, rfl⟩
    · cases m with
      | put value once =>
        have := hs.stamp_le i v _ hv hfired'
        simp [Scene.step] at this
      | writeBack j => rfl
      | read j | fetch j n | start ls =>
        have hvreset : v.reset = true := by simpa [hreset] using hsame.symm
        exact hs.value_normal i v hv hfired' hvreset
    · exact absurd hreset (by simp [(hm v hv).2.2])

/-- From a scene in which it fires once, a scenario does so after a move if and only if
the move meets the condition. -/
theorem oneShot_step_iff (hs : c.Spent) (hm : c.Enabled m) (hone : c.OneShot) :
    (c.step m).OneShot ↔ c.ReadsAlone m := by
  constructor
  · intro hone'
    cases m with
    | read i =>
      intro v hv hfires j w hw hfired
      exfalso
      have hne : i ≠ j := by
        rintro rfl
        cases hv.symm.trans hw
        exact View.not_firedBy_of_not_read (hm v hv).1 hfired
      have hv' : (c.step (.read i)).views[i]? = some { v with reading := some c.setting } := by
        simp [step, hv]
      have hw' : (c.step (.read i)).views[j]? = some w := by simp [step, hne, hw]
      exact hne (hone' i j _ w _ hv' hw' hfires hfired)
    | _ => trivial
  · intro halone i j v' w' k hv' hw' hfv hfw
    -- a second reader of the armed setting would have found it written back
    have hclash (i j : ℕ) (v w : View) (hv : c.views[i]? = some v) (hw : c.views[j]? = some w)
        (hread : m = .read i) (hne : c.setting.value ≠ "normal")
        (hfires : View.FiredBy { v with reading := some c.setting } c.setting.stamp)
        (hfired : w.FiredBy c.setting.stamp) : False := by
      subst hread
      exact hne (hs.value_normal j w hw hfired (halone v hv hfires j w hw hfired))
    rcases step_firedBy hv' hfv with ⟨v, hv, hfv', -⟩ | ⟨hmi, rfl, hne, v, hv, rfl⟩
    · rcases step_firedBy hw' hfw with ⟨w, hw, hfw', -⟩ | ⟨hmj, rfl, hne, w, hw, rfl⟩
      · exact hone i j v w k hv hw hfv' hfw'
      · exact (hclash j i w v hw hv hmj hne hfw hfv').elim
    · rcases step_firedBy hw' hfw with ⟨w, hw, hfw', -⟩ | ⟨hmj, -, -, -⟩
      · exact (hclash i j v w hv hw hmi hne hfv hfw').elim
      · exact Move.read.inj (hmi.symm.trans hmj)

end

end Scene

/-- **When a one-shot scenario fires once.**  In every state of a run each request makes
at most one handling execute its branch, if and only if every step of the run reads the
scenario alone. -/
theorem oneShot_throughout_iff (arch : Platform) (as : List Act) :
    Throughout (stepWorld arch) (fun s => (scene s).OneShot) (State.empty arch) as ↔
      Meets (stepWorld arch) (fun s a => (scene s).ReadsAlone (moveOf s a)) (State.empty arch)
        as := by
  refine throughout_iff_meets (fun s => (scene s).Spent) ?_ ?_ as ?_ ?_
  · intro s a hs hone
    rw [scene_step]
    exact Scene.oneShot_step_iff hs (scene_enabled s a) hone
  · intro s a hs _ _
    rw [scene_step]
    exact hs.step (scene_enabled s a)
  · exact ⟨fun i v k hv => by simp [scene, State.empty] at hv,
      fun i v hv => by simp [scene, State.empty] at hv⟩
  · intro i j v w k hv
    simp [scene, State.empty] at hv

/-- Two workers read the armed scenario before one of them writes it back. -/
def twoReaders : List Act :=
  startUp ++ [.env (.control (.scaleWorkers 2)), .env (.store (jetStreamMsg "j1" [])),
    .env (.store (jetStreamMsg "j2" [])), .env (.putScenario "nak_message" true)] ++
  pulling 0 0 ++ pulling 1 1 ++ calls 4 4 ++ calls 5 4

theorem not_oneShot_two_readers :
    ¬ (scene (run (stepWorld .amd64) (State.empty .amd64) twoReaders)).OneShot := by
  intro hone
  have hne : (4 : ℕ) ≠ 5 := by decide
  refine hne (hone 4 5 _ _ 1 rfl rfl ?_ ?_)
  · exact ⟨_, ⟨1, "nak_message", true⟩, .nak, rfl, by decide, rfl, rfl, rfl, rfl⟩
  · exact ⟨_, ⟨1, "nak_message", true⟩, .nak, rfl, by decide, rfl, rfl, rfl, rfl⟩

end NatsDemo.Processor
