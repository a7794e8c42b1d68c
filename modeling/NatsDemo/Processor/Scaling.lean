import NatsDemo.Processor.Health

/-!
# Scaling the pool

While no worker crashes, slot `k` of the registry holds the live loop `processor-(k+1)`.  A
call of `ScaleWorkers` then cancels just the loops above the new size, starts just those
that are missing, and leaves every other one alone.
-/

namespace NatsDemo.Processor
open Lib Go

/-- A section that is no part of a simulated crash. -/
def Section.Uncrashed : Section → Prop
  | .crash _ | .respawn _ => False
  | _ => True

/-- The size that `ScaleWorkers` is to reach. -/
def App.targetSize (a : App) (targetCount : ℤ) : ℕ :=
  if a.consumerConfig.ordering = "ordered" then 1 else clampWorkers targetCount

namespace Pool

/-- The processor of some ordering before it runs. -/
def idle (ordering : String) : Pool := { app := { consumerConfig := { ordering } } }

/-- The slots hold the live loops, each under its own name. -/
structure Orderly (p : Pool) : Prop where
  named : p.Named
  registered : p.Registered
  allRunning : p.AllRunning

/-- What a call of `ScaleWorkers` does to the loops on the way to the size `k`: those above it
are cancelled, the missing ones are started, and the others stay as they are. -/
structure Resizes (k : ℕ) (p p' : Pool) : Prop where
  live : ∀ w, (∃ i, p'.isLive i = true ∧ p'.nameOf i = some w) ↔
    ∃ j < k, w = workerName (j + 1)
  distinct : ∀ i j, p'.isLive i = true → p'.isLive j = true → p'.nameOf i = p'.nameOf j → i = j
  kept : ∀ i j, p.isLive i = true → p.nameOf i = some (workerName (j + 1)) → j < k →
    p'.loops[i]? = p.loops[i]?
  cancelled : ∀ i j, p.isLive i = true → p.nameOf i = some (workerName (j + 1)) → k ≤ j →
    p'.loops[i]? = (p.loops[i]?).map fun l => { l with cancelled := true }
  others : ∀ i < p.loops.length, p.isLive i = false → p'.loops[i]? = p.loops[i]?
  started : p'.loops.drop p.loops.length =
    (List.range' (p.live.card + 1) (k - p.live.card)).map fun j => { name := workerName j }
  workers : p'.app.consumerConfig.workers = k
  active : p'.app.activeGoroutines = k
  slots : p'.app.workerCancels.length = k

/-! ## The pool stays orderly -/

theorem orderly_idle (ordering : String) : (idle ordering).Orderly where
  named := ⟨by simp [idle], by simp [idle, nameOf], by simp [idle], le_rfl, by simp [idle]⟩
  registered := by simp [Registered, idle, isLive]
  allRunning := ⟨List.nodup_nil, List.forall_mem_nil _⟩

theorem Orderly.of_app {p : Pool} (h : p.Orderly) {a : App}
    (hcancels : a.workerCancels = p.app.workerCancels)
    (hconfig : a.consumerConfig = p.app.consumerConfig) :
    ({ p with app := a } : Pool).Orderly :=
  ⟨h.named.of_app hcancels hconfig, h.registered.of_app hcancels, h.allRunning.of_app hcancels⟩

theorem Orderly.scaleWorkers {p : Pool} (h : p.Orderly) (n : ℤ) :
    (p.step (.scaleWorkers n)).Orderly :=
  ⟨h.named.scaleWorkers n, h.registered.scaleWorkers n, h.allRunning.scaleWorkers n⟩

theorem Orderly.step {p : Pool} (h : p.Orderly) {a : Section} (ha : a.Uncrashed) :
    (p.step a).Orderly := by
  cases a with
  | startWorkers =>
    exact ⟨h.named.startWorkers, h.registered.startWorkers, AllRunning.startWorkers⟩
  | cancelWorkers =>
    exact ⟨named_step h.named trivial, h.registered.cancelWorkers, List.nodup_nil,
      List.forall_mem_nil _⟩
  | scaleWorkers n => exact h.scaleWorkers n
  | crash i => exact ha.elim
  | respawn k => exact ha.elim
  | _ => exact step_of_plain (P := Orderly) trivial fun app => h.of_app

theorem orderly_run (ordering : String) {as : List Section} (has : ∀ a ∈ as, a.Uncrashed) :
    (run step (idle ordering) as).Orderly :=
  run_inv Orderly (fun _ _ h ha => h.step ha) (orderly_idle ordering)
    (meets_of_mem (fun a ha _ => has a ha) _)

/-! ## One call -/

section
variable {p : Pool} {n : ℤ} {i j : ℕ}

/-- A live loop stands in the slot of its name. -/
theorem Orderly.slot (h : p.Orderly) (hi : p.isLive i = true)
    (hname : p.nameOf i = some (workerName (j + 1))) : p.app.workerCancels[j]? = some i := by
  obtain ⟨k, hk, hslot⟩ := h.registered i hi
  have hjk : workerName (j + 1) = workerName (k + 1) := Option.some.inj (hname.symm.trans hk)
  obtain rfl : j = k := Nat.succ.inj (workerName_injective hjk)
  exact hslot

/-- Of the live loops, those above the size that is to be reached are cancelled. -/
theorem Orderly.mem_cancelled_iff (h : p.Orderly) (hi : p.isLive i = true)
    (hname : p.nameOf i = some (workerName (j + 1))) :
    i ∈ (p.app.scaleWorkers p.loops.length n).cancelled ↔ p.app.targetSize n ≤ j := by
  have hslot := h.slot hi hname
  have hdrop : (p.app.scaleWorkers p.loops.length n).cancelled =
      p.app.workerCancels.drop (p.app.targetSize n) := rfl
  rw [hdrop]
  constructor
  · intro hmem
    obtain ⟨m, hm⟩ := List.mem_iff_getElem?.mp hmem
    rw [List.getElem?_drop] at hm
    have hlt := (List.getElem?_eq_some_iff.mp hslot).1
    have hsame : p.app.targetSize n + m = j :=
      ((List.getElem?_inj hlt h.allRunning.nodup).mp (hslot.trans hm.symm)).symm
    omega
  · intro hle
    refine List.mem_of_getElem? (i := j - p.app.targetSize n) ?_
    rw [List.getElem?_drop, Nat.add_sub_cancel' hle]
    exact hslot

/-- A call cancels live loops only. -/
theorem Orderly.not_mem_cancelled (h : p.Orderly) (hi : p.isLive i = false) :
    i ∉ (p.app.scaleWorkers p.loops.length n).cancelled := by
  intro hmem
  have hlive := h.allRunning.running i (List.mem_of_mem_drop hmem)
  rw [hi] at hlive
  cases hlive

theorem loops_of_not_mem {c : Change} (hi : i < p.loops.length) (hc : i ∉ c.cancelled) :
    (p.apply c).loops[i]? = p.loops[i]? := by
  rw [apply_loops_lt hi]
  simp [hc]

theorem length_slots_scaleWorkers :
    (p.step (.scaleWorkers n)).app.workerCancels.length = p.app.targetSize n := by
  have hlength : (p.step (.scaleWorkers n)).app.workerCancels.length =
      min (p.app.targetSize n) p.app.workerCancels.length +
        (p.app.targetSize n - p.app.workerCancels.length) := by
    simp [Pool.step, App.scaleWorkers, App.targetSize]
  omega

/-- **One call of `ScaleWorkers`.** -/
theorem Orderly.resizes (h : p.Orderly) (n : ℤ) :
    Resizes (p.app.targetSize n) p (p.step (.scaleWorkers n)) := by
  have h' := h.scaleWorkers n
  have hslots := length_slots_scaleWorkers (p := p) (n := n)
  have hcard := h.allRunning.card_live h.registered
  refine ⟨?_, ?_, ?_, ?_, ?_, ?_, rfl, hslots, hslots⟩
  · intro w
    constructor
    · rintro ⟨i, hi, hname⟩
      obtain ⟨j, hj, hslot⟩ := h'.registered i hi
      have hlt := (List.getElem?_eq_some_iff.mp hslot).1
      exact ⟨j, hslots ▸ hlt, Option.some.inj (hname.symm.trans hj)⟩
    · rintro ⟨j, hj, rfl⟩
      have hslot := List.getElem?_eq_getElem (hslots.symm ▸ hj)
      exact ⟨_, h'.allRunning.running _ (List.mem_of_getElem? hslot), h'.named.slots j _ hslot⟩
  · refine (registryExact_of_length_le h'.registered ?_).distinct
    rw [hslots]
    exact le_rfl
  · intro i j hi hname hlt
    refine loops_of_not_mem (isLive_lt_length hi) ?_
    rw [h.mem_cancelled_iff hi hname]
    omega
  · intro i j hi hname hle
    have hmem := (h.mem_cancelled_iff (n := n) hi hname).mpr hle
    refine (apply_loops_lt (isLive_lt_length hi)).trans ?_
    simp [hmem]
  · intro i hlt hi
    exact loops_of_not_mem hlt (h.not_mem_cancelled hi)
  · rw [hcard]
    simp [Pool.step, apply, App.scaleWorkers, App.targetSize]

end

end Pool

end NatsDemo.Processor
