import Mathlib.Tactic.IntervalCases
import NatsDemo.Go.Number
import NatsDemo.Processor.Pool

/-!
# The registry of pull workers

Slot `k` of `workerCancels` is meant for the worker `processor-(k+1)`.  All the sections
respect this but one: a supervisor wakes up long after its crash and puts its worker
back by name, whatever has become of the slots in the meantime.
-/

namespace NatsDemo.Processor
open Lib Go

/-! ## Worker names -/

theorem workerName_injective : Function.Injective workerName := by
  intro i j h
  have h' : toString i = toString j := by
    simpa [workerName, String.append_right_inj] using h
  exact toString_nat_injective h'

/-- The names the pool gives: it never has more than five slots to start from. -/
def IsWorkerName (w : String) : Prop := ∃ k < 5, w = workerName (k + 1)

theorem scanWorker_workerName {k : ℕ} (h : k < 5) :
    scanWorker (workerName (k + 1)) = some ((k : ℤ) + 1) := by
  interval_cases k <;> decide

theorem clampWorkers_pos (n : ℤ) : 1 ≤ clampWorkers n := by
  rw [clampWorkers]
  split_ifs <;> omega

theorem clampWorkers_le (n : ℤ) : clampWorkers n ≤ 5 := by
  rw [clampWorkers]
  split_ifs <;> omega

/-! ## The registry -/

namespace Pool

/-- Every live loop stands in the slot its name says. -/
def Registered (p : Pool) : Prop :=
  ∀ i, p.isLive i = true →
    ∃ k, p.nameOf i = some (workerName (k + 1)) ∧ p.app.workerCancels[k]? = some i

/-- The registry is exact: the live loops have names of their own and stand in the slots
of these, there are no more of them than configured, and cancelling all the entries
leaves none. -/
structure RegistryExact (p : Pool) : Prop where
  distinct : ∀ i j, p.isLive i = true → p.isLive j = true → p.nameOf i = p.nameOf j → i = j
  registered : p.Registered
  bounded : p.live.card ≤ p.app.consumerConfig.workers
  stoppable : (p.apply p.app.cancelWorkers).live = ∅

theorem Registered.mem_workerCancels {p : Pool} (h : p.Registered) {i : ℕ}
    (hi : p.isLive i = true) : i ∈ p.app.workerCancels := by
  obtain ⟨k, -, hk⟩ := h i hi
  exact List.mem_of_getElem? hk

/-- The names and the way to stop the loops follow from the slots. -/
theorem registryExact_iff {p : Pool} :
    p.RegistryExact ↔ p.Registered ∧ p.live.card ≤ p.app.consumerConfig.workers := by
  refine ⟨fun h => ⟨h.registered, h.bounded⟩, ?_⟩
  rintro ⟨hreg, hcard⟩
  refine ⟨?_, hreg, hcard, ?_⟩
  · intro i j hi hj hname
    obtain ⟨k, hk, hik⟩ := hreg i hi
    obtain ⟨m, hm, hjm⟩ := hreg j hj
    have hkm : k + 1 = m + 1 :=
      workerName_injective (Option.some.inj (hk.symm.trans (hname.trans hm)))
    obtain rfl : k = m := by omega
    exact Option.some.inj (hik.symm.trans hjm)
  · refine Finset.eq_empty_of_forall_notMem fun i hi => ?_
    rcases isLive_apply.mp (mem_live.mp hi) with ⟨hlive, hnot⟩ | ⟨hle, hlt⟩
    · exact hnot (hreg.mem_workerCancels hlive)
    · simp [App.cancelWorkers] at hlt
      omega

theorem registryExact_of_length_le {p : Pool} (h : p.Registered)
    (hlen : p.app.workerCancels.length ≤ p.app.consumerConfig.workers) : p.RegistryExact :=
  registryExact_iff.mpr ⟨h, (card_live_le fun _ => h.mem_workerCancels).trans hlen⟩

theorem Registered.of_app {p : Pool} (h : p.Registered) {a : App}
    (hcancels : a.workerCancels = p.app.workerCancels) :
    ({ p with app := a } : Pool).Registered := by
  intro i hi
  obtain ⟨k, hk, hik⟩ := h i hi
  exact ⟨k, hk, by simpa only [hcancels] using hik⟩

/-- A section that leaves the slots and the loops alone leaves the registry exact. -/
theorem RegistryExact.of_app {p : Pool} (h : p.RegistryExact) {a : App}
    (hcancels : a.workerCancels = p.app.workerCancels)
    (hconfig : a.consumerConfig = p.app.consumerConfig) :
    ({ p with app := a } : Pool).RegistryExact := by
  refine registryExact_iff.mpr ⟨h.registered.of_app hcancels, ?_⟩
  show p.live.card ≤ a.consumerConfig.workers
  rw [hconfig]
  exact h.bounded

/-! ### What keeps it exact -/

theorem Registered.scaleWorkers {p : Pool} (h : p.Registered) (n : ℤ) :
    (p.apply (p.app.scaleWorkers p.loops.length n)).Registered := by
  intro i hi
  rcases isLive_apply.mp hi with ⟨hlive, hnot⟩ | ⟨hle, hlt⟩
  · obtain ⟨k, hname, hk⟩ := h i hlive
    refine ⟨k, nameOf_apply_of_some hname, ?_⟩
    have hlt := (List.getElem?_eq_some_iff.mp hk).1
    simp only [apply_app, App.scaleWorkers] at hnot ⊢
    generalize (if p.app.consumerConfig.ordering = "ordered" then 1 else clampWorkers n) = t
      at hnot ⊢
    -- a slot that was dropped would be among the cancelled ones
    have hkt : k < t := by
      by_contra hge
      refine hnot (List.mem_of_getElem? (i := k - t) ?_)
      rw [List.getElem?_drop, Nat.add_sub_cancel' (by omega)]
      exact hk
    rw [List.getElem?_append_left (by simp; omega), List.getElem?_take_of_lt hkt]
    exact hk
  · obtain ⟨m, rfl⟩ := Nat.exists_eq_add_of_le hle
    simp only [App.scaleWorkers, List.length_map, List.length_range'] at hlt
    refine ⟨p.app.workerCancels.length + m, ?_, ?_⟩
    · rw [nameOf_apply_add]
      simp only [App.scaleWorkers, List.getElem?_map]
      rw [List.getElem?_range' (by omega)]
      exact congrArg (fun j => some (workerName j)) (by omega)
    · simp only [apply_app, App.scaleWorkers]
      rw [List.getElem?_append_right (by simp), List.getElem?_range' (by simp; omega)]
      simp
      omega

theorem Registered.startWorkers {p : Pool} (h : p.Registered) :
    (p.apply (p.app.startWorkers p.loops.length)).Registered := by
  intro i hi
  rcases isLive_apply.mp hi with ⟨hlive, hnot⟩ | ⟨hle, hlt⟩
  · exact absurd (h.mem_workerCancels hlive) hnot
  · obtain ⟨m, rfl⟩ := Nat.exists_eq_add_of_le hle
    simp only [App.startWorkers, List.length_map, List.length_range'] at hlt
    refine ⟨m, ?_, ?_⟩
    · rw [nameOf_apply_add]
      simp only [App.startWorkers, List.getElem?_map]
      rw [List.getElem?_range' (by omega)]
      exact congrArg (fun j => some (workerName j)) (by omega)
    · simp only [apply_app, App.startWorkers]
      rw [List.getElem?_range' (by omega)]
      simp

theorem Registered.cancelWorkers {p : Pool} (h : p.Registered) :
    (p.apply p.app.cancelWorkers).Registered := by
  intro i hi
  rcases isLive_apply.mp hi with ⟨hlive, hnot⟩ | ⟨hle, hlt⟩
  · exact absurd (h.mem_workerCancels hlive) hnot
  · simp [App.cancelWorkers] at hlt
    omega

theorem Registered.crash {p : Pool} (h : p.Registered) (j : ℕ) : (p.crash j).Registered := by
  intro i hi
  rcases crash_cases p j with ⟨-, heq⟩ | ⟨l, hl, hc, heq⟩
  · rw [heq] at hi ⊢
    exact h i hi
  · obtain ⟨k, hname, hk⟩ := h i ((isLive_crash hl hc i).mp hi).1
    refine ⟨k, (nameOf_crash p j i).trans hname, ?_⟩
    rw [heq]
    exact hk

theorem card_live_crash_le (p : Pool) (j : ℕ) : (p.crash j).live.card ≤ p.live.card := by
  rcases crash_cases p j with ⟨-, heq⟩ | ⟨l, hl, hc, -⟩
  · rw [heq]
  · rw [live_crash hl hc]
    exact Finset.card_erase_le

/-! ### What the respawn needs -/

/-- What the names in the pool are: the slots hold loops of their own names, and every
worker is `processor-1` to `processor-5`. -/
structure Named (p : Pool) : Prop where
  slots : ∀ k i, p.app.workerCancels[k]? = some i → p.nameOf i = some (workerName (k + 1))
  names : ∀ i w, p.nameOf i = some w → IsWorkerName w
  pending : ∀ w ∈ p.respawns, IsWorkerName w
  workers_pos : 1 ≤ p.app.consumerConfig.workers
  workers_le : p.app.consumerConfig.workers ≤ 5

/-- When a supervisor wakes up, fewer loops are live than configured, and the slot of its
worker is the next free one or holds a loop that is not live. -/
def RespawnFits (p : Pool) : Section → Prop
  | .respawn k => ∀ w, p.respawns[k]? = some w →
      p.live.card < p.app.consumerConfig.workers ∧
        ∃ m, w = workerName (m + 1) ∧ (m = p.app.workerCancels.length ∨
          ∃ i, p.app.workerCancels[m]? = some i ∧ p.isLive i = false)
  | _ => True

theorem respawn_workerCancels {a : App} (next : ℕ) {m : ℕ} (hm : m < 5) :
    (a.respawn next (workerName (m + 1))).app.workerCancels =
      if m < a.workerCancels.length then a.workerCancels.set m next
      else a.workerCancels ++ [next] := by
  simp only [App.respawn, scanWorker_workerName hm]
  by_cases h : m < a.workerCancels.length
  · have hrange : 1 ≤ (m : ℤ) + 1 ∧ (m : ℤ) + 1 ≤ a.workerCancels.length := by omega
    have hidx : ((m : ℤ) + 1 - 1).toNat = m := by omega
    rw [if_pos h, if_pos hrange, hidx]
  · have hrange : ¬ (1 ≤ (m : ℤ) + 1 ∧ (m : ℤ) + 1 ≤ a.workerCancels.length) := by omega
    rw [if_neg h, if_neg hrange]

/-- The worker put back stands in its own slot if that was there, or was the next one. -/
theorem respawn_getElem?_self {a : App} (next : ℕ) {m : ℕ} (hm : m < 5) :
    (a.respawn next (workerName (m + 1))).app.workerCancels[m]? = some next ↔
      m ≤ a.workerCancels.length := by
  rw [respawn_workerCancels next hm]
  split
  next h => simp [List.getElem?_set_self h, h.le]
  next h =>
    constructor
    · intro hget
      have hlt := (List.getElem?_eq_some_iff.mp hget).1
      simp at hlt
      omega
    · intro hle
      obtain rfl : m = a.workerCancels.length := by omega
      simp

theorem respawn_getElem?_of_ne {a : App} (next : ℕ) {m k : ℕ} (hm : m < 5)
    (hle : m ≤ a.workerCancels.length) (hmk : m ≠ k) :
    (a.respawn next (workerName (m + 1))).app.workerCancels[k]? = a.workerCancels[k]? := by
  rw [respawn_workerCancels next hm]
  split
  · rw [List.getElem?_set_ne hmk]
  · rcases Nat.lt_or_ge k a.workerCancels.length with hk | hk
    · rw [List.getElem?_append_left hk]
    · rw [List.getElem?_eq_none hk, List.getElem?_eq_none (by simp; omega)]

theorem registered_wake_iff {p : Pool} (hp : p.Registered) (hn : p.Named) (k : ℕ) {m : ℕ}
    (hm : m < 5) : (p.wake k (workerName (m + 1))).Registered ↔
      m = p.app.workerCancels.length ∨
        ∃ i, p.app.workerCancels[m]? = some i ∧ p.isLive i = false := by
  constructor
  · intro h
    obtain ⟨m', hname, hslot⟩ := h p.loops.length (isLive_wake.mpr (Or.inr rfl))
    have hname' : workerName (m + 1) = workerName (m' + 1) := by simpa using hname
    obtain rfl : m = m' := Nat.succ.inj (workerName_injective hname')
    rw [wake_app, respawn_getElem?_self _ hm] at hslot
    rcases hslot.eq_or_lt with heq | hlt
    · exact Or.inl heq
    refine Or.inr ⟨_, List.getElem?_eq_getElem hlt, ?_⟩
    -- a live loop that loses its slot to the new one has nowhere else to stand
    by_contra hlive
    rw [Bool.not_eq_false] at hlive
    have hi := hn.slots m _ (List.getElem?_eq_getElem hlt)
    obtain ⟨m', hname, hslot'⟩ := h _ (isLive_wake.mpr (Or.inl hlive))
    rw [nameOf_wake_of_some hi, Option.some.injEq] at hname
    obtain rfl : m = m' := Nat.succ.inj (workerName_injective hname)
    rw [wake_app, (respawn_getElem?_self _ hm).mpr hlt.le, Option.some.injEq] at hslot'
    exact (isLive_lt_length hlive).ne hslot'.symm
  · intro hfree i hi
    have hle : m ≤ p.app.workerCancels.length := by
      rcases hfree with rfl | ⟨j, hj, -⟩
      · exact le_rfl
      · exact (List.getElem?_eq_some_iff.mp hj).1.le
    rcases isLive_wake.mp hi with hlive | rfl
    · obtain ⟨k', hname, hslot⟩ := hp i hlive
      refine ⟨k', nameOf_wake_of_some hname, ?_⟩
      have hne : m ≠ k' := by
        rintro rfl
        rcases hfree with rfl | ⟨j, hj, hdead⟩
        · simp at hslot
        · obtain rfl : j = i := Option.some.inj (hj.symm.trans hslot)
          simp [hlive] at hdead
      rw [wake_app]
      rwa [respawn_getElem?_of_ne _ hm hle hne]
    · exact ⟨m, nameOf_wake_new, by rw [wake_app]; exact (respawn_getElem?_self _ hm).mpr hle⟩

/-! ### Every section -/

theorem registryExact_step_iff {p : Pool} (hn : p.Named) (hp : p.RegistryExact) (a : Section) :
    (p.step a).RegistryExact ↔ p.RespawnFits a := by
  cases a with
  | startWorkers =>
    refine iff_of_true (registryExact_of_length_le hp.registered.startWorkers ?_) trivial
    have := hn.workers_pos
    simp only [step, apply_app, App.startWorkers, List.length_range']
    split_ifs <;> omega
  | cancelWorkers =>
    refine iff_of_true (registryExact_of_length_le hp.registered.cancelWorkers ?_) trivial
    simp [step, App.cancelWorkers]
  | scaleWorkers n =>
    refine iff_of_true (registryExact_of_length_le (hp.registered.scaleWorkers n) ?_) trivial
    simp only [step, apply_app, App.scaleWorkers, List.length_append, List.length_take,
      List.length_range']
    omega
  | crash i =>
    refine iff_of_true (registryExact_iff.mpr ⟨hp.registered.crash i, ?_⟩) trivial
    have hconfig : (p.crash i).app.consumerConfig = p.app.consumerConfig := by
      rcases crash_cases p i with ⟨-, h⟩ | ⟨l, -, -, h⟩
      · rw [h]
      · rw [h]
        rfl
    simp only [step]
    rw [hconfig]
    exact (card_live_crash_le p i).trans hp.bounded
  | respawn k =>
    simp only [step, RespawnFits]
    rcases respawn_cases p k with ⟨hnone, h⟩ | ⟨w, hw, h⟩
    · exact iff_of_true (by rwa [h]) (by simp [hnone])
    · obtain ⟨m, hm, rfl⟩ := hn.pending w (List.mem_of_getElem? hw)
      rw [h, registryExact_iff, registered_wake_iff hp.registered hn k hm, card_live_wake, hw]
      constructor
      · rintro ⟨hfree, hcard⟩ w hname
        exact ⟨hcard, m, (Option.some.inj hname).symm, hfree⟩
      · intro hfits
        obtain ⟨hcard, m', hname, hfree⟩ := hfits _ rfl
        obtain rfl : m = m' := Nat.succ.inj (workerName_injective hname)
        exact ⟨hfree, hcard⟩
  | _ =>
    refine iff_of_true ?_ trivial
    exact step_of_plain (P := RegistryExact) trivial fun app => hp.of_app

/-! ### The names stay as they should -/

/-- The names after a change are old ones and those of the loops it starts. -/
theorem names_apply {P : String → Prop} {p : Pool} {c : Change}
    (hnames : ∀ i w, p.nameOf i = some w → P w) (hstarted : ∀ w ∈ c.started, P w) :
    ∀ i w, (p.apply c).nameOf i = some w → P w := by
  intro i w hw
  rcases nameOf_apply_cases hw with hold | hnew
  · exact hnames i w hold
  · exact hstarted w hnew

/-- After a crash, those waiting to come back have names that there were before. -/
theorem pending_crash {P : String → Prop} {p : Pool}
    (hnames : ∀ i w, p.nameOf i = some w → P w) (hpending : ∀ w ∈ p.respawns, P w) (i : ℕ) :
    ∀ w ∈ (p.crash i).respawns, P w := by
  rcases crash_cases p i with ⟨-, heq⟩ | ⟨l, hl, -, heq⟩
  · rw [heq]
    exact hpending
  · intro w hw
    rw [heq] at hw
    rcases List.mem_append.mp hw with hw | hw
    · exact hpending w hw
    · exact hnames i w (by simp [nameOf, hl, List.mem_singleton.mp hw])

theorem Named.of_app {p : Pool} (h : p.Named) {a : App}
    (hcancels : a.workerCancels = p.app.workerCancels)
    (hconfig : a.consumerConfig = p.app.consumerConfig) : ({ p with app := a } : Pool).Named where
  slots k i hk := h.slots k i (by rwa [← hcancels])
  names := h.names
  pending := h.pending
  workers_pos := by
    show 1 ≤ a.consumerConfig.workers
    rw [hconfig]
    exact h.workers_pos
  workers_le := by
    show a.consumerConfig.workers ≤ 5
    rw [hconfig]
    exact h.workers_le

/-- A change keeps the names if the loops it starts are workers and the slots it sets up
are theirs. -/
theorem Named.apply {p : Pool} (h : p.Named) {c : Change}
    (hstarted : ∀ w ∈ c.started, IsWorkerName w)
    (hslots : ∀ k i, c.app.workerCancels[k]? = some i →
      p.app.workerCancels[k]? = some i ∨
        ∃ m, i = p.loops.length + m ∧ c.started[m]? = some (workerName (k + 1)))
    (hpos : 1 ≤ c.app.consumerConfig.workers) (hle : c.app.consumerConfig.workers ≤ 5) :
    (p.apply c).Named where
  slots k i hk := by
    rcases hslots k i hk with hold | ⟨m, rfl, hm⟩
    · exact nameOf_apply_of_some (h.slots k i hold)
    · rwa [nameOf_apply_add]
  names := names_apply h.names hstarted
  pending := h.pending
  workers_pos := hpos
  workers_le := hle

theorem isWorkerName_of_mem {w : String} {i n : ℕ} (hi : 1 ≤ i) (hle : 0 < n → i + n ≤ 6)
    (h : w ∈ (List.range' i n).map workerName) : IsWorkerName w := by
  obtain ⟨j, hj, rfl⟩ := List.mem_map.mp h
  obtain ⟨hij, hjn⟩ := List.mem_range'_1.mp hj
  have := hle (by omega)
  exact ⟨j - 1, by omega, by rw [Nat.sub_add_cancel (by omega)]⟩

theorem Named.startWorkers {p : Pool} (h : p.Named) :
    (p.apply (p.app.startWorkers p.loops.length)).Named := by
  have hpos := h.workers_pos
  have hle := h.workers_le
  refine h.apply ?_ ?_ hpos hle
  · intro w hw
    refine isWorkerName_of_mem (Nat.le_refl 1) (fun _ => ?_) hw
    split_ifs <;> omega
  · intro k i hk
    obtain ⟨hlt, rfl⟩ := List.getElem?_eq_some_iff.mp hk
    simp only [App.startWorkers, List.length_range'] at hlt
    refine Or.inr ⟨k, by simp [App.startWorkers], ?_⟩
    simp only [App.startWorkers, List.getElem?_map]
    rw [List.getElem?_range' hlt]
    exact congrArg (fun j => some (workerName j)) (by omega)

theorem Named.scaleWorkers {p : Pool} (h : p.Named) (n : ℤ) :
    (p.apply (p.app.scaleWorkers p.loops.length n)).Named := by
  have hpos := clampWorkers_pos n
  have hle := clampWorkers_le n
  refine h.apply ?_ ?_ ?_ ?_
  · intro w hw
    refine isWorkerName_of_mem (by omega) (fun hpos => ?_) hw
    split_ifs at hpos ⊢ <;> omega
  · intro k i hk
    simp only [App.scaleWorkers] at hk ⊢
    generalize (if p.app.consumerConfig.ordering = "ordered" then 1 else clampWorkers n) = t
      at hk ⊢
    rcases Nat.lt_or_ge k (p.app.workerCancels.take t).length with hlt | hge
    · rw [List.getElem?_append_left hlt] at hk
      rw [List.length_take] at hlt
      rw [List.getElem?_take_of_lt (by omega)] at hk
      exact Or.inl hk
    · rw [List.getElem?_append_right hge] at hk
      obtain ⟨hlt, rfl⟩ := List.getElem?_eq_some_iff.mp hk
      simp only [List.length_take, List.length_range'] at hge hlt
      refine Or.inr ⟨k - p.app.workerCancels.length, by simp; omega, ?_⟩
      rw [List.getElem?_map, List.getElem?_range' (by omega)]
      exact congrArg (fun j => some (workerName j)) (by omega)
  · simp only [App.scaleWorkers]
    split_ifs <;> omega
  · simp only [App.scaleWorkers]
    split_ifs <;> omega

theorem Named.crash {p : Pool} (h : p.Named) (i : ℕ) : (p.crash i).Named := by
  rcases crash_cases p i with ⟨-, heq⟩ | ⟨l, hl, -, heq⟩
  · rwa [heq]
  refine ⟨?_, ?_, pending_crash h.names h.pending i, ?_, ?_⟩
  · intro k j hk
    rw [nameOf_crash]
    exact h.slots k j (by rwa [heq] at hk)
  · intro j w hw
    rw [nameOf_crash] at hw
    exact h.names j w hw
  · rw [heq]
    exact h.workers_pos
  · rw [heq]
    exact h.workers_le

theorem Named.wake {p : Pool} (h : p.Named) {k m : ℕ} (hm : m < 5)
    (hle : m ≤ p.app.workerCancels.length) : (p.wake k (workerName (m + 1))).Named := by
  have herase : ({ p with respawns := p.respawns.eraseIdx k } : Pool).Named :=
    ⟨h.slots, h.names, fun w hw => h.pending w (List.mem_of_mem_eraseIdx hw), h.workers_pos,
      h.workers_le⟩
  refine herase.apply ?_ ?_ h.workers_pos h.workers_le
  · intro w hw
    exact ⟨m, hm, List.mem_singleton.mp hw⟩
  · intro j i hj
    by_cases hmj : m = j
    · subst hmj
      rw [(respawn_getElem?_self p.loops.length hm).mpr hle, Option.some.injEq] at hj
      exact Or.inr ⟨0, hj.symm, rfl⟩
    · rw [respawn_getElem?_of_ne p.loops.length hm hle hmj] at hj
      exact Or.inl hj

theorem named_step {p : Pool} (h : p.Named) {a : Section} (hfits : p.RespawnFits a) :
    (p.step a).Named := by
  cases a with
  | startWorkers => exact h.startWorkers
  | scaleWorkers n => exact h.scaleWorkers n
  | cancelWorkers =>
    refine h.apply ?_ ?_ h.workers_pos h.workers_le
    · simp [App.cancelWorkers]
    · simp [App.cancelWorkers]
  | crash i => exact h.crash i
  | respawn k =>
    simp only [step]
    rcases respawn_cases p k with ⟨-, heq⟩ | ⟨w, hw, heq⟩
    · rwa [heq]
    · obtain ⟨m, hm, hwm⟩ := h.pending w (List.mem_of_getElem? hw)
      obtain ⟨-, m', hwm', hfree⟩ := hfits w hw
      obtain rfl : m = m' := Nat.succ.inj (workerName_injective (hwm.symm.trans hwm'))
      rw [heq, hwm]
      refine h.wake hm ?_
      rcases hfree with rfl | ⟨j, hj, -⟩
      · exact le_rfl
      · exact (List.getElem?_eq_some_iff.mp hj).1.le
  | _ => exact step_of_plain (P := Named) trivial fun app => h.of_app

/-! ### Runs -/

theorem named_and_exact_start (now : Time) (b : Binding) (core : Bool) :
    (start now b core).Named ∧ (start now b core).RegistryExact := by
  have hstep : ∀ (p : Pool) (a : Section), p.Named ∧ p.RegistryExact → p.RespawnFits a →
      (p.step a).Named ∧ (p.step a).RegistryExact := by
    intro p a hp ha
    exact ⟨named_step hp.1 ha, (registryExact_step_iff hp.1 hp.2 a).mpr ha⟩
  refine run_inv _ hstep ⟨?_, ?_⟩ ⟨trivial, trivial, trivial, trivial⟩
  · exact ⟨by simp, by simp [nameOf], by simp, le_rfl, by decide⟩
  · exact registryExact_of_length_le (by simp [Registered, isLive]) (by simp)

/-- **When the registry is exact.**  Whatever the order of controls, crashes and respawns,
the registry is exact all along if and only if every respawn finds room for its worker. -/
theorem registryExact_throughout_iff (now : Time) (b : Binding) (core : Bool)
    (as : List Section) :
    Throughout step RegistryExact (start now b core) as ↔
      Meets step RespawnFits (start now b core) as := by
  obtain ⟨hnamed, hexact⟩ := named_and_exact_start now b core
  refine throughout_iff_meets Named ?_ ?_ as hnamed hexact
  · intro p a hn hp
    exact registryExact_step_iff hn hp a
  · intro p a hn hp hstep
    exact named_step hn ((registryExact_step_iff hn hp a).mp hstep)

/-- A worker crashes, the processor is switched on again over NATS, which starts a
`processor-1` of its own, and then the supervisor starts a second one over it. -/
theorem not_registryExact_crash_on_respawn :
    ¬ (run step (start 0 .bound true) (Section.crash 0 ::
      (Request.natsState true true 0 .bound).sections ++ [.respawn 0])).RegistryExact := by
  intro h
  exact absurd (h.distinct 1 2 (by decide) (by decide) (by decide)) (by decide)

end Pool

end NatsDemo.Processor
