import NatsDemo.Processor.Health

/-!
# Crashes and respawns under a true report

A crash turns a live loop into a pending respawn, and a respawn turns it back, as far as
the pool is one of the kinds in which the report is true.  With the other sections this gives
the runs in which the report stays true.
-/

namespace NatsDemo.Processor
open Lib Go

namespace Pool

/-! ## Crashes -/

/-- No worker, and no one waiting to be a worker, has the empty name. -/
structure Labelled (p : Pool) : Prop where
  names : ∀ i w, p.nameOf i = some w → w ≠ ""
  pending : ∀ w ∈ p.respawns, w ≠ ""

theorem workerName_ne_empty (i : ℕ) : workerName i ≠ "" := by
  intro h
  have := congrArg String.length h
  simp [workerName] at this

theorem Labelled.apply {p : Pool} (h : p.Labelled) {c : Change}
    (hstarted : ∀ w ∈ c.started, w ≠ "") : (p.apply c).Labelled where
  names := names_apply h.names hstarted
  pending := h.pending

theorem Labelled.crash {p : Pool} (h : p.Labelled) (i : ℕ) : (p.crash i).Labelled where
  names j w hw := h.names j w ((nameOf_crash p i j).symm.trans hw)
  pending := pending_crash h.names h.pending i

theorem labelled_step {p : Pool} (a : Section) (h : p.Labelled) : (p.step a).Labelled := by
  have hworkers (js : List ℕ) : ∀ w ∈ js.map workerName, w ≠ "" := by
    intro w hw
    obtain ⟨j, -, rfl⟩ := List.mem_map.mp hw
    exact workerName_ne_empty j
  cases a with
  | startWorkers => exact h.apply (hworkers _)
  | scaleWorkers n => exact h.apply (hworkers _)
  | cancelWorkers => exact h.apply (by simp [App.cancelWorkers])
  | crash i => exact h.crash i
  | respawn k =>
    simp only [step]
    rcases respawn_cases p k with ⟨-, heq⟩ | ⟨w, hw, heq⟩
    · rwa [heq]
    · have herase : ({ p with respawns := p.respawns.eraseIdx k } : Pool).Labelled :=
        ⟨h.names, fun v hv => h.pending v (List.mem_of_mem_eraseIdx hv)⟩
      rw [heq]
      refine herase.apply fun v hv => ?_
      rw [List.mem_singleton.mp hv]
      exact h.pending w (List.mem_of_getElem? hw)
  | _ => exact ⟨h.names, h.pending⟩

theorem Steady.card_live_le {p : Pool} (h : p.Steady)
    (henabled : p.app.processingEnabled = true) :
    p.live.card = 0 ∨ p.live.card ≤ p.app.consumerConfig.workers := by
  rcases h.kind with hr | hd | he | hd
  · exact Or.inr (by have := hr.balance; omega)
  · exact Or.inl hd.live
  · exact Or.inl he.live
  · exact absurd (henabled.symm.trans hd.disabled) (by decide)

/-- What a crash reports is true of one live worker fewer. -/
theorem crash_status {live workers : ℕ} (hle : live = 0 ∨ live ≤ workers) :
    (if 0 < live - 1 then GoroutineStatus.degraded else .crashed) =
      trueStatus true (live - 1) workers := by
  split_ifs with h
  · rw [eq_comm, trueStatus_eq_degraded]
    omega
  · rw [eq_comm, trueStatus_eq_crashed]
    omega

/-- A regular pool stays so when one of its live workers crashes. -/
theorem Regular.crash {p : Pool} (h : p.Regular) {i : ℕ} {l : PullLoop}
    (hl : p.loops[i]? = some l) (hc : l.crashed = false) (hlive : p.isLive i = true) :
    (p.crash i).Regular := by
  obtain ⟨m, hname, hslot⟩ := h.registered i hlive
  have hnamem : l.name = workerName (m + 1) := by simpa [nameOf, hl] using hname
  have heq := crash_eq hl hc
  have hnew : workerName (m + 1) ∉ p.respawns := by
    intro hmem
    obtain ⟨j, hj, hdead⟩ := h.pending m hmem
    obtain rfl : j = i := Option.some.inj (hj.symm.trans hslot)
    exact absurd (hlive.symm.trans hdead) (by decide)
  have hcancels : (p.crash i).app.workerCancels = p.app.workerCancels := by rw [heq]; rfl
  have hrespawns : (p.crash i).respawns = p.respawns ++ [l.name] := by rw [heq]
  refine ⟨?_, h.registered.crash i, h.named.crash i, ?_, ?_, ?_, ?_⟩
  · rw [heq]
    exact h.enabled
  · rw [heq]
    exact h.length
  · rw [hrespawns, hnamem]
    exact List.Nodup.append h.nodup (List.nodup_singleton _) (by simpa using hnew)
  · intro m' hmem
    rw [hrespawns, hnamem] at hmem
    rcases List.mem_append.mp hmem with hold | hm'
    · obtain ⟨j, hj, hdead⟩ := h.pending m' hold
      refine ⟨j, by rw [hcancels, hj], ?_⟩
      rw [← Bool.not_eq_true, isLive_crash hl hc, hdead]
      simp
    · obtain rfl : m' = m := Nat.succ.inj (workerName_injective (List.mem_singleton.mp hm'))
      refine ⟨i, by rw [hcancels, hslot], ?_⟩
      rw [← Bool.not_eq_true, isLive_crash hl hc]
      simp
  · have hbalance := h.balance
    have hpos : 0 < p.live.card := Finset.card_pos.mpr ⟨i, mem_live.mpr hlive⟩
    rw [live_crash hl hc, Finset.card_erase_of_mem (mem_live.mpr hlive), hrespawns,
      List.length_append, List.length_singleton]
    rw [heq]
    show _ = p.app.consumerConfig.workers
    omega

/-- The report after a crash, in terms of the pool before it. -/
theorem Steady.healthTrue_crash_iff {p : Pool} (h : p.Steady) (hnames : p.Labelled)
    (hp : p.HealthTrue) {i : ℕ} {l : PullLoop} (hl : p.loops[i]? = some l)
    (hc : l.crashed = false) : (p.crash i).HealthTrue ↔
      p.app.processingEnabled = true ∧ (p.isLive i = true ∨ p.live.card = 0) := by
  have heq := crash_eq hl hc
  have hlive : (p.crash i).live = p.live.erase i := live_crash hl hc
  constructor
  · intro hp'
    have henabled : p.app.processingEnabled = true := by
      by_contra hoff
      have hpaused := hp'.paused.mpr (by
        rw [heq]
        exact Bool.eq_false_of_not_eq_true hoff)
      rw [heq] at hpaused
      simp only [App.crashGoroutine] at hpaused
      split_ifs at hpaused
    refine ⟨henabled, ?_⟩
    by_contra hdead
    rw [not_or, ← mem_live] at hdead
    have hactive := hp'.active
    rw [hlive, Finset.erase_eq_of_notMem hdead.1, heq, ← hp.active] at hactive
    have hzero := hp.active ▸ hdead.2
    simp only [App.crashGoroutine] at hactive
    omega
  · rintro ⟨henabled, hwas⟩
    have hcard : (p.crash i).live.card = p.live.card - 1 := by
      rw [hlive]
      cases hwas with
      | inl hi => exact Finset.card_erase_of_mem (mem_live.mpr hi)
      | inr h0 => simp [Finset.card_eq_zero.mp h0]
    refine healthTrue_iff.mpr ⟨?_, ?_, ?_⟩
    · rw [hcard, heq, ← hp.active]
      rfl
    · rw [hcard, heq]
      show (if 0 < p.app.activeGoroutines - 1 then GoroutineStatus.degraded else .crashed) =
        trueStatus p.app.processingEnabled _ _
      rw [hp.active, henabled]
      exact crash_status (h.card_live_le henabled)
    · rw [heq]
      exact iff_of_true (hnames.names i l.name (by simp [nameOf, hl])) (by simp)

/-- A pool without a live worker is drained by the crash of a loop that was cancelled. -/
theorem Steady.drained_crash {p : Pool} (h : p.Steady) (henabled : p.app.processingEnabled = true)
    (h0 : p.live.card = 0) {i : ℕ} {l : PullLoop} (hl : p.loops[i]? = some l)
    (hc : l.crashed = false) : (p.crash i).Drained := by
  have heq := crash_eq hl hc
  obtain ⟨hsome, hcovered⟩ := h.covered_of_not_live h0
  refine ⟨?_, ?_, ?_, ?_, ?_⟩
  · rw [heq]
    exact henabled
  · rw [live_crash hl hc, Finset.card_eq_zero.mp h0, Finset.erase_empty, Finset.card_empty]
  · rw [heq]
    rcases h.kind with hr | hd | he | hd
    · exact hr.length.le
    · exact hd.length
    · exact (congrArg List.length he.slots).trans_le (Nat.zero_le _)
    · exact absurd (henabled.symm.trans hd.disabled) (by decide)
  · rw [heq, List.length_append, List.length_singleton]
    have := List.length_pos_of_ne_nil hsome
    omega
  · rw [heq, List.countP_append]
    exact hcovered.trans (Nat.le_add_right _ _)

theorem Steady.crash {p : Pool} (h : p.Steady) (hnames : p.Labelled) (hp : p.HealthTrue)
    (i : ℕ) :
    ((p.step (.crash i)).HealthTrue ↔ p.HealthKept (.crash i)) ∧
      (p.HealthKept (.crash i) → (p.step (.crash i)).Steady) := by
  rw [step]
  rcases crash_cases p i with ⟨hall, heq⟩ | ⟨l, hl, hc, heq⟩
  · rw [heq]
    refine ⟨iff_of_true hp fun l hl hc => ?_, fun _ => h⟩
    exact absurd ((hall l hl).symm.trans hc) (by decide)
  -- the loop `i` goes, and its name is added to the pending ones
  have hkept : p.HealthKept (.crash i) ↔
      p.app.processingEnabled = true ∧ (p.isLive i = true ∨ p.live.card = 0) :=
    ⟨fun hk => hk l hl hc, fun hk _ _ _ => hk⟩
  rw [hkept, h.healthTrue_crash_iff hnames hp hl hc]
  refine ⟨Iff.rfl, ?_⟩
  rintro ⟨henabled, hwas⟩
  refine ⟨by rw [heq]; exact h.ordering, ?_⟩
  by_cases hi : p.isLive i = true
  · rcases h.kind with hr | hd | he | hd
    · exact Or.inl (hr.crash hl hc hi)
    · exact absurd (Finset.card_pos.mpr ⟨i, mem_live.mpr hi⟩) (by have := hd.live; omega)
    · exact absurd (Finset.card_pos.mpr ⟨i, mem_live.mpr hi⟩) (by have := he.live; omega)
    · exact absurd (henabled.symm.trans hd.disabled) (by decide)
  · exact Or.inr (Or.inl (h.drained_crash henabled (hwas.resolve_left hi) hl hc))

/-! ## Respawns -/

theorem perm_eraseIdx {β : Type} {l : List β} {k : ℕ} {b : β} (h : l[k]? = some b) :
    (b :: l.eraseIdx k).Perm l := by
  obtain ⟨hk, rfl⟩ := List.getElem?_eq_some_iff.mp h
  exact List.getElem_cons_eraseIdx_perm hk

/-- A regular pool stays so when one of the pending workers is put back. -/
theorem Regular.wake {p : Pool} (h : p.Regular) {k : ℕ} {w : String}
    (hw : p.respawns[k]? = some w) : (p.wake k w).Regular := by
  obtain ⟨m, hm, rfl⟩ := h.named.pending w (List.mem_of_getElem? hw)
  obtain ⟨i, hi, hdead⟩ := h.pending m (List.mem_of_getElem? hw)
  have hmlt := (List.getElem?_eq_some_iff.mp hi).1
  have hperm := perm_eraseIdx hw
  have hnot := (List.nodup_cons.mp (hperm.nodup_iff.mpr h.nodup)).1
  refine ⟨h.enabled, ?_, h.named.wake hm hmlt.le, ?_, h.nodup.eraseIdx k, ?_, ?_⟩
  · exact (registered_wake_iff h.registered h.named k hm).mpr (Or.inr ⟨i, hi, hdead⟩)
  · rw [wake_app, respawn_workerCancels _ hm, if_pos hmlt, List.length_set]
    exact h.length
  · intro m' hmem
    obtain ⟨j, hj, hjdead⟩ := h.pending m' (List.mem_of_mem_eraseIdx hmem)
    have hne : m ≠ m' := by
      rintro rfl
      exact hnot hmem
    refine ⟨j, by rwa [wake_app, respawn_getElem?_of_ne _ hm hmlt.le hne], ?_⟩
    obtain ⟨l, hl, -⟩ := Option.map_eq_some_iff.mp (h.named.slots m' j hj)
    have hjlt := (List.getElem?_eq_some_iff.mp hl).1
    rw [← Bool.not_eq_true, isLive_wake, hjdead]
    simp [hjlt.ne]
  · have hbalance := h.balance
    have hlength := hperm.length_eq
    rw [List.length_cons] at hlength
    rw [card_live_wake]
    show p.live.card + 1 + (p.respawns.eraseIdx k).length = p.app.consumerConfig.workers
    omega

theorem length_respawn (a : App) (next : ℕ) (w : String) :
    (a.respawn next w).app.workerCancels.length =
      a.workerCancels.length + if inSlots a.workerCancels.length w = true then 0 else 1 := by
  cases hw : scanWorker w with
  | none => simp [App.respawn, inSlots, hw]
  | some idx =>
    by_cases h : 1 ≤ idx ∧ idx ≤ a.workerCancels.length <;> simp [App.respawn, inSlots, hw, h]

theorem inSlots_succ {n : ℕ} {w : String} (h : inSlots n w = true) :
    inSlots (n + 1) w = true := by
  rw [inSlots] at h ⊢
  cases hw : scanWorker w with
  | none => simp [hw] at h
  | some idx =>
    simp only [hw, decide_eq_true_eq] at h ⊢
    omega

/-- A dormant pool stays so: a worker that has a slot takes one respawn from the cover,
and one that has none brings a slot of its own. -/
theorem Dormant.wake {p : Pool} (h : p.Dormant) {k : ℕ} {w : String}
    (hw : p.respawns[k]? = some w) (hroom : p.live.card + 1 < p.app.workerCancels.length) :
    (p.wake k w).Dormant := by
  have hcovered := h.covered
  have hcount := (perm_eraseIdx hw).countP_eq (inSlots p.app.workerCancels.length)
  rw [List.countP_cons] at hcount
  refine ⟨h.disabled, ?_, ?_, Or.inl ?_⟩
  · have hle := List.countP_le_length (p := inSlots p.app.workerCancels.length)
      (l := p.respawns.eraseIdx k)
    refine List.ne_nil_of_length_pos ?_
    show 0 < (p.respawns.eraseIdx k).length
    split_ifs at hcount <;> omega
  · rw [card_live_wake, wake_app, length_respawn]
    show _ ≤ (p.respawns.eraseIdx k).countP _ + _
    by_cases hin : inSlots p.app.workerCancels.length w = true
    · simp only [hin, if_true, Nat.add_zero] at hcount ⊢
      omega
    · have hmono := List.countP_mono_left (l := p.respawns.eraseIdx k)
        fun (w : String) _ => inSlots_succ (n := p.app.workerCancels.length) (w := w)
      rw [if_neg hin] at hcount ⊢
      omega
  · show 2 ≤ p.app.consumerConfig.workers
    rcases h.workers with h2 | ⟨h0, hle⟩
    · exact h2
    · omega

theorem HealthTrue.status_eq {p : Pool} (hp : p.HealthTrue) : p.app.goroutineStatus =
    trueStatus p.app.processingEnabled p.live.card p.app.consumerConfig.workers :=
  (healthTrue_iff.mp hp).2.1

/-- The report after a respawn, in terms of the pool before it. -/
theorem healthTrue_wake_iff {p : Pool} (hp : p.HealthTrue) {k : ℕ} {w : String}
    (hw : p.respawns[k]? = some w) : (p.wake k w).HealthTrue ↔
      (if p.app.workerCancels.length ≤ p.live.card + 1 then
          GoroutineStatus.running = trueStatus p.app.processingEnabled (p.live.card + 1)
            p.app.consumerConfig.workers ∧ p.respawns.length = 1
        else trueStatus p.app.processingEnabled p.live.card p.app.consumerConfig.workers =
            trueStatus p.app.processingEnabled (p.live.card + 1) p.app.consumerConfig.workers ∧
          2 ≤ p.respawns.length) := by
  have hlength := (perm_eraseIdx hw).length_eq
  rw [List.length_cons] at hlength
  have hsome : p.app.crashedWorker ≠ "" :=
    hp.crashedWorker.mpr (List.ne_nil_of_mem (List.mem_of_getElem? hw))
  have hrest : p.respawns.eraseIdx k ≠ [] ↔ 2 ≤ p.respawns.length := by
    rw [← List.length_pos_iff]
    omega
  have hrespawns : (p.wake k w).respawns = p.respawns.eraseIdx k := rfl
  have henabled : (p.wake k w).app.processingEnabled = p.app.processingEnabled := rfl
  have hconfig : (p.wake k w).app.consumerConfig = p.app.consumerConfig := rfl
  rw [healthTrue_iff, card_live_wake, hrespawns, hrest, henabled, hconfig]
  have hactive : (p.wake k w).app.activeGoroutines = p.live.card + 1 :=
    congrArg (· + 1) hp.active
  rw [hactive, wake_app]
  simp only [App.respawn, hp.active, true_and]
  split_ifs with hfull
  · simp only [ne_eq, not_true_eq_false, false_iff]
    exact and_congr_right fun _ => by omega
  · rw [hp.status_eq]
    exact and_congr_right fun _ => iff_true_left hsome

/-- In a regular pool a respawn is reported truly if it is the last one, or some worker
is live. -/
theorem Regular.healthTrue_wake_iff {p : Pool} (h : p.Regular) (hp : p.HealthTrue) {k : ℕ}
    {w : String} (hw : p.respawns[k]? = some w) :
    (p.wake k w).HealthTrue ↔ p.respawns.length = 1 ∨ 0 < p.live.card := by
  have hbalance := h.balance
  have hlength := h.length
  have hpos := List.length_pos_of_mem (List.mem_of_getElem? hw)
  rw [Pool.healthTrue_wake_iff hp hw, h.enabled]
  split_ifs with hfull
  · -- the last pending worker comes back to a full pool
    refine iff_of_true ⟨?_, by omega⟩ (Or.inl (by omega))
    rw [eq_comm, trueStatus_eq_running]
    omega
  · rcases Nat.eq_zero_or_pos p.live.card with h0 | hlive
    · -- the status stays that of a pool in which nothing is live
      refine iff_of_false (fun hboth => ?_) (by omega)
      rw [h0, trueStatus_eq_crashed.mpr rfl, eq_comm, trueStatus_eq_crashed] at hboth
      omega
    · refine iff_of_true ⟨?_, by omega⟩ (Or.inr hlive)
      rw [trueStatus_eq_degraded.mpr ⟨hlive, by omega⟩, eq_comm, trueStatus_eq_degraded]
      omega

theorem Drained.not_healthTrue_wake {p : Pool} (h : p.Drained) (hp : p.HealthTrue) {k : ℕ}
    {w : String} (hw : p.respawns[k]? = some w) : ¬ (p.wake k w).HealthTrue := by
  have hpending := h.pending
  rw [Pool.healthTrue_wake_iff hp hw, h.enabled, h.live]
  intro hboth
  split_ifs at hboth with hfull
  · have hone := hboth.2
    omega
  · rw [trueStatus_eq_crashed.mpr rfl, eq_comm, trueStatus_eq_crashed] at hboth
    exact absurd hboth.1 (by decide)

/-- In a dormant pool a respawn is reported truly as long as it does not fill the pool. -/
theorem Dormant.healthTrue_wake_iff {p : Pool} (h : p.Dormant) (hp : p.HealthTrue) {k : ℕ}
    {w : String} (hw : p.respawns[k]? = some w) :
    (p.wake k w).HealthTrue ↔ p.live.card + 1 < p.app.workerCancels.length := by
  have hcovered := h.covered
  have hcount := List.countP_le_length (p := inSlots p.app.workerCancels.length)
    (l := p.respawns)
  rw [Pool.healthTrue_wake_iff hp hw, h.disabled]
  split_ifs with hfull
  · exact iff_of_false (fun hboth => nomatch hboth.1) (by omega)
  · exact iff_of_true ⟨rfl, by omega⟩ (by omega)

/-- The only worker comes back to an empty registry, which it fills. -/
theorem Emptied.wake {p : Pool} (h : p.Emptied) (hp : p.HealthTrue) {k : ℕ} {w : String}
    (hw : p.respawns[k]? = some w) :
    (p.wake k w).HealthTrue ∧ (p.wake k w).Regular := by
  have hpending := h.pending
  rw [hpending] at hw
  obtain rfl : k = 0 := Nat.lt_one_iff.mp (List.getElem?_eq_some_iff.mp hw).1
  obtain rfl : w = workerName 1 := (Option.some.inj hw).symm
  have hnone : (p.wake 0 (workerName 1)).respawns = [] := by
    show p.respawns.eraseIdx 0 = []
    rw [hpending]
    rfl
  have hcancels : (p.wake 0 (workerName 1)).app.workerCancels = [p.loops.length] := by
    rw [wake_app, respawn_workerCancels p.loops.length (m := 0) (by decide), h.slots]
    rfl
  have hcard : (p.wake 0 (workerName 1)).live.card = 1 := by rw [card_live_wake, h.live]
  have hregistered : (p.wake 0 (workerName 1)).Registered := by
    intro i hi
    have hi' : i = p.loops.length := by
      rcases isLive_wake.mp hi with hlive | hnew
      · exact absurd (Finset.card_pos.mpr ⟨i, mem_live.mpr hlive⟩) (by have := h.live; omega)
      · exact hnew
    subst hi'
    exact ⟨0, nameOf_wake_new, by rw [hcancels]; rfl⟩
  have hworkers : (p.wake 0 (workerName 1)).app.consumerConfig.workers = 1 := h.workers
  refine ⟨?_, h.enabled, hregistered, h.named.wake (by decide) (Nat.zero_le _), ?_, ?_, ?_, ?_⟩
  · refine (healthTrue_wake_iff hp (k := 0) (by rw [hpending]; rfl)).mpr ?_
    rw [h.slots, h.live, h.workers, h.enabled, hpending]
    exact ⟨rfl, rfl⟩
  · rw [hcancels, hworkers]
    rfl
  · rw [hnone]
    exact List.nodup_nil
  · intro m hm
    rw [hnone] at hm
    cases hm
  · rw [hcard, hnone, hworkers]
    rfl

theorem Steady.respawn {p : Pool} (h : p.Steady) (hp : p.HealthTrue) (k : ℕ) :
    ((p.step (.respawn k)).HealthTrue ↔ p.HealthKept (.respawn k)) ∧
      (p.HealthKept (.respawn k) → (p.step (.respawn k)).Steady) := by
  rw [step]
  rcases respawn_cases p k with ⟨hnone, heq⟩ | ⟨w, hw, heq⟩
  · rw [heq]
    exact ⟨iff_of_true hp (by simp [HealthKept, hnone]), fun _ => h⟩
  have hkept : p.HealthKept (.respawn k) ↔
      p.app.processingEnabled = true ∧ (p.respawns.length = 1 ∨ 0 < p.live.card) ∨
        p.app.processingEnabled = false ∧ p.live.card + 1 < p.app.workerCancels.length :=
    ⟨fun hk => hk w hw, fun hk _ _ => hk⟩
  rw [heq, hkept]
  rcases h.kind with hr | hd | he | hd
  · rw [hr.healthTrue_wake_iff hp hw, hr.enabled]
    exact ⟨by simp, fun _ => ⟨h.ordering, Or.inl (hr.wake hw)⟩⟩
  · have hpending := hd.pending
    have hnot : ¬ (p.respawns.length = 1 ∨ 0 < p.live.card) := by
      have hzero := hd.live
      omega
    refine ⟨iff_of_false (hd.not_healthTrue_wake hp hw) ?_, fun hk => ?_⟩
    · simpa [hd.enabled] using hnot
    · exact absurd hk (by simpa [hd.enabled] using hnot)
  · obtain ⟨htrue, hregular⟩ := he.wake hp hw
    have hone : p.respawns.length = 1 := by rw [he.pending, List.length_singleton]
    exact ⟨iff_of_true htrue (Or.inl ⟨he.enabled, Or.inl hone⟩),
      fun _ => ⟨h.ordering, Or.inl hregular⟩⟩
  · rw [hd.healthTrue_wake_iff hp hw, hd.disabled]
    refine ⟨by simp, fun hk => ?_⟩
    exact ⟨h.ordering, Or.inr (Or.inr (Or.inr (hd.wake hw (by simpa using hk))))⟩

/-! ## Runs -/

/-- The subscriptions and what ends them are no matter of the report. -/
theorem healthTrue_subscription {p : Pool} (h : p.Steady) (hp : p.HealthTrue) {a : App}
    (ha : ∃ sub bound name,
      a = { p.app with sub := sub, jsConsumer := bound, consumerName := name }) :
    ({ p with app := a } : Pool).HealthTrue ∧ ({ p with app := a } : Pool).Steady := by
  obtain ⟨sub, bound, name, rfl⟩ := ha
  exact ⟨hp.of_app rfl rfl rfl rfl rfl, h.of_app rfl rfl rfl⟩

theorem healthTrue_step_iff {p : Pool} (h : p.Steady) (hnames : p.Labelled) (hp : p.HealthTrue)
    (a : Section) :
    ((p.step a).HealthTrue ↔ p.HealthKept a) ∧ (p.HealthKept a → (p.step a).Steady) := by
  have hsub {a : App} (ha : ∃ sub bound name,
      a = { p.app with sub := sub, jsConsumer := bound, consumerName := name }) :
      (({ p with app := a } : Pool).HealthTrue ↔ True) ∧
        (True → ({ p with app := a } : Pool).Steady) := by
    obtain ⟨htrue, hsteady⟩ := healthTrue_subscription h hp ha
    exact ⟨iff_of_true htrue trivial, fun _ => hsteady⟩
  cases a with
  | setEnabled enabled => exact h.setEnabled hp enabled
  | subscribeCore ok => exact hsub ⟨p.app.sub || ok, p.app.jsConsumer, p.app.consumerName, rfl⟩
  | unsubscribeCore => exact hsub ⟨false, p.app.jsConsumer, p.app.consumerName, rfl⟩
  | subscribeJetStream now b =>
    obtain ⟨name, bound, heq⟩ := p.app.subscribeJetStream_eq now b
    exact hsub ⟨p.app.sub, bound, name, heq⟩
  | unsubscribeJetStream => exact hsub ⟨p.app.sub, false, p.app.consumerName, rfl⟩
  | startWorkers => exact h.startWorkers
  | cancelWorkers => exact h.cancelWorkers hp
  | scaleWorkers n => exact h.scaleWorkers n
  | httpState enabled =>
    cases enabled with
    | true => exact h.httpOn hp
    | false => exact h.httpOff hp
  | httpRestart => exact h.httpRestart hp
  | crash i => exact h.crash hnames hp i
  | respawn k => exact h.respawn hp k

theorem start_eq (now : Time) (b : Binding) (core : Bool) : ∃ name bound,
    start now b core =
      { app := { consumerName := name, jsConsumer := bound, sub := core, workerCancels := [0] }
        loops := [{ name := workerName 1 }] } := by
  obtain ⟨name, bound, hsub⟩ := App.subscribeJetStream_eq {} now b
  refine ⟨name, bound, ?_⟩
  simp only [start, run_cons, run_nil, step, hsub]
  rfl

theorem healthy_start (now : Time) (b : Binding) (core : Bool) :
    (start now b core).Steady ∧ (start now b core).Labelled ∧ (start now b core).HealthTrue := by
  obtain ⟨hnamed, hexact⟩ := named_and_exact_start now b core
  obtain ⟨name, bound, h⟩ := start_eq now b core
  rw [h] at hnamed hexact ⊢
  have hr : Regular { app := { consumerName := name, jsConsumer := bound, sub := core,
                               workerCancels := [0] }
                      loops := [{ name := workerName 1 }] } :=
    regular_of_allRunning rfl hexact.registered hnamed ⟨List.nodup_singleton 0, by simp [isLive]⟩
      rfl rfl
  refine ⟨⟨rfl, Or.inl hr⟩, ⟨?_, by simp⟩, hr.healthTrue_of_full rfl rfl rfl rfl⟩
  intro i w hw
  obtain ⟨k, -, rfl⟩ := hnamed.names i w hw
  exact workerName_ne_empty _

/-- **When the reported health is true.**  However the sections of the controls, the crashes
and the respawns are interleaved, the report is true all along if and only if every section
meets its condition. -/
theorem healthTrue_throughout_iff (now : Time) (b : Binding) (core : Bool)
    (as : List Section) :
    Throughout step HealthTrue (start now b core) as ↔
      Meets step HealthKept (start now b core) as := by
  obtain ⟨hsteady, hnames, htrue⟩ := healthy_start now b core
  refine throughout_iff_meets (fun p => p.Steady ∧ p.Labelled) ?_ ?_ as
    ⟨hsteady, hnames⟩ htrue
  · intro p a hinv hp
    exact (healthTrue_step_iff hinv.1 hinv.2 hp a).1
  · intro p a hinv hp hp'
    obtain ⟨hiff, hsteady'⟩ := healthTrue_step_iff hinv.1 hinv.2 hp a
    exact ⟨hsteady' (hiff.mp hp'), labelled_step a hinv.2⟩

/-- A restart over HTTP reports one live worker where three are. -/
theorem not_healthTrue_scale_restart :
    ¬ (run step (start 0 .bound true) [.scaleWorkers 3, .httpRestart]).HealthTrue := by
  intro h
  exact absurd h.active (by decide)

end Pool

end NatsDemo.Processor
