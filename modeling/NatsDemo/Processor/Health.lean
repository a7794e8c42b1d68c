import NatsDemo.Processor.Registry
import NatsDemo.Processor.Toggle

/-!
# The reported health of the pool

`activeGoroutines`, `goroutineStatus` and `crashedWorker` are set by each section in its
own way, some of them by constants.  The states in which they are true are of four
kinds: the pool is enabled and every slot is live or awaits its respawn (`Regular`), it
is enabled and nothing is live but several respawns are pending (`Drained`) or that of its
only worker, whose slot is gone (`Emptied`), or it is disabled with respawns pending
(`Dormant`).
-/

namespace NatsDemo.Processor
open Lib Go

namespace Pool

/-- The reported health is true. -/
structure HealthTrue (p : Pool) : Prop where
  active : p.app.activeGoroutines = p.live.card
  crashed : p.app.processingEnabled = true →
    (p.app.goroutineStatus = .crashed ↔ p.live.card = 0)
  degraded : p.app.processingEnabled = true →
    (p.app.goroutineStatus = .degraded ↔
      0 < p.live.card ∧ p.live.card < p.app.consumerConfig.workers)
  running : p.app.processingEnabled = true →
    (p.app.goroutineStatus = .running ↔
      0 < p.live.card ∧ p.app.consumerConfig.workers ≤ p.live.card)
  paused : p.app.goroutineStatus = .paused ↔ p.app.processingEnabled = false
  crashedWorker : p.app.crashedWorker ≠ "" ↔ p.respawns ≠ []

/-- The status that would be true. -/
def trueStatus (enabled : Bool) (live workers : ℕ) : GoroutineStatus :=
  if enabled = false then .paused
  else if live = 0 then .crashed
  else if live < workers then .degraded else .running

theorem trueStatus_eq_paused {b : Bool} {n w : ℕ} :
    trueStatus b n w = .paused ↔ b = false := by
  rw [trueStatus]
  split_ifs <;> simp_all

theorem trueStatus_eq_crashed {n w : ℕ} : trueStatus true n w = .crashed ↔ n = 0 := by
  rw [trueStatus]
  split_ifs <;> simp_all

theorem trueStatus_eq_degraded {n w : ℕ} :
    trueStatus true n w = .degraded ↔ 0 < n ∧ n < w := by
  rcases Nat.eq_zero_or_pos n with rfl | hn
  · simp [trueStatus]
  · by_cases hlt : n < w <;> simp [trueStatus, hn, hn.ne', hlt]

theorem trueStatus_eq_running {n w : ℕ} :
    trueStatus true n w = .running ↔ 0 < n ∧ w ≤ n := by
  rcases Nat.eq_zero_or_pos n with rfl | hn
  · simp [trueStatus]
  · by_cases hlt : n < w
    · simp [trueStatus, hn.ne', hlt]
    · simp [trueStatus, hn, hn.ne', hlt, Nat.le_of_not_lt hlt]

theorem healthTrue_iff {p : Pool} : p.HealthTrue ↔
    p.app.activeGoroutines = p.live.card ∧
      p.app.goroutineStatus =
        trueStatus p.app.processingEnabled p.live.card p.app.consumerConfig.workers ∧
      (p.app.crashedWorker ≠ "" ↔ p.respawns ≠ []) := by
  constructor
  · intro h
    refine ⟨h.active, ?_, h.crashedWorker⟩
    rw [trueStatus]
    split_ifs with he h0 hlt
    · exact h.paused.mpr he
    · exact (h.crashed (by simpa using he)).mpr h0
    · exact (h.degraded (by simpa using he)).mpr ⟨Nat.pos_of_ne_zero h0, hlt⟩
    · exact (h.running (by simpa using he)).mpr ⟨Nat.pos_of_ne_zero h0, Nat.le_of_not_lt hlt⟩
  · rintro ⟨hactive, hstatus, hcrashed⟩
    refine ⟨hactive, fun he => ?_, fun he => ?_, fun he => ?_, ?_, hcrashed⟩
    · rw [hstatus, he, trueStatus_eq_crashed]
    · rw [hstatus, he, trueStatus_eq_degraded]
    · rw [hstatus, he, trueStatus_eq_running]
    · rw [hstatus, trueStatus_eq_paused]

/-- When a section leaves a true report true, in the state before it. -/
def HealthKept (p : Pool) : Section → Prop
  | .setEnabled enabled => p.app.processingEnabled = enabled
  | .subscribeCore _ | .unsubscribeCore | .subscribeJetStream _ _ | .unsubscribeJetStream => True
  | .startWorkers | .scaleWorkers _ => p.app.processingEnabled = true ∧ p.respawns = []
  | .cancelWorkers => ∀ i ∈ p.app.workerCancels, p.isLive i = false
  | .httpState true => p.live.card = 1 ∧ p.app.consumerConfig.workers = 1
  | .httpState false => p.live.card = 0
  | .httpRestart => p.app.processingEnabled = true ∧ p.live.card = 1 ∧
      p.app.consumerConfig.workers = 1
  | .crash i => ∀ l, p.loops[i]? = some l → l.crashed = false →
      p.app.processingEnabled = true ∧ (p.isLive i = true ∨ p.live.card = 0)
  | .respawn k => ∀ w, p.respawns[k]? = some w →
      p.app.processingEnabled = true ∧ (p.respawns.length = 1 ∨ 0 < p.live.card) ∨
        p.app.processingEnabled = false ∧ p.live.card + 1 < p.app.workerCancels.length

/-! ## The states with a true report -/

/-- The name of a slot that the registry has, as the respawn reads it. -/
def inSlots (n : ℕ) (w : String) : Bool :=
  match scanWorker w with
  | some idx => 1 ≤ idx ∧ idx ≤ n
  | none => false

/-- Every slot is live or awaits the respawn of its own worker. -/
structure Regular (p : Pool) : Prop where
  enabled : p.app.processingEnabled = true
  registered : p.Registered
  named : p.Named
  length : p.app.workerCancels.length = p.app.consumerConfig.workers
  nodup : p.respawns.Nodup
  pending : ∀ m, workerName (m + 1) ∈ p.respawns →
    ∃ i, p.app.workerCancels[m]? = some i ∧ p.isLive i = false
  balance : p.live.card + p.respawns.length = p.app.consumerConfig.workers

/-- Nothing is live, and more workers are pending than one. -/
structure Drained (p : Pool) : Prop where
  enabled : p.app.processingEnabled = true
  live : p.live.card = 0
  length : p.app.workerCancels.length ≤ p.app.consumerConfig.workers
  pending : 2 ≤ p.respawns.length
  covered : p.app.workerCancels.length ≤
    p.respawns.countP (inSlots p.app.workerCancels.length)

/-- Nothing is live and nothing registered, and the only worker is pending. -/
structure Emptied (p : Pool) : Prop where
  enabled : p.app.processingEnabled = true
  named : p.Named
  live : p.live.card = 0
  slots : p.app.workerCancels = []
  workers : p.app.consumerConfig.workers = 1
  pending : p.respawns = [workerName 1]

/-- The processor is off and respawns are pending, enough of them for the slots that are
not live. -/
structure Dormant (p : Pool) : Prop where
  disabled : p.app.processingEnabled = false
  pending : p.respawns ≠ []
  covered : p.app.workerCancels.length ≤
    p.respawns.countP (inSlots p.app.workerCancels.length) + p.live.card
  workers : 2 ≤ p.app.consumerConfig.workers ∨
    p.live.card = 0 ∧ p.app.workerCancels.length ≤ p.app.consumerConfig.workers

/-- What a true report says of the pool. -/
structure Steady (p : Pool) : Prop where
  ordering : p.app.consumerConfig.ordering = "normal"
  kind : p.Regular ∨ p.Drained ∨ p.Emptied ∨ p.Dormant

/-! ## Pools with every slot live -/

theorem AllRunning.card_live {p : Pool} (h : p.AllRunning) (hreg : p.Registered) :
    p.live.card = p.app.workerCancels.length := by
  have hlive : p.live = p.app.workerCancels.toFinset := by
    ext i
    rw [mem_live, List.mem_toFinset]
    exact ⟨hreg.mem_workerCancels, h.running i⟩
  rw [hlive, List.toFinset_card_of_nodup h.nodup]

theorem Named.nodup_workerCancels {p : Pool} (h : p.Named) : p.app.workerCancels.Nodup := by
  rw [List.nodup_iff_injective_get]
  intro j k hjk
  have hj := h.slots j _ (List.getElem?_eq_getElem j.isLt)
  have hk := h.slots k _ (List.getElem?_eq_getElem k.isLt)
  rw [List.get_eq_getElem, List.get_eq_getElem] at hjk
  rw [hjk, hk, Option.some.injEq] at hj
  exact Fin.ext (Nat.succ.inj (workerName_injective hj)).symm

theorem Regular.allRunning {p : Pool} (h : p.Regular) (hnone : p.respawns = []) :
    p.AllRunning := by
  have hnodup := h.named.nodup_workerCancels
  refine ⟨hnodup, ?_⟩
  have hsub : p.live ⊆ p.app.workerCancels.toFinset := by
    intro i hi
    exact List.mem_toFinset.mpr (h.registered.mem_workerCancels (mem_live.mp hi))
  have hcard : p.app.workerCancels.toFinset.card ≤ p.live.card := by
    have hbalance := h.balance
    rw [hnone, List.length_nil] at hbalance
    rw [List.toFinset_card_of_nodup hnodup, h.length]
    omega
  intro i hi
  rw [← mem_live, Finset.eq_of_subset_of_card_le hsub hcard]
  exact List.mem_toFinset.mpr hi

theorem regular_of_allRunning {p : Pool} (henabled : p.app.processingEnabled = true)
    (hreg : p.Registered) (hnamed : p.Named) (hall : p.AllRunning)
    (hlength : p.app.workerCancels.length = p.app.consumerConfig.workers)
    (hnone : p.respawns = []) : p.Regular where
  enabled := henabled
  registered := hreg
  named := hnamed
  length := hlength
  nodup := by simp [hnone]
  pending := by simp [hnone]
  balance := by rw [hall.card_live hreg, hnone, hlength, List.length_nil, Nat.add_zero]

/-- A report of running that names no crashed worker. -/
theorem HealthTrue.of_running {p : Pool} (h : p.HealthTrue)
    (hstatus : p.app.goroutineStatus = .running) (hcrashed : p.app.crashedWorker = "") :
    p.app.processingEnabled = true ∧ p.respawns = [] := by
  constructor
  · by_contra hoff
    have hpaused := h.paused.mpr (Bool.eq_false_of_not_eq_true hoff)
    rw [hstatus] at hpaused
    cases hpaused
  · exact not_not.mp (mt h.crashedWorker.mpr (not_not.mpr hcrashed))

/-- The report of a full pool, as a start and a scaling set it. -/
theorem Regular.healthTrue_of_full {p : Pool} (h : p.Regular) (hnone : p.respawns = [])
    (hactive : p.app.activeGoroutines = p.app.workerCancels.length)
    (hstatus : p.app.goroutineStatus = .running) (hcrashed : p.app.crashedWorker = "") :
    p.HealthTrue := by
  have hcard := (h.allRunning hnone).card_live h.registered
  have hpos := h.named.workers_pos
  have hlength := h.length
  refine healthTrue_iff.mpr ⟨by rw [hactive, hcard], ?_, by simp [hcrashed, hnone]⟩
  rw [hstatus, h.enabled, eq_comm, trueStatus_eq_running]
  omega

theorem Steady.regular {p : Pool} (h : p.Steady) (hnone : p.respawns = []) : p.Regular := by
  rcases h.kind with hr | hd | he | hd
  · exact hr
  · have := hd.pending
    simp [hnone] at this
  · exact absurd (he.pending.symm.trans hnone) (List.cons_ne_nil _ _)
  · exact absurd hnone hd.pending

/-! ## The sections one by one

For each section the report stays true exactly under its condition, and the pool is then
again of one of the four kinds. -/

theorem Steady.scaleWorkers {p : Pool} (h : p.Steady) (n : ℤ) :
    ((p.step (.scaleWorkers n)).HealthTrue ↔ p.HealthKept (.scaleWorkers n)) ∧
      (p.HealthKept (.scaleWorkers n) → (p.step (.scaleWorkers n)).Steady) := by
  have hfull (hkept : p.HealthKept (.scaleWorkers n)) : (p.step (.scaleWorkers n)).Regular := by
    have hr := h.regular hkept.2
    refine regular_of_allRunning hkept.1 (hr.registered.scaleWorkers n)
      (hr.named.scaleWorkers n) ((hr.allRunning hkept.2).scaleWorkers n) ?_ hkept.2
    show (App.scaleWorkers _ _ _).app.workerCancels.length =
      (App.scaleWorkers _ _ _).app.consumerConfig.workers
    simp only [App.scaleWorkers, List.length_append, List.length_take, List.length_range']
    omega
  refine ⟨⟨?_, ?_⟩, ?_⟩
  · exact fun hp => hp.of_running rfl rfl
  · intro hkept
    exact (hfull hkept).healthTrue_of_full hkept.2 rfl rfl rfl
  · intro hkept
    exact ⟨h.ordering, Or.inl (hfull hkept)⟩

theorem Steady.startWorkers {p : Pool} (h : p.Steady) :
    ((p.step .startWorkers).HealthTrue ↔ p.HealthKept .startWorkers) ∧
      (p.HealthKept .startWorkers → (p.step .startWorkers).Steady) := by
  have hfull (hkept : p.HealthKept .startWorkers) : (p.step .startWorkers).Regular := by
    have hr := h.regular hkept.2
    refine regular_of_allRunning hkept.1 hr.registered.startWorkers hr.named.startWorkers
      AllRunning.startWorkers ?_ hkept.2
    have hpos := hr.named.workers_pos
    have hne : p.app.consumerConfig.workers ≠ 0 := by omega
    simp [step, App.startWorkers, h.ordering, hne]
  refine ⟨⟨?_, ?_⟩, ?_⟩
  · exact fun hp => hp.of_running rfl rfl
  · intro hkept
    refine (hfull hkept).healthTrue_of_full hkept.2 ?_ rfl rfl
    show _ = (App.startWorkers _ _).app.workerCancels.length
    simp only [App.startWorkers, List.length_range']
    rfl
  · intro hkept
    exact ⟨h.ordering, Or.inl (hfull hkept)⟩

theorem Regular.of_app {p : Pool} (h : p.Regular) {a : App}
    (henabled : a.processingEnabled = true) (hcancels : a.workerCancels = p.app.workerCancels)
    (hconfig : a.consumerConfig = p.app.consumerConfig) :
    ({ p with app := a } : Pool).Regular where
  enabled := henabled
  registered := h.registered.of_app hcancels
  named := h.named.of_app hcancels hconfig
  length := by
    show a.workerCancels.length = a.consumerConfig.workers
    rw [hcancels, hconfig]
    exact h.length
  nodup := h.nodup
  pending m hm := by
    show ∃ i, a.workerCancels[m]? = some i ∧ _
    rw [hcancels]
    exact h.pending m hm
  balance := by
    show p.live.card + p.respawns.length = a.consumerConfig.workers
    rw [hconfig]
    exact h.balance

theorem Steady.of_app {p : Pool} (h : p.Steady) {a : App}
    (henabled : a.processingEnabled = p.app.processingEnabled)
    (hcancels : a.workerCancels = p.app.workerCancels)
    (hconfig : a.consumerConfig = p.app.consumerConfig) :
    ({ p with app := a } : Pool).Steady := by
  refine ⟨(congrArg ConsumerConfig.ordering hconfig).trans h.ordering, ?_⟩
  rcases h.kind with hr | hd | he | hd
  · exact Or.inl (hr.of_app (henabled.trans hr.enabled) hcancels hconfig)
  · refine Or.inr (Or.inl ⟨henabled.trans hd.enabled, hd.live, ?_, hd.pending, ?_⟩)
    · rw [hcancels, hconfig]
      exact hd.length
    · rw [hcancels]
      exact hd.covered
  · refine Or.inr (Or.inr (Or.inl ⟨henabled.trans he.enabled, he.named.of_app hcancels hconfig,
      he.live, hcancels.trans he.slots, ?_, he.pending⟩))
    rw [hconfig]
    exact he.workers
  · refine Or.inr (Or.inr (Or.inr ⟨henabled.trans hd.disabled, hd.pending, ?_, ?_⟩))
    · rw [hcancels]
      exact hd.covered
    · rw [hcancels, hconfig]
      exact hd.workers

/-- A section that leaves alone what the report is about, and the report. -/
theorem HealthTrue.of_app {p : Pool} (h : p.HealthTrue) {a : App}
    (henabled : a.processingEnabled = p.app.processingEnabled)
    (hactive : a.activeGoroutines = p.app.activeGoroutines)
    (hstatus : a.goroutineStatus = p.app.goroutineStatus)
    (hcrashed : a.crashedWorker = p.app.crashedWorker)
    (hconfig : a.consumerConfig = p.app.consumerConfig) :
    ({ p with app := a } : Pool).HealthTrue := by
  obtain ⟨h1, h2, h3⟩ := healthTrue_iff.mp h
  refine healthTrue_iff.mpr ⟨hactive.trans h1, ?_, ?_⟩
  · rw [henabled, hstatus, hconfig]
    exact h2
  · rw [hcrashed]
    exact h3

theorem Steady.setEnabled {p : Pool} (h : p.Steady) (hp : p.HealthTrue) (enabled : Bool) :
    ((p.step (.setEnabled enabled)).HealthTrue ↔ p.HealthKept (.setEnabled enabled)) ∧
      (p.HealthKept (.setEnabled enabled) → (p.step (.setEnabled enabled)).Steady) := by
  refine ⟨⟨fun hp' => ?_, fun hkept => ?_⟩, fun hkept => ?_⟩
  · have hsame : (enabled = false) ↔ (p.app.processingEnabled = false) :=
      hp'.paused.symm.trans hp.paused
    show p.app.processingEnabled = enabled
    cases enabled <;> simp_all
  · exact hp.of_app hkept.symm rfl rfl rfl rfl
  · exact h.of_app hkept.symm rfl rfl

/-- The live loops when the registered ones are cancelled. -/
theorem isLive_cancelWorkers {p : Pool} {i : ℕ} :
    (p.step .cancelWorkers).isLive i = true ↔ p.isLive i = true ∧ i ∉ p.app.workerCancels := by
  refine isLive_apply.trans ?_
  simp only [App.cancelWorkers, List.length_nil, Nat.add_zero]
  exact or_iff_left fun hlt => absurd hlt.1 (by omega)

theorem live_cancelWorkers {p : Pool} (hkept : p.HealthKept .cancelWorkers) :
    (p.step .cancelWorkers).live = p.live := by
  ext i
  rw [mem_live, mem_live, isLive_cancelWorkers]
  refine and_iff_left_of_imp fun hi hmem => ?_
  have hdead := hkept i hmem
  exact absurd (hi.symm.trans hdead) (by decide)

theorem healthTrue_cancelWorkers_iff {p : Pool} (hp : p.HealthTrue) :
    (p.step .cancelWorkers).HealthTrue ↔ p.HealthKept .cancelWorkers := by
  constructor
  · intro hp' i hi
    have hsub : (p.step .cancelWorkers).live ⊆ p.live := by
      intro j hj
      exact mem_live.mpr (isLive_cancelWorkers.mp (mem_live.mp hj)).1
    have hcard : p.live.card ≤ (p.step .cancelWorkers).live.card := by
      rw [← hp'.active, ← hp.active]
      rfl
    -- nothing was live that is not live now, and what is live now is not registered
    rw [← Bool.not_eq_true, ← mem_live, ← Finset.eq_of_subset_of_card_le hsub hcard, mem_live,
      isLive_cancelWorkers]
    exact fun hnow => hnow.2 hi
  · intro hkept
    obtain ⟨hactive, hstatus, hcrashed⟩ := healthTrue_iff.mp hp
    refine healthTrue_iff.mpr ⟨?_, ?_, hcrashed⟩
    · rw [live_cancelWorkers hkept]
      exact hactive
    · rw [live_cancelWorkers hkept]
      exact hstatus

/-- In a regular pool the live loops are registered, so nothing is live here. -/
theorem Regular.cancelWorkers {p : Pool} (h : p.Regular) (hkept : p.HealthKept .cancelWorkers) :
    (p.step .cancelWorkers).Drained ∨ (p.step .cancelWorkers).Emptied := by
  have hnone : p.live = ∅ := by
    refine Finset.eq_empty_of_forall_notMem fun i hi => ?_
    have hlive := mem_live.mp hi
    have hdead := hkept i (h.registered.mem_workerCancels hlive)
    exact absurd (hlive.symm.trans hdead) (by decide)
  have hlive : (p.step .cancelWorkers).live.card = 0 := by
    rw [live_cancelWorkers hkept, hnone, Finset.card_empty]
  have hbalance := h.balance
  have hpos := h.named.workers_pos
  rw [hnone, Finset.card_empty, Nat.zero_add] at hbalance
  rcases Nat.eq_or_lt_of_le hpos with hone | htwo
  · obtain ⟨w, hw⟩ := List.length_eq_one_iff.mp (hbalance.trans hone.symm)
    obtain ⟨m, hm, rfl⟩ := h.named.pending w (by rw [hw]; exact List.mem_cons_self)
    obtain ⟨i, hi, -⟩ := h.pending m (by rw [hw]; exact List.mem_cons_self)
    have hslot := (List.getElem?_eq_some_iff.mp hi).1
    have hlength := h.length
    obtain rfl : m = 0 := by omega
    exact Or.inr ⟨h.enabled, named_step h.named trivial, hlive, rfl, hone.symm, hw⟩
  · refine Or.inl ⟨h.enabled, hlive, Nat.zero_le _, ?_, Nat.zero_le _⟩
    show 2 ≤ p.respawns.length
    omega

theorem Steady.cancelWorkers {p : Pool} (h : p.Steady) (hp : p.HealthTrue) :
    ((p.step .cancelWorkers).HealthTrue ↔ p.HealthKept .cancelWorkers) ∧
      (p.HealthKept .cancelWorkers → (p.step .cancelWorkers).Steady) := by
  refine ⟨healthTrue_cancelWorkers_iff hp, fun hkept => ⟨h.ordering, ?_⟩⟩
  have hlive := live_cancelWorkers hkept
  rcases h.kind with hr | hd | he | hd
  · exact Or.inr ((hr.cancelWorkers hkept).imp id Or.inl)
  · refine Or.inr (Or.inl ⟨hd.enabled, ?_, Nat.zero_le _, hd.pending, Nat.zero_le _⟩)
    rw [hlive]
    exact hd.live
  · refine Or.inr (Or.inr (Or.inl ⟨he.enabled, named_step he.named trivial, ?_, rfl, he.workers,
      he.pending⟩))
    rw [hlive]
    exact he.live
  · refine Or.inr (Or.inr (Or.inr ⟨hd.disabled, hd.pending, Nat.zero_le _, ?_⟩))
    rw [hlive]
    exact hd.workers.imp_right fun h0 => ⟨h0.1, Nat.zero_le _⟩

/-- A worker is live only in a regular pool, or in one with at least two workers. -/
theorem Steady.regular_of_one {p : Pool} (h : p.Steady) (hlive : p.live.card = 1)
    (hworkers : p.app.consumerConfig.workers = 1) : p.Regular := by
  rcases h.kind with hr | hd | he | hd
  · exact hr
  · have := hd.live
    omega
  · have := he.live
    omega
  · rcases hd.workers with h2 | h0 <;> omega

/-- The constants of a restart are those of one live worker out of one. -/
theorem running_one_iff {live workers : ℕ} :
    (1 = live ∧ GoroutineStatus.running = trueStatus true live workers) ↔
      live = 1 ∧ workers ≤ 1 := by
  rw [eq_comm (a := GoroutineStatus.running), trueStatus_eq_running]
  omega

theorem Steady.workers_pos {p : Pool} (h : p.Steady) (hlive : p.live.card = 1) :
    1 ≤ p.app.consumerConfig.workers := by
  rcases h.kind with hr | hd | he | hd
  · exact hr.named.workers_pos
  · have := hd.live
    omega
  · exact he.workers.ge
  · rcases hd.workers with h2 | h0 <;> omega

theorem Steady.httpOn {p : Pool} (h : p.Steady) (hp : p.HealthTrue) :
    ((p.step (.httpState true)).HealthTrue ↔ p.HealthKept (.httpState true)) ∧
      (p.HealthKept (.httpState true) → (p.step (.httpState true)).Steady) := by
  refine ⟨?_, ?_⟩
  · rw [healthTrue_iff, ← and_assoc]
    refine (and_iff_left hp.crashedWorker).trans (running_one_iff.trans ?_)
    refine and_congr_right fun hlive => ?_
    exact ⟨fun hle => Nat.le_antisymm hle (h.workers_pos hlive), fun heq => heq.le⟩
  · rintro ⟨hlive, hworkers⟩
    exact ⟨h.ordering, Or.inl ((h.regular_of_one hlive hworkers).of_app rfl rfl rfl)⟩

theorem Steady.httpRestart {p : Pool} (h : p.Steady) (hp : p.HealthTrue) :
    ((p.step .httpRestart).HealthTrue ↔ p.HealthKept .httpRestart) ∧
      (p.HealthKept .httpRestart → (p.step .httpRestart).Steady) := by
  refine ⟨?_, ?_⟩
  · cases henabled : p.app.processingEnabled with
    | false =>
      refine iff_of_false (fun hp' => ?_) (fun hkept => ?_)
      · have hpaused : GoroutineStatus.running = .paused := hp'.paused.mpr henabled
        cases hpaused
      · exact absurd (henabled.symm.trans hkept.1) (by decide)
    | true =>
      rw [healthTrue_iff, ← and_assoc]
      refine (and_iff_left hp.crashedWorker).trans ?_
      have henabled' : (p.step .httpRestart).app.processingEnabled = true := henabled
      rw [henabled']
      refine running_one_iff.trans ⟨?_, ?_⟩
      · rintro ⟨hlive, hle⟩
        exact ⟨henabled, hlive, Nat.le_antisymm hle (h.workers_pos hlive)⟩
      · exact fun hkept => ⟨hkept.2.1, hkept.2.2.le⟩
  · rintro ⟨henabled, hlive, hworkers⟩
    exact ⟨h.ordering, Or.inl ((h.regular_of_one hlive hworkers).of_app henabled rfl rfl)⟩

theorem inSlots_workerName {m : ℕ} (hm : m < 5) (n : ℕ) :
    inSlots n (workerName (m + 1)) = decide (m < n) := by
  simp only [inSlots, scanWorker_workerName hm, decide_eq_decide]
  omega

theorem Regular.countP_inSlots {p : Pool} (h : p.Regular) :
    p.respawns.countP (inSlots p.app.workerCancels.length) = p.respawns.length := by
  refine List.countP_eq_length.mpr fun w hw => ?_
  obtain ⟨m, hm, rfl⟩ := h.named.pending w hw
  obtain ⟨i, hi, -⟩ := h.pending m hw
  rw [inSlots_workerName hm, decide_eq_true_eq]
  exact (List.getElem?_eq_some_iff.mp hi).1

/-- With nothing live, there are pending respawns, enough to cover the slots. -/
theorem Steady.covered_of_not_live {p : Pool} (h : p.Steady) (hlive : p.live.card = 0) :
    p.respawns ≠ [] ∧ p.app.workerCancels.length ≤
      p.respawns.countP (inSlots p.app.workerCancels.length) := by
  rcases h.kind with hr | hd | he | hd
  · have hbalance := hr.balance
    have hpos := hr.named.workers_pos
    rw [hr.countP_inSlots, hr.length]
    exact ⟨List.ne_nil_of_length_pos (by omega), by omega⟩
  · exact ⟨List.ne_nil_of_length_pos (by have := hd.pending; omega), hd.covered⟩
  · rw [he.pending, he.slots]
    exact ⟨List.cons_ne_nil _ _, Nat.zero_le _⟩
  · have hcovered := hd.covered
    rw [hlive, Nat.add_zero] at hcovered
    exact ⟨hd.pending, hcovered⟩

/-- There are no more slots than workers, unless a dormant pool got some by respawns. -/
theorem Steady.length_le {p : Pool} (h : p.Steady) :
    2 ≤ p.app.consumerConfig.workers ∨
      p.app.workerCancels.length ≤ p.app.consumerConfig.workers := by
  rcases h.kind with hr | hd | he | hd
  · exact Or.inr hr.length.le
  · exact Or.inr hd.length
  · rw [he.slots]
    exact Or.inr (Nat.zero_le _)
  · exact hd.workers.imp_right And.right

theorem Steady.httpOff {p : Pool} (h : p.Steady) (hp : p.HealthTrue) :
    ((p.step (.httpState false)).HealthTrue ↔ p.HealthKept (.httpState false)) ∧
      (p.HealthKept (.httpState false) → (p.step (.httpState false)).Steady) := by
  refine ⟨?_, ?_⟩
  · rw [healthTrue_iff]
    have hrest : GoroutineStatus.paused =
        trueStatus false p.live.card p.app.consumerConfig.workers ∧
          (p.app.crashedWorker ≠ "" ↔ p.respawns ≠ []) := ⟨rfl, hp.crashedWorker⟩
    exact (and_iff_left hrest).trans eq_comm
  · intro hlive
    obtain ⟨hpending, hcovered⟩ := h.covered_of_not_live hlive
    refine ⟨h.ordering, Or.inr (Or.inr (Or.inr ⟨rfl, hpending, ?_, ?_⟩))⟩
    · exact hcovered.trans (Nat.le_add_right _ _)
    · exact h.length_le.imp_right fun hle => ⟨hlive, hle⟩

end Pool

end NatsDemo.Processor
