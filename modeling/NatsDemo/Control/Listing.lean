import Mathlib.Data.Prod.Lex
import Mathlib.Data.String.Basic
import NatsDemo.Control.Activity
import NatsDemo.Lib.Run

/-!
# The order of the activity log

The listing is sorted by what the clock on the wall showed, then by job and by the weight of
the status.  So an activity of a later second comes first as long as the later second also
shows a later time of the day.
-/

namespace NatsDemo.Control
open Go Lib

/-! ## The listing as a sort by a key -/

/-- Later readings first, then the jobs in order, then heavier statuses first. -/
def Activity.listingKey (a : Activity) : Stringᵒᵈ ×ₗ String ×ₗ ℕᵒᵈ :=
  toLex (.toDual a.timestamp, toLex (a.jobID, .toDual (getStatusWeight a.event)))

theorem Activity.listingKey_lt_iff (a b : Activity) : a.listingKey < b.listingKey ↔
    b.timestamp < a.timestamp ∨ a.timestamp = b.timestamp ∧
      (a.jobID < b.jobID ∨ a.jobID = b.jobID ∧
        getStatusWeight b.event < getStatusWeight a.event) := by
  simp only [listingKey, Prod.Lex.toLex_lt_toLex, OrderDual.toDual_lt_toDual, OrderDual.toDual_inj]

theorem Activity.before_iff (a b : Activity) : a.before b ↔ a.listingKey < b.listingKey := by
  rw [listingKey_lt_iff, before]
  split_ifs with htime hjob
  · have hne : ¬ a.timestamp = b.timestamp := htime
    simp [hne]
  · have heq : a.timestamp = b.timestamp := not_not.mp htime
    have hne : ¬ a.jobID = b.jobID := hjob
    simp [heq, hne]
  · have heq : a.timestamp = b.timestamp := not_not.mp htime
    have heq' : a.jobID = b.jobID := not_not.mp hjob
    simp [heq, heq']

theorem Tracker.getActivities_eq (t : Tracker) :
    t.getActivities = sortOn Activity.listingKey t.activities := by
  have hle (a b : Activity) : (!decide (b.before a)) = decide (a.listingKey ≤ b.listingKey) := by
    simp only [← decide_not, Activity.before_iff, not_lt]
  simp only [getActivities, sortOn, hle]

/-! ## Runs -/

/-- The tracker after some events, each recorded at its own time. -/
def Tracker.recordAll (zone : Time → Time) (es : List (Event × Time)) : Tracker :=
  run (fun t e => t.addEvent zone e.1 e.2) {} es

/-- The buffer is in the order of time, the latest first, and shows the readings of its times. -/
structure Tracker.Timed (zone : Time → Time) (t : Tracker) : Prop where
  order : t.activities.Pairwise fun a b => b.recorded ≤ a.recorded
  timestamp : ∀ a ∈ t.activities, a.timestamp = Time.formatClock (zone a.recorded)

theorem Tracker.timed_addEvent {zone : Time → Time} {t : Tracker} (h : t.Timed zone) (e : Event)
    {now : Time} (hnow : ∀ a ∈ t.activities, a.recorded ≤ now) :
    (t.addEvent zone e now).Timed zone := by
  have hsub : (t.addEvent zone e now).activities.Sublist
      (t.activityOf zone e now :: t.activities) := List.take_sublist _ _
  constructor
  · exact (List.pairwise_cons.mpr ⟨hnow, h.order⟩).sublist hsub
  · intro a ha
    cases List.mem_cons.mp (hsub.subset ha) with
    | inl hnew => rw [hnew]; rfl
    | inr hold => exact h.timestamp a hold

theorem Tracker.timed_run {zone : Time → Time} {t : Tracker} {es : List (Event × Time)}
    (ht : t.Timed zone) (hclock : es.Pairwise fun e e' => e.2 ≤ e'.2)
    (hnow : ∀ a ∈ t.activities, ∀ e ∈ es, a.recorded ≤ e.2) :
    (run (fun t e => t.addEvent zone e.1 e.2) t es).Timed zone := by
  induction es generalizing t with
  | nil => exact ht
  | cons e es ih =>
    obtain ⟨hlater, hclock⟩ := List.pairwise_cons.mp hclock
    refine ih (timed_addEvent ht e.1 fun a ha => hnow a ha e List.mem_cons_self) hclock ?_
    intro a ha e' he'
    cases List.mem_cons.mp (List.mem_of_mem_take ha) with
    | inl hnew => rw [hnew]; exact hlater e' he'
    | inr hold => exact hnow a hold e' (List.mem_cons_of_mem e he')

theorem Tracker.timed_recordAll (zone : Time → Time) {es : List (Event × Time)}
    (hclock : es.Pairwise fun e e' => e.2 ≤ e'.2) : (recordAll zone es).Timed zone :=
  timed_run ⟨List.Pairwise.nil, nofun⟩ hclock nofun

/-- Each activity in the buffer is that of an event of the run. -/
theorem Tracker.recorded_of_mem {zone : Time → Time} {es : List (Event × Time)} {a : Activity}
    (ha : a ∈ (recordAll zone es).activities) : ∃ e ∈ es, a.recorded = e.2 := by
  have hall : Meets (fun (t : Tracker) e => t.addEvent zone e.1 e.2) (fun _ e => e ∈ es) {} es :=
    meets_of_mem (fun _ he _ => he) _
  refine run_inv (fun t => ∀ a ∈ t.activities, ∃ e ∈ es, a.recorded = e.2) ?_ nofun hall a ha
  intro t e ht he a ha
  cases List.mem_cons.mp (List.mem_of_mem_take ha) with
  | inl hnew => exact ⟨e, he, by rw [hnew]; rfl⟩
  | inr hold => exact ht a hold

/-! ## The order of a listing -/

/-- No activity is listed before one of a later second. -/
def NewestFirst (l : List Activity) : Prop :=
  l.Pairwise fun a b => ¬ Time.toSecond a.recorded < Time.toSecond b.recorded

/-- Of two activities of different seconds, the later one shows the later time of the day, or
both show the same, and the job and the status put the later one ahead or leave it there. -/
def ClockRight (zone : Time → Time) (l : List Activity) : Prop :=
  ∀ a ∈ l, ∀ b ∈ l, Time.toSecond a.recorded < Time.toSecond b.recorded →
    Time.secondOfDay (zone a.recorded) < Time.secondOfDay (zone b.recorded) ∨
    Time.secondOfDay (zone a.recorded) = Time.secondOfDay (zone b.recorded) ∧
      (b.jobID < a.jobID ∨ b.jobID = a.jobID ∧ getStatusWeight a.event ≤ getStatusWeight b.event)

theorem Activity.listingKey_le_iff (a b : Activity) : a.listingKey ≤ b.listingKey ↔
    b.timestamp < a.timestamp ∨ a.timestamp = b.timestamp ∧
      (a.jobID < b.jobID ∨ a.jobID = b.jobID ∧
        getStatusWeight b.event ≤ getStatusWeight a.event) := by
  simp only [listingKey, Prod.Lex.toLex_le_toLex, OrderDual.toDual_lt_toDual, OrderDual.toDual_inj,
    OrderDual.toDual_le_toDual]

/-- For a buffer in the order of time, the clock decides. -/
theorem Tracker.newestFirst_of_timed {zone : Time → Time} {t : Tracker} (ht : t.Timed zone) :
    NewestFirst t.getActivities ↔ ClockRight zone t.activities := by
  have hbuffer : NewestFirst t.activities := by
    refine ht.order.imp ?_
    intro a b hle
    exact not_lt.mpr (Nat.div_le_div_right hle)
  rw [getActivities_eq, NewestFirst, sortOn_pairwise_iff hbuffer]
  refine forall₂_congr fun a ha => forall₂_congr fun b hb => ?_
  rw [← not_imp_not, not_not, not_lt, Activity.listingKey_le_iff, ht.timestamp a ha,
    ht.timestamp b hb, Time.formatClock_lt_iff, Time.formatClock_eq_iff,
    eq_comm (a := Time.secondOfDay (zone b.recorded))]

/-- Within one day the clock is right. -/
theorem clockRight_of_oneDay {zone : Time → Time} {l : List Activity} {d : ℕ}
    (hday : ∀ a ∈ l, Time.toSecond (zone a.recorded) / 86400 = d)
    (hzone : ∀ s t, Time.toSecond s < Time.toSecond t →
      Time.toSecond (zone s) < Time.toSecond (zone t)) :
    ClockRight zone l := by
  intro a ha b hb hlt
  have hread := hzone _ _ hlt
  have hdaya := hday a ha
  have hdayb := hday b hb
  refine .inl ?_
  rw [Time.secondOfDay, Time.secondOfDay]
  omega

/-- **When newer activity is listed first.**  After any run of a clock that does not go back,
an activity of a later second is listed before one of an earlier second in all cases if and only
if the time of the day agrees with the order of the seconds. -/
theorem newestFirst_iff (zone : Time → Time) (es : List (Event × Time))
    (hclock : es.Pairwise fun e e' => e.2 ≤ e'.2) :
    NewestFirst (Tracker.recordAll zone es).getActivities ↔
      ClockRight zone (Tracker.recordAll zone es).activities :=
  Tracker.newestFirst_of_timed (Tracker.timed_recordAll zone hclock)

/-- A job over two seconds of a day, in UTC. -/
def twoSeconds : List (Event × Time) :=
  [({ jobID := "job-1", status := "PUBLISHED", subject := "jobs.submitted" }, 0),
   ({ jobID := "job-1", status := "STORED", subject := "jobs.stored" }, Time.second)]

theorem newestFirst_twoSeconds : NewestFirst (Tracker.recordAll id twoSeconds).getActivities := by
  have hdays : ∀ e ∈ twoSeconds, Time.toSecond e.2 / 86400 = 0 := by decide
  refine (newestFirst_iff id twoSeconds ?_).mpr (clockRight_of_oneDay (d := 0) ?_ fun _ _ h => h)
  · simp [twoSeconds]
  · intro a ha
    obtain ⟨e, he, hrecorded⟩ := Tracker.recorded_of_mem ha
    rw [hrecorded]
    exact hdays e he

/-- A job that is stored before midnight and received after it. -/
def acrossMidnight : List (Event × Time) :=
  [({ jobID := "job-1", status := "STORED", subject := "jobs.stored" }, 86399 * Time.second),
   ({ jobID := "job-1", status := "RECEIVED", subject := "jobs.received" }, 86400 * Time.second)]

/-- The earlier activity is listed first. -/
theorem not_newestFirst_acrossMidnight :
    ¬ NewestFirst (Tracker.recordAll id acrossMidnight).getActivities := by
  have hclock : acrossMidnight.Pairwise fun e e' => e.2 ≤ e'.2 := by
    simp only [acrossMidnight, List.pairwise_pair]
    decide
  rw [Tracker.newestFirst_of_timed (Tracker.timed_recordAll id hclock)]
  intro h
  have hlist : ∃ a b, (Tracker.recordAll id acrossMidnight).activities = [b, a] ∧
      a.recorded = 86399 * Time.second ∧ b.recorded = 86400 * Time.second := ⟨_, _, rfl, rfl, rfl⟩
  obtain ⟨a, b, hab, ha, hb⟩ := hlist
  have hright := h a (by simp [hab]) b (by simp [hab])
  rw [ha, hb] at hright
  have hclash : ¬ (Time.secondOfDay (86399 * Time.second) ≤
      Time.secondOfDay (86400 * Time.second)) := by
    decide
  rcases hright (by decide) with hlt | ⟨heq, -⟩
  · exact hclash hlt.le
  · exact hclash heq.le

end NatsDemo.Control
