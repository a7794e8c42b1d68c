import NatsDemo.Go.Calendar
import NatsDemo.Jobs.Deferred
import NatsDemo.Jobs.Handler

/-!
# Appointments

An accepted schedule request sets a timer and announces, to the second, when it goes off.
What is announced can be read back, and a request that asks for a time ahead gets that time:
an announcement that is used as a `deliver_at` is announced again, letter by letter.
-/

namespace NatsDemo

namespace Jobs
open Go Lib

namespace Service

/-- The moment that the timer of a request goes off. -/
def dueTime (req : ScheduleJobRequest) (clock : Clock) : Time :=
  clock.now + (delayOf req clock.measured).toNat

section
variable {req : ScheduleJobRequest} {now : Time} {clock : Clock}

theorem delayOf_pos (req : ScheduleJobRequest) (now : Time) : 0 < delayOf req now := by
  unfold delayOf
  dsimp only
  split_ifs with h
  · decide
  · exact Int.not_le.mp h

theorem dueTime_eq (req : ScheduleJobRequest) (clock : Clock) :
    (dueTime req clock : ℤ) = clock.now + delayOf req clock.measured := by
  rw [dueTime, Int.natCast_add, Int.toNat_of_nonneg (delayOf_pos req clock.measured).le]

theorem delayOf_le (req : ScheduleJobRequest) (now : Time) : delayOf req now ≤ maxInt := by
  have hwrap : Int.bmod (req.deliverAfterSec * 1000000000) (2 ^ 64) ≤ maxInt :=
    Int.le_of_lt_add_one (Int.bmod_lt (by decide))
  have hmin (t : ℤ) : min t maxInt ≤ maxInt := min_le_right _ _
  have hdefault : (5 * 1000000000 : ℤ) ≤ maxInt := by decide
  unfold delayOf
  cases req.deliverAt with
  | none =>
    dsimp only
    split_ifs
    · exact hdefault
    · exact hwrap
  | some t =>
    dsimp only
    split_ifs
    · exact hdefault
    · exact hmin _
    · exact hdefault
    · exact hwrap

theorem dueTime_le (req : ScheduleJobRequest) (clock : Clock) :
    (dueTime req clock : ℤ) ≤ clock.now + maxInt := by
  rw [dueTime_eq]
  exact Int.add_le_add_left (delayOf_le req clock.measured) clock.now

/-- A time ahead that a `time.Duration` can count is waited for exactly, whatever else is asked. -/
theorem delayOf_of_deliverAt {t : Instant} (hat : req.deliverAt = some t) (hlater : now < t)
    (hrange : t - now ≤ maxInt) : delayOf req now = t - now := by
  have hpos : 0 < t - now := Int.sub_pos.mpr hlater
  simp only [delayOf, hat, min_eq_left hrange, if_pos hpos, if_neg (Int.not_le.mpr hpos)]

end

end Service

/-! ## Announcements -/

namespace JobHandler

/-- The request in the body of `POST /jobs/schedule`. -/
def scheduleRequest (body : Option Json) : ScheduleJobRequest :=
  (Go.unmarshal ScheduleBody.fields {} body).1.request

/-- The moment that the timer of a request goes off. -/
def due (c : Context) (body : Option Json) : Time :=
  Service.dueTime (scheduleRequest body) c.toClock

/-- The time that an answer announces. -/
def announced : Answer → Option String
  | (202, .obj fields) =>
    match fields.lookup "scheduled_for" with
    | some (.str x) => some x
    | _ => none
  | _ => none

/-- A request that is refused announces nothing and sets no timer. -/
theorem scheduleJob_spec (s : Service) (c : Context) (body : Option Json) :
    (announced (scheduleJob s c body).1 = none ∧ (scheduleJob s c body).2 = s) ∨
    (announced (scheduleJob s c body).1 =
        some (c.zone.formatRFC3339 (due c body)) ∧
      (scheduleJob s c body).2.timers =
        s.timers ++ [Service.timerOf (scheduleRequest body) c.toClock]) := by
  rw [scheduleJob, due, scheduleRequest]
  by_cases hread : (Go.unmarshal ScheduleBody.fields {} body).2 = true
  · by_cases hid : (Go.unmarshal ScheduleBody.fields {} body).1.jobID = ""
    · simp [hread, hid, refusal, announced]
    · right
      have hid' : (Go.unmarshal ScheduleBody.fields {} body).1.request.jobID ≠ "" := hid
      simp only [hread, Bool.not_true, Bool.false_eq_true, if_false, hid, Service.scheduleJob, hid']
      exact ⟨rfl, rfl⟩
  · simp [hread, refusal, announced]

/-- A second that is written is what a request asks for with it. -/
theorem deliverAt_of_announced {body : Option Json} {z : Zone} {t : Time}
    (hyear : (z.date t).1 ≤ 9999)
    (hat : (Go.unmarshal ScheduleBody.fields {} body).1.deliverAt = z.formatRFC3339 t) :
    (scheduleRequest body).deliverAt = some ((Time.toSecond t * Time.second : ℕ) : ℤ) := by
  have hparse := Zone.parse_formatRFC3339 hyear
  have hempty : Instant.parse Instant.rfc3339 "" = none := by decide
  have hne : z.formatRFC3339 t ≠ "" := by
    intro h
    rw [h, hempty] at hparse
    cases hparse
  have hread : (scheduleRequest body).deliverAt =
      Instant.parse Instant.rfc3339 (z.formatRFC3339 t) := by
    rw [← hat] at hne ⊢
    exact if_neg hne
  rw [hread, hparse, Int.natCast_mul]
  rfl

/-- **Announcements are appointments.**  What an answer announces, in the zone of the service, reads
as the second in which its timer goes off.  A later request that asks for the announced time waits
from its reading of the clock until that second begins, and where it reads the clock again within
a second, it announces the same. -/
theorem announced_appointment {s s' : Service} {c c' : Context} {body body' : Option Json}
    {x : String} (hx : announced (scheduleJob s c body).1 = some x)
    (hyear : (c.zone.date (due c body)).1 ≤ 9999) :
    ∃ sec : ℕ, Instant.parse Instant.rfc3339 x = some (sec * Instant.second) ∧
      sec = Time.toSecond (due c body) ∧
      (scheduleJob s c body).2.timers =
        s.timers ++ [Service.timerOf (scheduleRequest body) c.toClock] ∧
      (announced (scheduleJob s' c' body').1 ≠ none →
        (Go.unmarshal ScheduleBody.fields {} body').1.deliverAt = x →
        c.now ≤ c'.measured → c'.measured < sec * Time.second →
          (scheduleJob s' c' body').2.timers = s'.timers ++ [(Service.scheduledJob
            (scheduleRequest body'), (sec * Time.second - c'.measured : ℤ))] ∧
          (c'.zone = c.zone → c'.measured ≤ c'.now → c'.now < c'.measured + Time.second →
            announced (scheduleJob s' c' body').1 = some x)) := by
  obtain ⟨hnone, -⟩ | ⟨htext, htimers⟩ := scheduleJob_spec s c body
  · cases hnone.symm.trans hx
  obtain rfl := Option.some_inj.mp (htext.symm.trans hx)
  refine ⟨_, Zone.parse_formatRFC3339 hyear, rfl, htimers, fun haccepted hat hle hlater => ?_⟩
  obtain ⟨hnone, -⟩ | ⟨htext', htimers'⟩ := scheduleJob_spec s' c' body'
  · exact absurd hnone haccepted
  have hbound : (Time.toSecond (due c body) * Time.second : ℕ) - (c'.measured : ℤ) ≤ maxInt := by
    have hfloor := Nat.div_mul_le_self (due c body) Time.second
    have hdue : (due c body : ℤ) ≤ c.now + maxInt :=
      Service.dueTime_le (scheduleRequest body) c.toClock
    have hle' : (c.now : ℤ) ≤ c'.measured := Int.ofNat_le.mpr hle
    unfold Time.toSecond
    omega
  have hdelay := Service.delayOf_of_deliverAt (deliverAt_of_announced hyear hat)
    (Int.ofNat_lt.mpr hlater) hbound
  constructor
  · rw [htimers', Service.timerOf, hdelay, Int.natCast_mul]
  · intro hzone hfirst hsoon
    have hdue := Service.dueTime_eq (scheduleRequest body') c'.toClock
    rw [hdelay] at hdue
    -- the second reading is later by less than a second
    have hsec : Time.toSecond (due c' body') = Time.toSecond (due c body) := by
      obtain ⟨d, hd⟩ := Nat.exists_eq_add_of_le hfirst
      have hsum : due c' body' = d + Time.toSecond (due c body) * Time.second := by
        refine Int.ofNat_inj.mp (hdue.trans ?_)
        rw [hd, Int.natCast_add, Int.natCast_add]
        omega
      have hd' : d < Time.second := Nat.lt_of_add_lt_add_left (hd ▸ hsoon)
      rw [hsum, Time.toSecond, Nat.add_mul_div_right _ _ (by decide), Nat.div_eq_of_lt hd',
        Nat.zero_add]
    rw [htext', hzone]
    exact congrArg some (c.zone.formatRFC3339_congr hsec)

/-- Half an hour to the east of an hour. -/
def eastern : Zone := ⟨fun _ => 330, fun _ => by decide⟩

/-- An hour is announced, and asked for half an hour later. -/
theorem announced_appointment_hour : ∃ sec : ℕ,
    Instant.parse Instant.rfc3339 "1970-01-01T06:30:00+05:30" = some (sec * Instant.second) ∧
      (scheduleJob {} { zone := eastern, measured := 1800 * Time.second, now := 1800 * Time.second }
        (some (.obj [("job_id", .str "b"),
          ("deliver_at", .str "1970-01-01T06:30:00+05:30")]))).2.timers =
          [(Service.scheduledJob { jobID := "b" }, (sec * Time.second - 1800 * Time.second : ℤ))] := by
  obtain ⟨sec, hparse, hsec, -, hecho⟩ := @announced_appointment {} {} { zone := eastern }
    { zone := eastern, measured := 1800 * Time.second, now := 1800 * Time.second }
    (some (.obj [("job_id", .str "a"), ("deliver_after_seconds", .int 3600)]))
    (some (.obj [("job_id", .str "b"), ("deliver_at", .str "1970-01-01T06:30:00+05:30")]))
    "1970-01-01T06:30:00+05:30" (by decide +kernel) (by decide +kernel)
  have hvalue : sec = 3600 := by
    rw [hsec]
    decide +kernel
  subst hvalue
  exact ⟨3600, hparse, (hecho (by decide +kernel) rfl (by decide) (by decide)).1⟩

end JobHandler

end Jobs

end NatsDemo
