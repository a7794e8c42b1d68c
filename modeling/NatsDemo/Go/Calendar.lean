import Mathlib.Order.Monotone.Basic
import NatsDemo.Go.Parse
import NatsDemo.Go.Time

/-!
# Times written and read again

A clock reading that is written by the layout of RFC 3339, in whatever zone, is read as the second
it lies in, as long as its year has four digits.
-/

namespace NatsDemo.Go

/-- What a reader found is an instant, where it is a day of the calendar. -/
theorem Instant.parse_of_readAll {layout : List Chunk} {value : String} {f : Fields}
    (h : readAll layout value.toList {} = some f)
    (hvalid : ¬ (f.day < 1 ∨ daysIn f.month f.year < f.day)) :
    parse layout value = some
      ((daysOf f.year f.month f.day * 86400 + f.hour * 3600 + f.min * 60 + f.sec -
        f.zoneOffset) * second + f.nsec) := by
  rw [parse, h]
  exact if_neg hvalid

namespace Time

/-! ## Years of an era

An era has 400 years of 146097 days, and its years start in March. -/

/-- The days of an era before a year. -/
def yearStart (y : ℕ) : ℕ := 365 * y + y / 4 - y / 100 + y / 400

/-- The year that a day of an era lies in. -/
def yearOfEra (doe : ℕ) : ℕ := (doe - doe / 1460 + doe / 36524 - doe / 146096) / 365

theorem yearStart_mono : Monotone yearStart := by
  refine monotone_nat_of_le_succ fun y => ?_
  unfold yearStart
  omega

theorem yearOfEra_mono : Monotone yearOfEra := by
  refine monotone_nat_of_le_succ fun d => Nat.div_le_div_right ?_
  omega

/-- A year begins and ends where its number says. -/
theorem yearOfEra_bounds : ∀ y < 400, yearOfEra (yearStart y) = y ∧
    yearOfEra (yearStart (y + 1) - 1) = y := by decide +kernel

theorem yearOfEra_eq {y doe : ℕ} (hy : y < 400) (hlow : yearStart y ≤ doe)
    (hhigh : doe < yearStart (y + 1)) : yearOfEra doe = y := by
  obtain ⟨hfirst, hlast⟩ := yearOfEra_bounds y hy
  have h1 := yearOfEra_mono hlow
  have h2 := yearOfEra_mono (Nat.le_sub_one_of_lt hhigh)
  omega

/-- A day before the start of a year lies in an earlier one. -/
theorem exists_year {n doe : ℕ} (h : doe < yearStart n) :
    ∃ y < n, yearStart y ≤ doe ∧ doe < yearStart (y + 1) := by
  induction n with
  | zero => exact absurd h (Nat.not_lt_zero doe)
  | succ n ih =>
    rcases Nat.lt_or_ge doe (yearStart n) with hlt | hge
    · obtain ⟨y, hy, hyear⟩ := ih hlt
      exact ⟨y, Nat.lt_succ_of_lt hy, hyear⟩
    · exact ⟨n, Nat.lt_succ_self n, hge, h⟩

/-- A year that starts in March has the leap day of the next one. -/
theorem yearStart_succ (y : ℕ) : yearStart (y + 1) =
    yearStart y + 365 + if Instant.isLeap (y + 1) then 1 else 0 := by
  have hleap : Instant.isLeap (y + 1) = true ↔ 4 ∣ y + 1 ∧ (¬ 100 ∣ y + 1 ∨ 400 ∣ y + 1) := by
    simp [Instant.isLeap, Nat.dvd_iff_mod_eq_zero]
  have h100 : 100 ∣ y + 1 → 4 ∣ y + 1 := Nat.dvd_trans (by decide)
  have h400 : 400 ∣ y + 1 → 100 ∣ y + 1 := Nat.dvd_trans (by decide)
  have hle : y / 100 ≤ y / 4 := Nat.div_le_div_left (by decide) (by decide)
  simp only [yearStart, Nat.succ_div, hleap]
  by_cases d4 : 4 ∣ y + 1 <;> by_cases d100 : 100 ∣ y + 1 <;> by_cases d400 : 400 ∣ y + 1 <;>
    simp only [d4, d100, d400, if_true, if_false, true_and, false_and, not_true_eq_false,
      not_false_eq_true, or_true, or_false, true_implies, imp_false] at h100 h400 ⊢ <;>
    omega

theorem isLeap_add_era (y era : ℕ) : Instant.isLeap (y + era * 400) = Instant.isLeap y := by
  have h4 : (y + era * 400) % 4 = y % 4 := by omega
  have h100 : (y + era * 400) % 100 = y % 100 := by omega
  have h400 : (y + era * 400) % 400 = y % 400 := by omega
  rw [Instant.isLeap, h4, h100, h400]
  rfl

/-! ## The date of a day -/

/-- The month, counted from March, of a day of the year. -/
def marchMonth (doy : ℕ) : ℕ := (5 * doy + 2) / 153

/-- The day of its month. -/
def dayOfMonth (doy : ℕ) : ℕ := doy - (153 * marchMonth doy + 2) / 5 + 1

/-- January and February come last. -/
def month (doy : ℕ) : ℕ := if marchMonth doy < 10 then marchMonth doy + 3 else marchMonth doy - 9

/-- The days from the epoch to the day of a reading. -/
def dayNumber (t : Time) : ℕ := toSecond t / 86400

/-- A date by its era, the year of the era and the day of the year. -/
structure Dated (t : Time) (era y doy : ℕ) : Prop where
  year : y < 400
  day : doy < 365 + if Instant.isLeap (y + 1) then 1 else 0
  count : dayNumber t + 719468 = era * 146097 + yearStart y + doy
  date : date t = (y + era * 400 + (if month doy ≤ 2 then 1 else 0), month doy, dayOfMonth doy)

theorem exists_dated (t : Time) : ∃ era y doy, Dated t era y doy := by
  have hday : (t / second / 86400 + 719468) % 146097 < yearStart 400 := Nat.mod_lt _ (by decide)
  have hsplit := Nat.div_add_mod' (t / second / 86400 + 719468) 146097
  generalize hera : (t / second / 86400 + 719468) / 146097 = era at hsplit
  generalize hdoe : (t / second / 86400 + 719468) % 146097 = doe at hday hsplit
  obtain ⟨y, hy, hlow, hhigh⟩ := exists_year hday
  have hyear := yearOfEra_eq hy hlow hhigh
  have hstart : 365 * y + y / 4 - y / 100 = yearStart y := by
    rw [yearStart, Nat.div_eq_of_lt hy, Nat.add_zero]
  have hlength := Nat.sub_lt_sub_right hlow hhigh
  rw [yearStart_succ, Nat.add_assoc, Nat.add_sub_cancel_left] at hlength
  refine ⟨era, y, doe - yearStart y, hy, hlength, ?_, ?_⟩
  · rw [Nat.add_assoc, Nat.add_sub_cancel' hlow]
    exact hsplit.symm
  · rw [yearOfEra] at hyear
    simp only [Time.date, hera, hdoe, hyear, hstart]
    rfl

namespace Dated

variable {t : Time} {era y doy : ℕ}

theorem day_le (h : Dated t era y doy) : doy ≤ 365 := by
  have hday := h.day
  split_ifs at hday <;> omega

/-- The months before one, and the days of it before a day. -/
theorem dayOfMonth_spec (h : Dated t era y doy) : marchMonth doy ≤ 11 ∧
    (153 * marchMonth doy + 2) / 5 + dayOfMonth doy = doy + 1 ∧ 1 ≤ dayOfMonth doy := by
  have hday := h.day_le
  unfold dayOfMonth marchMonth
  omega

/-- The year of a date, as it is counted from March. -/
theorem year_of_march (h : Dated t era y doy) :
    (if month doy ≤ 2 then ((Time.date t).1 : ℤ) - 1 else (Time.date t).1) =
      (y : ℤ) + era * 400 := by
  rw [h.date]
  dsimp only
  split_ifs <;> omega

theorem month_of_march (h : Dated t era y doy) : (month doy + 9) % 12 = marchMonth doy := by
  have hm := h.dayOfMonth_spec.1
  unfold month
  split_ifs <;> omega

end Dated

/-- The days of whole eras and of the years after them. -/
theorem days_add_era (y era : ℕ) :
    ((y : ℤ) + era * 400) * 365 + (y + era * 400) / 4 - (y + era * 400) / 100 +
      (y + era * 400) / 400 = yearStart y + era * 146097 := by
  have h4 : ((y : ℤ) + era * 400) / 4 = y / 4 + era * 100 := by omega
  have h100 : ((y : ℤ) + era * 400) / 100 = y / 100 + era * 4 := by omega
  have h400 : ((y : ℤ) + era * 400) / 400 = y / 400 + era := by omega
  have hle : y / 100 ≤ y / 4 := Nat.div_le_div_left (by decide) (by decide)
  rw [h4, h100, h400, yearStart]
  omega

/-- The date of a day, counted back, is the day. -/
theorem daysOf_date (t : Time) : Instant.daysOf (date t).1 (date t).2.1 (date t).2.2 =
    (dayNumber t : ℤ) := by
  obtain ⟨era, y, doy, h⟩ := exists_dated t
  have hyear := h.year_of_march
  have hmonth : ((month doy : ℤ) + 9) % 12 = marchMonth doy := mod_cast h.month_of_march
  obtain ⟨-, hsum, hd⟩ := h.dayOfMonth_spec
  have hdays := days_add_era y era
  have hcount := h.count
  have hm : (date t).2.1 = month doy := by rw [h.date]
  have hdom : (date t).2.2 = dayOfMonth doy := by rw [h.date]
  simp only [Instant.daysOf, hm, hdom, hyear, hmonth, hdays]
  omega

/-- A day of the month is one that a month of any year has, or the leap day. -/
theorem dayOfMonth_le : ∀ doy ≤ 365, 1 ≤ month doy ∧ month doy ≤ 12 ∧
    dayOfMonth doy ≤ if month doy = 2 then (if doy = 365 then 29 else 28)
      else if month doy ∈ [4, 6, 9, 11] then 30 else 31 := by decide +kernel

/-- A date is a day of the calendar. -/
theorem date_valid (t : Time) : (1 ≤ (date t).2.1 ∧ (date t).2.1 ≤ 12) ∧
    1 ≤ (date t).2.2 ∧ (date t).2.2 ≤ Instant.daysIn (date t).2.1 (date t).1 := by
  obtain ⟨era, y, doy, h⟩ := exists_dated t
  obtain ⟨hm, hm', hd⟩ := dayOfMonth_le doy h.day_le
  rw [h.date]
  refine ⟨⟨hm, hm'⟩, h.dayOfMonth_spec.2.2, hd.trans ?_⟩
  dsimp only [Instant.daysIn]
  split_ifs with hfeb hlast hmarch hnot <;> try exact Nat.le_refl _
  · -- the last day of a year that is not a leap year has another number
    have hday := h.day
    rw [Nat.add_right_comm, isLeap_add_era] at hnot
    rw [if_neg hnot] at hday
    omega
  all_goals omega

/-- The whole eras before a day are 400 years each. -/
theorem era_le_year (t : Time) : (dayNumber t + 719468) / 146097 * 400 ≤ (date t).1 := by
  obtain ⟨era, y, doy, h⟩ := exists_dated t
  have hcount := h.count
  have hstart : yearStart y ≤ yearStart 399 := yearStart_mono (Nat.le_of_lt_succ h.year)
  have hday := h.day_le
  have hlast : yearStart 399 = 145731 := by decide
  rw [h.date]
  dsimp only
  omega

/-! ## Digits -/

theorem digitOf_digitChar {n : ℕ} (h : n < 10) : Instant.digitOf (Nat.digitChar n) = n :=
  (by decide : ∀ n : Fin 10, Instant.digitOf (Nat.digitChar n) = n) ⟨n, h⟩

/-- Two digits are read as the number they were written for, whatever follows. -/
theorem getnum_twoDigits (fixed : Bool) {n : ℕ} (h : n < 100) (rest : List Char) :
    Instant.getnum fixed ((twoDigits n).toList ++ rest) = some (n, rest) := by
  have htens : n / 10 < 10 := by omega
  have hones : n % 10 < 10 := by omega
  have hvalue : 10 * (n / 10) + n % 10 = n := Nat.div_add_mod n 10
  rw [twoDigits_toList h]
  simp [Instant.getnum, Instant.atoi, digitOf_digitChar, htens, hones, hvalue]

theorem toDigits_year {n : ℕ} (hlow : 1000 ≤ n) (hhigh : n ≤ 9999) : (toString n).toList =
    [Nat.digitChar (n / 1000), Nat.digitChar (n / 100 % 10), Nat.digitChar (n / 10 % 10),
      Nat.digitChar (n % 10)] := by
  have h3 : Nat.toDigits 10 n = Nat.toDigits 10 (n / 10) ++ [Nat.digitChar (n % 10)] :=
    Nat.toDigits_of_base_le (by decide) (by omega)
  have h2 : Nat.toDigits 10 (n / 10) =
      Nat.toDigits 10 (n / 10 / 10) ++ [Nat.digitChar (n / 10 % 10)] :=
    Nat.toDigits_of_base_le (by decide) (by omega)
  have h1 : Nat.toDigits 10 (n / 10 / 10) =
      Nat.toDigits 10 (n / 10 / 10 / 10) ++ [Nat.digitChar (n / 10 / 10 % 10)] :=
    Nat.toDigits_of_base_le (by decide) (by omega)
  have h0 : Nat.toDigits 10 (n / 10 / 10 / 10) = [Nat.digitChar (n / 10 / 10 / 10)] :=
    Nat.toDigits_of_lt_base (by omega)
  rw [Nat.toString_eq_ofList_toDigits, h3, h2, h1, h0, String.toList_ofList]
  simp only [Nat.div_div_eq_div_mul]
  rfl

/-- A year of four digits is read as it was written. -/
theorem read_year {n : ℕ} (hlow : 1000 ≤ n) (hhigh : n ≤ 9999) (next : Option Instant.Chunk)
    (rest : List Char) (f : Instant.Fields) :
    Instant.Chunk.longYear.read next ((toString n).toList ++ rest) f =
      some ({ f with year := n }, rest) := by
  have hd3 : n / 1000 < 10 := by omega
  have hd2 : n / 100 % 10 < 10 := by omega
  have hd1 : n / 10 % 10 < 10 := by omega
  have hd0 : n % 10 < 10 := by omega
  have hvalue : 10 * (10 * (10 * (n / 1000) + n / 100 % 10) + n / 10 % 10) + n % 10 = n := by
    omega
  rw [toDigits_year hlow hhigh]
  simp [Instant.Chunk.read, Instant.atoi, digitOf_digitChar, hd3, hd2, hd1, hd0, hvalue]

end Time

/-! ## The round trip -/

namespace Zone

theorem toSecond_wall (z : Zone) (t : Time) : (Time.toSecond (z.wall t) : ℤ) =
    Time.toSecond t + cycle + z.offset t.toSecond * 60 := by
  have hday := z.lt_day t.toSecond
  obtain ⟨k, hk⟩ : ∃ k : ℕ, cycle + z.offset t.toSecond * 60 = (k : ℤ) :=
    Int.eq_ofNat_of_zero_le (by unfold cycle; omega)
  have hwall : z.wall t = t + k * Time.second := by
    have hshift : (k : ℤ) * Time.second =
        cycle * Time.second + z.offset t.toSecond * 60 * Time.second := by
      rw [← hk, Int.add_mul]
    rw [wall, Int.natCast_add, Int.natCast_mul, Int.add_assoc, ← hshift]
    exact Int.toNat_natCast (t + k * Time.second)
  rw [hwall, Time.toSecond, Nat.add_mul_div_right _ _ (by decide), Int.natCast_add, ← hk,
    Int.add_assoc, Time.toSecond]

/-- A time is written as its second is. -/
theorem formatRFC3339_congr (z : Zone) {s t : Time} (h : Time.toSecond s = Time.toSecond t) :
    z.formatRFC3339 s = z.formatRFC3339 t := by
  have hwall : z.wall s / Time.second = z.wall t / Time.second := by
    have hs := z.toSecond_wall s
    rw [h] at hs
    exact Int.ofNat_inj.mp (hs.trans (z.toSecond_wall t).symm)
  have hdate : z.date s = z.date t := by
    unfold date Time.date
    rw [hwall]
  have hclock : z.formatClock s = z.formatClock t := by
    unfold formatClock Time.formatClock
    rw [hwall]
  unfold formatRFC3339
  rw [hdate, hclock, h]

theorem year_add_cycle (z : Zone) (t : Time) :
    (z.date t).1 + 400 = (Time.date (z.wall t)).1 ∧ 1000 ≤ (z.date t).1 := by
  have hday := z.lt_day t.toSecond
  have hwall := z.toSecond_wall t
  have hera := Time.era_le_year (z.wall t)
  have hdate : (z.date t).1 = (Time.date (z.wall t)).1 - 400 := rfl
  unfold Time.dayNumber at hera
  unfold cycle at hwall
  omega

theorem date_valid (z : Zone) (t : Time) : (1 ≤ (z.date t).2.1 ∧ (z.date t).2.1 ≤ 12) ∧
    1 ≤ (z.date t).2.2 ∧ (z.date t).2.2 ≤ Instant.daysIn (z.date t).2.1 (z.date t).1 := by
  have hleap : Instant.isLeap (z.date t).1 = Instant.isLeap (Time.date (z.wall t)).1 := by
    rw [← (z.year_add_cycle t).1]
    exact (Time.isLeap_add_era (z.date t).1 1).symm
  have hvalid := Time.date_valid (z.wall t)
  rwa [Instant.daysIn, ← hleap] at hvalid

theorem daysOf_add_cycle (y m d : ℕ) :
    Instant.daysOf (y + 400) m d = Instant.daysOf y m d + 146097 := by
  dsimp only [Instant.daysOf]
  split_ifs <;> omega

theorem daysOf_date (z : Zone) (t : Time) :
    Instant.daysOf (z.date t).1 (z.date t).2.1 (z.date t).2.2 =
      Time.dayNumber (z.wall t) - 146097 := by
  have hdays := daysOf_add_cycle (z.date t).1 (z.date t).2.1 (z.date t).2.2
  rw [(z.year_add_cycle t).1] at hdays
  have hcount := hdays.symm.trans (Time.daysOf_date (z.wall t))
  omega

/-- A sign, hours and minutes are read as they were written. -/
theorem zoneOf_digits {sign : Char} (hsign : sign = '+' ∨ sign = '-') {n : ℕ} (h : n < 1440) :
    Instant.zoneOf (sign :: ((Time.twoDigits (n / 60)).toList ++
      ':' :: (Time.twoDigits (n % 60)).toList)) =
    some (if sign = '+' then (n : ℤ) * 60 else -(n * 60), []) := by
  have hhours : n / 60 < 100 := by omega
  have hminutes : n % 60 < 100 := by omega
  have hread {k : ℕ} (hk : k < 100) : Instant.getnum true
      [Nat.digitChar (k / 10), Nat.digitChar (k % 10)] = some (k, []) := by
    rw [← Time.twoDigits_toList hk]
    simpa using Time.getnum_twoDigits true hk []
  have hrange : ¬ (24 < n / 60 ∨ 60 < n % 60) := by omega
  have hsum : ((n / 60 : ℕ) : ℤ) * 60 + (n % 60 : ℕ) = n := by omega
  rw [Time.twoDigits_toList hhours, Time.twoDigits_toList hminutes]
  obtain rfl | rfl := hsign
  all_goals
    simp only [List.cons_append, List.nil_append]
    rw [Instant.zoneOf, hread hhours, hread hminutes]
    · simp only [Option.bind_eq_bind, Option.bind_some, if_neg hrange, hsum]
      rfl
    · decide

theorem zoneOf_offsetText {minutes : ℤ} (h : minutes.natAbs < 1440) :
    Instant.zoneOf (offsetText minutes).toList = some (minutes * 60, []) := by
  have hwritten (sign : String) : (sign ++ Time.twoDigits (minutes.natAbs / 60) ++ ":" ++
      Time.twoDigits (minutes.natAbs % 60)).toList = sign.toList ++
        ((Time.twoDigits (minutes.natAbs / 60)).toList ++
          ':' :: (Time.twoDigits (minutes.natAbs % 60)).toList) := by
    simp [String.toList_append]
  rw [offsetText]
  split_ifs with hzero hneg
  · subst hzero
    rfl
  · have habs : (minutes.natAbs : ℤ) = -minutes := Int.ofNat_natAbs_of_nonpos hneg.le
    have hread := zoneOf_digits (Or.inr rfl : '-' = '+' ∨ '-' = '-') h
    rw [if_neg (by decide), habs, Int.neg_mul, Int.neg_neg] at hread
    rw [hwritten]
    exact hread
  · have habs : (minutes.natAbs : ℤ) = minutes := Int.natAbs_of_nonneg (Int.not_lt.mp hneg)
    have hread := zoneOf_digits (Or.inl rfl : '+' = '+' ∨ '+' = '-') h
    rw [if_pos rfl, habs] at hread
    rw [hwritten]
    exact hread

/-- An offset is not taken for a fraction of the second before it. -/
theorem fraction_offsetText (minutes : ℤ) :
    Instant.fraction (offsetText minutes).toList = (0, (offsetText minutes).toList) := by
  rw [offsetText]
  split_ifs <;> simp [Instant.fraction]

theorem formatRFC3339_toList (z : Zone) (t : Time) : (z.formatRFC3339 t).toList =
    (toString (z.date t).1).toList ++ '-' :: ((Time.twoDigits (z.date t).2.1).toList ++
      '-' :: ((Time.twoDigits (z.date t).2.2).toList ++
      'T' :: ((Time.twoDigits (Time.secondOfDay (z.wall t) / 3600)).toList ++
      ':' :: ((Time.twoDigits (Time.secondOfDay (z.wall t) / 60 % 60)).toList ++
      ':' :: ((Time.twoDigits (Time.secondOfDay (z.wall t) % 60)).toList ++
        (offsetText (z.offset t.toSecond)).toList))))) := by
  have hclock : (z.formatRFC3339 t).toList = (toString (z.date t).1).toList ++
      '-' :: ((Time.twoDigits (z.date t).2.1).toList ++
      '-' :: ((Time.twoDigits (z.date t).2.2).toList ++
      'T' :: ((z.formatClock t).toList ++ (offsetText (z.offset t.toSecond)).toList))) := by
    simp only [formatRFC3339, String.toList_append, List.append_assoc]
    rfl
  rw [hclock, formatClock, Time.formatClock_toList]
  simp only [List.append_assoc, List.cons_append, List.append_nil]

/-- What the layout finds in the parts of a time that is written by it. -/
theorem readAll_rfc3339 {y mo d hr mi s : ℕ} {minutes : ℤ} (hy : 1000 ≤ y) (hy' : y ≤ 9999)
    (hmo : 1 ≤ mo ∧ mo ≤ 12) (hd : d < 100) (hhr : hr < 24) (hmi : mi < 60) (hs : s < 60)
    (hoffset : minutes.natAbs < 1440) :
    Instant.readAll Instant.rfc3339 ((toString y).toList ++ '-' :: ((Time.twoDigits mo).toList ++
      '-' :: ((Time.twoDigits d).toList ++ 'T' :: ((Time.twoDigits hr).toList ++
      ':' :: ((Time.twoDigits mi).toList ++ ':' :: ((Time.twoDigits s).toList ++
        (offsetText minutes).toList)))))) {} =
    some { year := y, month := mo, day := d, hour := hr, min := mi, sec := s,
           zoneOffset := minutes * 60 } := by
  have hmo' : mo < 100 := by omega
  have hhr' : hr < 100 := by omega
  have hmi' : mi < 100 := by omega
  have hs' : s < 100 := by omega
  have hsec : ¬ 60 ≤ s := Nat.not_le.mpr hs
  simp only [Instant.rfc3339, Instant.toSecond, Instant.toMinute, List.cons_append,
    List.nil_append, Instant.readAll, Time.read_year hy hy', Option.bind_eq_bind,
    Option.bind_some]
  simp [Instant.Chunk.read, Time.getnum_twoDigits, zoneOf_offsetText hoffset,
    fraction_offsetText, hmo, hmo', hd, hhr, hhr', hmi, hmi', hsec, hs']

/-- A reading that is written in a zone and read again is the start of the second it lies in. -/
theorem parse_formatRFC3339 {z : Zone} {t : Time} (h : (z.date t).1 ≤ 9999) :
    Instant.parse Instant.rfc3339 (z.formatRFC3339 t) =
      some (Time.toSecond t * Instant.second) := by
  obtain ⟨hmonth, hlow, hhigh⟩ := z.date_valid t
  have hvalid : ¬ ((z.date t).2.2 < 1 ∨
      Instant.daysIn (z.date t).2.1 (z.date t).1 < (z.date t).2.2) :=
    not_or.mpr ⟨Nat.not_lt.mpr hlow, Nat.not_lt.mpr hhigh⟩
  have hday : (z.date t).2.2 < 100 := by
    refine hhigh.trans_lt ?_
    unfold Instant.daysIn
    split_ifs <;> decide
  have hsec : Time.secondOfDay (z.wall t) < 86400 := Nat.mod_lt _ (by decide)
  have hread := readAll_rfc3339 (z.year_add_cycle t).2 h hmonth hday
    (Nat.div_lt_of_lt_mul hsec : Time.secondOfDay (z.wall t) / 3600 < 24)
    (Nat.mod_lt (Time.secondOfDay (z.wall t) / 60) (by decide : 60 > 0))
    (Nat.mod_lt (Time.secondOfDay (z.wall t)) (by decide : 60 > 0)) (z.lt_day t.toSecond)
  have hsum : ((Time.dayNumber (z.wall t) : ℤ) - 146097) * 86400 +
      (Time.secondOfDay (z.wall t) / 3600 : ℕ) * 3600 +
      (Time.secondOfDay (z.wall t) / 60 % 60 : ℕ) * 60 + (Time.secondOfDay (z.wall t) % 60 : ℕ) -
      z.offset t.toSecond * 60 = Time.toSecond t := by
    have hwall := z.toSecond_wall t
    unfold Time.dayNumber Time.secondOfDay
    unfold cycle at hwall
    omega
  rw [← formatRFC3339_toList] at hread
  rw [Instant.parse_of_readAll hread hvalid, daysOf_date, hsum, Int.natCast_zero, Int.add_zero]

end Zone

end NatsDemo.Go
