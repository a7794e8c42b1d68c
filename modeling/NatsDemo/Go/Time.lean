import Mathlib.Data.Int.Notation
import Mathlib.Data.Nat.Notation
import Mathlib.Tactic.SplitIfs

/-!
# Clock readings

A reading of the clock is the number of nanoseconds since the epoch, in UTC, and a zone tells what
its clocks show at a reading.
-/

namespace NatsDemo.Go

abbrev Time := ℕ

namespace Time

def second : ℕ := 1000000000

/-- At least two digits, as the layouts of `Format` pad them. -/
def twoDigits (n : ℕ) : String := if n < 10 then s!"0{n}" else s!"{n}"

/-- `t.Format("15:04:05")`. -/
def formatClock (t : Time) : String :=
  let s := t / second % 86400
  s!"{twoDigits (s / 3600)}:{twoDigits (s / 60 % 60)}:{twoDigits (s % 60)}"

/-- The day of a date, as year, month and day of the month.  The count starts on the
first of March of the year 0, so that a leap day ends its year; 719468 days lie between
that day and the epoch. -/
def date (t : Time) : ℕ × ℕ × ℕ :=
  let z := t / second / 86400 + 719468
  let era := z / 146097
  let dayOfEra := z % 146097
  let yearOfEra := (dayOfEra - dayOfEra / 1460 + dayOfEra / 36524 - dayOfEra / 146096) / 365
  let dayOfYear := dayOfEra - (365 * yearOfEra + yearOfEra / 4 - yearOfEra / 100)
  let m := (5 * dayOfYear + 2) / 153
  let day := dayOfYear - (153 * m + 2) / 5 + 1
  let month := if m < 10 then m + 3 else m - 9
  (yearOfEra + era * 400 + (if month ≤ 2 then 1 else 0), month, day)

/-- `t.UTC().Format(time.RFC3339)`. -/
def formatRFC3339 (t : Time) : String :=
  let (y, m, d) := date t
  s!"{y}-{twoDigits m}-{twoDigits d}T{formatClock t}Z"

/-- The second that a reading lies in. -/
def toSecond (t : Time) : ℕ := t / second

end Time

/-! ## Zones -/

/-- A zone is how many minutes its clocks are ahead of UTC, second by second. -/
structure Zone where
  offset : ℕ → ℤ
  lt_day : ∀ sec, (offset sec).natAbs < 1440

namespace Zone

def utc : Zone := ⟨fun _ => 0, fun _ => by decide⟩

/-- The seconds of 400 years, after which the calendar repeats itself. -/
def cycle : ℕ := 146097 * 86400

/-- What the clocks of a zone show, but 400 years ahead: in the west the epoch lies in 1969. -/
def wall (z : Zone) (t : Time) : Time :=
  (((t + cycle * Time.second : ℕ) : ℤ) + z.offset t.toSecond * 60 * Time.second).toNat

def date (z : Zone) (t : Time) : ℕ × ℕ × ℕ :=
  let (y, m, d) := Time.date (z.wall t)
  (y - 400, m, d)

/-- `Z07:00`. -/
def offsetText (minutes : ℤ) : String :=
  if minutes = 0 then "Z"
  else (if minutes < 0 then "-" else "+") ++ Time.twoDigits (minutes.natAbs / 60) ++ ":" ++
    Time.twoDigits (minutes.natAbs % 60)

/-- `t.Format("15:04:05")`, in the zone. -/
def formatClock (z : Zone) (t : Time) : String := Time.formatClock (z.wall t)

/-- `t.Format(time.RFC3339)`, in the zone. -/
def formatRFC3339 (z : Zone) (t : Time) : String :=
  let (y, m, d) := z.date t
  s!"{y}-{Time.twoDigits m}-{Time.twoDigits d}T{z.formatClock t}" ++ offsetText (z.offset t.toSecond)

end Zone

/-! ## The order of clock readings -/

namespace Time

/-- The second of the day that a clock shows. -/
def secondOfDay (t : Time) : ℕ := toSecond t % 86400

theorem twoDigits_toList {n : ℕ} (h : n < 100) :
    (twoDigits n).toList = [Nat.digitChar (n / 10), Nat.digitChar (n % 10)] := by
  have hdigit (d : ℕ) (hd : d < 10) : Nat.toDigits 10 d = [Nat.digitChar d] :=
    Nat.toDigits_of_lt_base hd
  rw [twoDigits]
  split_ifs with hn
  · have hdiv : n / 10 = 0 := Nat.div_eq_of_lt hn
    rw [hdiv, Nat.mod_eq_of_lt hn, String.toList_append, Nat.toString_eq_ofList_toDigits,
      hdigit n hn, String.toList_ofList]
    rfl
  · have hsplit : Nat.toDigits 10 n = Nat.toDigits 10 (n / 10) ++ [Nat.digitChar (n % 10)] :=
      Nat.toDigits_of_base_le (by decide) (by omega)
    rw [Nat.toString_eq_ofList_toDigits, hsplit, hdigit _ (by omega)]
    exact String.toList_ofList

theorem digitChar_lt_iff {m n : ℕ} (hm : m < 10) (hn : n < 10) :
    Nat.digitChar m < Nat.digitChar n ↔ m < n :=
  (by decide : ∀ m n : Fin 10, Nat.digitChar m < Nat.digitChar n ↔ m < n) ⟨m, hm⟩ ⟨n, hn⟩

theorem digitChar_eq_iff {m n : ℕ} (hm : m < 10) (hn : n < 10) :
    Nat.digitChar m = Nat.digitChar n ↔ m = n := by
  have h := (by decide : ∀ m n : Fin 10, Nat.digitChar m = Nat.digitChar n ↔ m = n) ⟨m, hm⟩ ⟨n, hn⟩
  simpa using h

/-- Numbers of two digits are compared as what they are, before what follows them. -/
theorem twoDigits_append_lt_iff {m n : ℕ} (hm : m < 100) (hn : n < 100) (x y : List Char) :
    (twoDigits m).toList ++ x < (twoDigits n).toList ++ y ↔ m < n ∨ m = n ∧ x < y := by
  have htens : m / 10 < 10 := by omega
  have htens' : n / 10 < 10 := by omega
  have hones : m % 10 < 10 := by omega
  have hones' : n % 10 < 10 := by omega
  rw [twoDigits_toList hm, twoDigits_toList hn]
  simp only [List.cons_append, List.nil_append, List.cons_lt_cons_iff, digitChar_lt_iff,
    digitChar_eq_iff, htens, htens', hones, hones']
  constructor
  · rintro (h | ⟨h, h' | ⟨h', hxy⟩⟩)
    · exact .inl (by omega)
    · exact .inl (by omega)
    · exact .inr ⟨by omega, hxy⟩
  · rintro (h | ⟨rfl, hxy⟩)
    · omega
    · exact .inr ⟨rfl, .inr ⟨rfl, hxy⟩⟩

theorem formatClock_toList (t : Time) : (formatClock t).toList =
    (twoDigits (secondOfDay t / 3600)).toList ++
      ':' :: ((twoDigits (secondOfDay t / 60 % 60)).toList ++
      ':' :: ((twoDigits (secondOfDay t % 60)).toList ++ [])) := by
  simp only [formatClock, String.toList_append, List.append_assoc, List.append_nil]
  rfl

/-- Clock readings are in the order of the seconds of the day. -/
theorem formatClock_lt_iff (s t : Time) :
    formatClock s < formatClock t ↔ secondOfDay s < secondOfDay t := by
  have hs : secondOfDay s < 86400 := Nat.mod_lt _ (by decide)
  have ht : secondOfDay t < 86400 := Nat.mod_lt _ (by decide)
  rw [String.lt_iff, formatClock_toList, formatClock_toList]
  rw [twoDigits_append_lt_iff (by omega) (by omega), List.cons_lt_cons_iff,
    twoDigits_append_lt_iff (by omega) (by omega), List.cons_lt_cons_iff,
    twoDigits_append_lt_iff (by omega) (by omega)]
  have hirr : ¬ (':' : Char) < ':' := by decide
  have hnil : ¬ ([] : List Char) < [] := by decide
  simp only [hirr, hnil, false_or, true_and, and_false, or_false]
  omega

theorem formatClock_eq_iff (s t : Time) :
    formatClock s = formatClock t ↔ secondOfDay s = secondOfDay t := by
  constructor
  · intro h
    have hst : ¬ secondOfDay s < secondOfDay t := by
      rw [← formatClock_lt_iff, h, String.lt_iff]
      exact List.lt_irrefl _
    have hts : ¬ secondOfDay t < secondOfDay s := by
      rw [← formatClock_lt_iff, h, String.lt_iff]
      exact List.lt_irrefl _
    omega
  · intro h
    rw [← String.toList_inj, formatClock_toList, formatClock_toList, h]

end Time

end NatsDemo.Go
