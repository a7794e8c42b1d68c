import Mathlib.Data.Int.Notation
import Mathlib.Data.Nat.Notation

/-!
# Reading times

`time.Parse` for layouts of a date, a time of the day and maybe a zone.  Fractions of a
second are read after the seconds whether or not the layout has them; a layout without a
zone is in UTC.
-/

namespace NatsDemo.Go

/-- Nanoseconds since the epoch, in UTC; an instant may lie before it. -/
abbrev Instant := ℤ

namespace Instant

def second : Instant := 1000000000

/-- The zero `time.Time`: the first instant of the year 1. -/
def zero : Instant := -62135596800 * second

/-! ## Layouts -/

inductive Chunk where
  | lit (c : Char)
  | longYear
  | zeroMonth
  | zeroDay
  | hour
  | zeroMinute
  | zeroSecond
  | fracSecond9
  | iso8601ColonTZ
  deriving DecidableEq

/-- `2006-01-02T15:04`. -/
def toMinute : List Chunk :=
  [.longYear, .lit '-', .zeroMonth, .lit '-', .zeroDay, .lit 'T', .hour, .lit ':', .zeroMinute]

/-- `2006-01-02T15:04:05`. -/
def toSecond : List Chunk := toMinute ++ [.lit ':', .zeroSecond]

/-- `2006-01-02T15:04:05Z07:00`. -/
def rfc3339 : List Chunk := toSecond ++ [.iso8601ColonTZ]

/-- `2006-01-02T15:04:05.999999999Z07:00`. -/
def rfc3339Nano : List Chunk := toSecond ++ [.fracSecond9, .iso8601ColonTZ]

/-! ## Numbers -/

def digitOf (c : Char) : ℕ := c.toNat - 48

/-- The number that some digits write. -/
def atoi (ds : List Char) : ℕ := ds.foldl (fun n c => 10 * n + digitOf c) 0

/-- `getnum`: two digits, or one where the width is not fixed. -/
def getnum (fixed : Bool) : List Char → Option (ℕ × List Char)
  | c :: d :: rest =>
    if !c.isDigit then none
    else if d.isDigit then some (atoi [c, d], rest)
    else if fixed then none
    else some (digitOf c, d :: rest)
  | [c] => if c.isDigit && !fixed then some (digitOf c, []) else none
  | [] => none

/-- A fraction of a second, cut to nanoseconds, where there is one. -/
def fraction : List Char → ℕ × List Char
  | c :: rest =>
    let ds := rest.takeWhile Char.isDigit
    if (c = '.' ∨ c = ',') ∧ ds ≠ [] then
      (atoi ((ds ++ List.replicate 9 '0').take 9), rest.dropWhile Char.isDigit)
    else (0, c :: rest)
  | [] => (0, [])

/-! ## Values -/

structure Fields where
  year : ℕ := 0
  month : ℕ := 1
  day : ℕ := 1
  hour : ℕ := 0
  min : ℕ := 0
  sec : ℕ := 0
  nsec : ℕ := 0
  zoneOffset : ℤ := 0

/-- The zone of RFC 3339, as seconds to the east; hours go up to 24 and minutes up to 60. -/
def zoneOf : List Char → Option (ℤ × List Char)
  | 'Z' :: rest => some (0, rest)
  | sign :: h :: h' :: ':' :: m :: m' :: rest => do
    let (hr, _) ← getnum true [h, h']
    let (mm, _) ← getnum true [m, m']
    let offset : ℤ := (hr * 60 + mm) * 60
    if 24 < hr ∨ 60 < mm then none
    else if sign = '+' then some (offset, rest)
    else if sign = '-' then some (-offset, rest)
    else none
  | _ => none

/-- One part of a layout; `next` is the part that follows it. -/
def Chunk.read (chunk : Chunk) (next : Option Chunk) (value : List Char) (f : Fields) :
    Option (Fields × List Char) :=
  match chunk with
  | .lit c => match value with
    | c' :: rest => if c' = c then some (f, rest) else none
    | [] => none
  | .longYear =>
    if 4 ≤ value.length ∧ (value.take 4).all Char.isDigit then
      some ({ f with year := atoi (value.take 4) }, value.drop 4)
    else none
  | .zeroMonth => do
    let (n, rest) ← getnum true value
    if 1 ≤ n ∧ n ≤ 12 then some ({ f with month := n }, rest) else none
  | .zeroDay => do
    let (n, rest) ← getnum true value
    some ({ f with day := n }, rest)
  | .hour => do
    let (n, rest) ← getnum false value
    if n < 24 then some ({ f with hour := n }, rest) else none
  | .zeroMinute => do
    let (n, rest) ← getnum true value
    if n < 60 then some ({ f with min := n }, rest) else none
  | .zeroSecond => do
    let (n, rest) ← getnum true value
    if 60 ≤ n then none
    -- a fraction that the layout has is left to it
    else if next = some .fracSecond9 then some ({ f with sec := n }, rest)
    else some ({ f with sec := n, nsec := (fraction rest).1 }, (fraction rest).2)
  | .fracSecond9 => some ({ f with nsec := (fraction value).1 }, (fraction value).2)
  | .iso8601ColonTZ => do
    let (offset, rest) ← zoneOf value
    some ({ f with zoneOffset := offset }, rest)

/-- The parts in order; nothing may be left over. -/
def readAll : List Chunk → List Char → Fields → Option Fields
  | [], value, f => if value = [] then some f else none
  | chunk :: layout, value, f => do
    let (f, rest) ← chunk.read layout.head? value f
    readAll layout rest f

/-! ## Dates -/

def isLeap (year : ℕ) : Bool := year % 4 = 0 && (year % 100 != 0 || year % 400 = 0)

def daysIn (month year : ℕ) : ℕ :=
  if month = 2 then (if isLeap year then 29 else 28)
  else if month ∈ [4, 6, 9, 11] then 30 else 31

/-- The days since the epoch, from a count that starts on the first of March of the year 0. -/
def daysOf (year month day : ℕ) : ℤ :=
  let y : ℤ := if month ≤ 2 then year - 1 else year
  let dayOfYear : ℤ := (153 * ((month + 9) % 12) + 2) / 5 + day - 1
  y * 365 + y / 4 - y / 100 + y / 400 + dayOfYear - 719468

/-- `time.Parse`. -/
def parse (layout : List Chunk) (value : String) : Option Instant := do
  let f ← readAll layout value.toList {}
  if f.day < 1 ∨ daysIn f.month f.year < f.day then none
  else
    let s := daysOf f.year f.month f.day * 86400 + f.hour * 3600 + f.min * 60 + f.sec
    some ((s - f.zoneOffset) * second + f.nsec)

example : parse rfc3339 "2024-02-29T12:00:00.5+01:00" = some 1709204400500000000 := by
  decide +kernel

example : parse toMinute "0001-01-01T00:00" = some zero := by decide +kernel

end Instant

end NatsDemo.Go
