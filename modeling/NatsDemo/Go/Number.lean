import Mathlib.Data.Rat.Floor
import Mathlib.Algebra.Order.Round

/-!
# Numbers as Go computes with them

A number decoded into an `any` is a `float64`; no infinity and no NaN can come out of
JSON, so a `float64` is the rational it stands for.  The payload knobs of a job are
read with the conversion `int(val)`, which truncates; what it gives outside the range
of `int` is up to the platform.
-/

namespace NatsDemo.Go

/-- The platforms differ in the conversion of a float that no `int` holds. -/
inductive Platform where
  | amd64
  | arm64
  deriving DecidableEq

def minInt : ℤ := -2 ^ 63
def maxInt : ℤ := 2 ^ 63 - 1

/-- Drop the fraction. -/
def truncate (q : ℚ) : ℤ := if 0 ≤ q then ⌊q⌋ else ⌈q⌉

/-- The conversion `int(val)` of a `float64`. -/
def intOfFloat (p : Platform) (q : ℚ) : ℤ :=
  let n := truncate q
  if minInt ≤ n ∧ n ≤ maxInt then n
  else match p with
    | .amd64 => minInt
    | .arm64 => if 0 < n then maxInt else minInt

theorem intOfFloat_intCast (p : Platform) {n : ℤ} (hmin : minInt ≤ n) (hmax : n ≤ maxInt) :
    intOfFloat p n = n := by
  have h : truncate (n : ℚ) = n := by simp [truncate]
  simp [intOfFloat, h, hmin, hmax]

/-- `%d` writes different numbers differently. -/
theorem toString_nat_injective : Function.Injective (toString : ℕ → String) := by
  intro m n h
  have hdigits : Nat.toDigits 10 m = Nat.toDigits 10 n := by
    simpa only [Nat.toString_eq_ofList_toDigits, String.ofList_inj] using h
  calc m = Nat.ofDigitChars 10 (Nat.toDigits 10 m) 0 := Nat.ofDigitChars_ten_toDigits.symm
    _ = Nat.ofDigitChars 10 (Nat.toDigits 10 n) 0 := by rw [hdigits]
    _ = n := Nat.ofDigitChars_ten_toDigits

/-- The last dash of a text tells where the rest without dashes starts. -/
theorem append_dash_inj {xs ys ds es : List Char} (hds : '-' ∉ ds) (hes : '-' ∉ es)
    (h : xs ++ '-' :: ds = ys ++ '-' :: es) : xs = ys ∧ ds = es := by
  have key (as bs zs : List Char) (hbs : '-' ∉ bs) (h : '-' :: bs = zs ++ '-' :: as) : zs = [] := by
    cases zs with
    | nil => rfl
    | cons z zs =>
      have hbs' : bs = zs ++ '-' :: as := (List.cons.inj h).2
      exact absurd (by simp [hbs']) hbs
  rcases List.append_eq_append_iff.mp h with ⟨zs, hys, hzs⟩ | ⟨zs, hxs, hzs⟩
  · obtain rfl := key es ds zs hds hzs
    simpa [eq_comm] using And.intro hys hzs
  · obtain rfl := key ds es zs hes hzs
    simpa [eq_comm] using And.intro hxs hzs

theorem dash_not_mem_toDigits (n : ℕ) : '-' ∉ Nat.toDigits 10 n := by
  intro h
  have hdigit := Nat.isDigit_of_mem_toDigits (by decide) (by decide) h
  exact absurd hdigit (by decide)

/-- `%s-%d` writes different pairs differently. -/
theorem dash_toString_inj {x y : String} {m n : ℕ}
    (h : x ++ "-" ++ toString m = y ++ "-" ++ toString n) : x = y ∧ m = n := by
  have hlist : x.toList ++ '-' :: Nat.toDigits 10 m = y.toList ++ '-' :: Nat.toDigits 10 n := by
    simpa [Nat.toString_eq_ofList_toDigits] using congrArg String.toList h
  obtain ⟨hxy, hmn⟩ := append_dash_inj (dash_not_mem_toDigits m) (dash_not_mem_toDigits n) hlist
  refine ⟨String.toList_inj.mp hxy, toString_nat_injective ?_⟩
  rw [Nat.toString_eq_ofList_toDigits, Nat.toString_eq_ofList_toDigits, hmn]

/-! ## Rounding to a float64 -/

/-- The exponent of the leading binary digit of a positive rational. -/
def binaryExponent (q : ℚ) : ℤ :=
  let e := (Nat.log2 q.num.natAbs : ℤ) - Nat.log2 q.den
  if (2 : ℚ) ^ e ≤ q then e else e - 1

/-- The nearest integer, the even one of two. -/
def roundHalfEven (q : ℚ) : ℤ :=
  let r := q - ⌊q⌋
  if r < 1 / 2 then ⌊q⌋
  else if 1 / 2 < r then ⌊q⌋ + 1
  else if ⌊q⌋ % 2 = 0 then ⌊q⌋ else ⌊q⌋ + 1

/-- The `float64` nearest to a rational: 53 binary digits, no finer than the smallest
subnormal, and none at all from `2 ^ 1024` on. -/
def roundToFloat64 (q : ℚ) : Option ℚ :=
  if q = 0 then some 0
  else
    let ulp := (2 : ℚ) ^ max (binaryExponent |q| - 52) (-1074)
    let v := roundHalfEven (q / ulp) * ulp
    if |v| < 2 ^ 1024 then some v else none

end NatsDemo.Go
