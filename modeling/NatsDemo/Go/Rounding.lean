import NatsDemo.Go.Number
import Mathlib.Data.Nat.Log
import Mathlib.Tactic.Linarith

/-!
# Rounding twice is rounding once

A `float64` that is written out and read back is the same one.  What matters is that a
rounded number has at most 53 binary digits: then its own unit in the last place divides
it, and nothing is left to round.
-/

namespace NatsDemo.Go

/-- The exponent is that of the leading digit. -/
theorem binaryExponent_spec {q : ℚ} (hq : 0 < q) :
    (2 : ℚ) ^ binaryExponent q ≤ q ∧ q < (2 : ℚ) ^ (binaryExponent q + 1) := by
  have hden : (0 : ℚ) < q.den := by exact_mod_cast q.den_pos
  have hnum : q.num.natAbs ≠ 0 := Int.natAbs_ne_zero.mpr (Rat.num_ne_zero.mpr hq.ne')
  have hcast : (q.num.natAbs : ℚ) = q * q.den := by
    have habs : (q.num.natAbs : ℤ) = q.num := Int.natAbs_of_nonneg (Rat.num_pos.mpr hq).le
    rw [Rat.mul_den_eq_num q, ← Int.cast_natCast, habs]
  -- the powers of two about the numerator and the denominator
  have hnum₁ : (2 : ℚ) ^ (Nat.log2 q.num.natAbs : ℤ) ≤ q * q.den := by
    rw [← hcast, zpow_natCast]
    exact_mod_cast Nat.log2_self_le hnum
  have hnum₂ : q * q.den < (2 : ℚ) ^ ((Nat.log2 q.num.natAbs : ℤ) + 1) := by
    rw [← hcast]
    exact_mod_cast Nat.lt_log2_self (n := q.num.natAbs)
  have hden₁ : (2 : ℚ) ^ (Nat.log2 q.den : ℤ) ≤ q.den := by
    rw [zpow_natCast]
    exact_mod_cast Nat.log2_self_le q.den_pos.ne'
  have hden₂ : (q.den : ℚ) < (2 : ℚ) ^ ((Nat.log2 q.den : ℤ) + 1) := by
    exact_mod_cast Nat.lt_log2_self (n := q.den)
  set a : ℤ := (Nat.log2 q.num.natAbs : ℤ)
  set b : ℤ := (Nat.log2 q.den : ℤ)
  have hlow : (2 : ℚ) ^ (a - b - 1) ≤ q := by
    have hpow : (2 : ℚ) ^ (a - b - 1) * (2 : ℚ) ^ (b + 1) = (2 : ℚ) ^ a := by
      rw [← zpow_add₀ two_ne_zero]
      congr 1
      omega
    by_contra hlt
    have hprod : q * q.den < (2 : ℚ) ^ (a - b - 1) * (2 : ℚ) ^ (b + 1) :=
      mul_lt_mul'' (lt_of_not_ge hlt) hden₂ hq.le hden.le
    rw [hpow] at hprod
    exact absurd hprod (not_lt.mpr hnum₁)
  have hhigh : q < (2 : ℚ) ^ (a - b + 1) := by
    have hpow : (2 : ℚ) ^ (a - b + 1) * (2 : ℚ) ^ b = (2 : ℚ) ^ (a + 1) := by
      rw [← zpow_add₀ two_ne_zero]
      congr 1
      omega
    by_contra hge
    have hprod : (2 : ℚ) ^ (a - b + 1) * (2 : ℚ) ^ b ≤ q * q.den :=
      mul_le_mul (not_lt.mp hge) hden₁ (zpow_pos two_pos b).le hq.le
    rw [hpow] at hprod
    exact absurd hprod (not_le.mpr hnum₂)
  rw [binaryExponent]
  split_ifs with h
  · exact ⟨h, hhigh⟩
  · refine ⟨hlow, ?_⟩
    rw [sub_add_cancel]
    exact lt_of_not_ge h

theorem binaryExponent_lt {q : ℚ} (hq : 0 < q) {n : ℤ} (h : q < (2 : ℚ) ^ n) :
    binaryExponent q < n :=
  (zpow_lt_zpow_iff_right₀ one_lt_two).mp ((binaryExponent_spec hq).1.trans_lt h)

@[simp] theorem roundHalfEven_intCast (k : ℤ) : roundHalfEven k = k := by
  simp [roundHalfEven]

/-- A number of at most 53 digits rounds to one of at most 53 digits, or to `2 ^ 53`. -/
theorem abs_roundHalfEven_le {x : ℚ} (hx : |x| < 2 ^ 53) : |roundHalfEven x| ≤ 2 ^ 53 := by
  obtain ⟨hlow, hhigh⟩ := abs_lt.mp hx
  have hfloor₁ : -2 ^ 53 ≤ ⌊x⌋ := Int.le_floor.mpr (by push_cast; exact hlow.le)
  have hfloor₂ : ⌊x⌋ < 2 ^ 53 := Int.floor_lt.mpr (by push_cast; exact hhigh)
  rw [abs_le]
  simp only [roundHalfEven]
  split_ifs <;> omega

/-- The numbers of 53 binary digits that a `float64` can be. -/
def IsFloat64 (v : ℚ) : Prop :=
  ∃ k e : ℤ, v = k * (2 : ℚ) ^ e ∧ |k| < 2 ^ 53 ∧ -1074 ≤ e ∧ |v| < 2 ^ 1024

theorem isFloat64_of_round {q v : ℚ} (h : roundToFloat64 q = some v) : IsFloat64 v := by
  simp only [roundToFloat64] at h
  split_ifs at h with hzero hrange
  · cases h
    exact ⟨0, 0, by simp, by simp, by simp, by simp⟩
  obtain rfl := Option.some_inj.mp h
  set e := max (binaryExponent |q| - 52) (-1074) with he
  set k := roundHalfEven (q / (2 : ℚ) ^ e)
  have hpow : (0 : ℚ) < (2 : ℚ) ^ e := zpow_pos two_pos e
  have hdigits : |q / (2 : ℚ) ^ e| < 2 ^ 53 := by
    rw [abs_div, abs_of_pos hpow, div_lt_iff₀ hpow]
    calc |q| < (2 : ℚ) ^ (binaryExponent |q| + 1) := (binaryExponent_spec (abs_pos.mpr hzero)).2
      _ ≤ (2 : ℚ) ^ (53 + e) := (zpow_le_zpow_iff_right₀ one_lt_two).mpr (by omega)
      _ = 2 ^ 53 * (2 : ℚ) ^ e := by rw [zpow_add₀ two_ne_zero]; norm_cast
  have hk : |k| ≤ 2 ^ 53 := abs_roundHalfEven_le hdigits
  have hmin : -1074 ≤ e := le_max_right _ _
  rcases lt_or_eq_of_le hk with hlt | heq
  · exact ⟨k, e, rfl, hlt, hmin, hrange⟩
  · -- one digit too many, but the last one is a zero
    have hsucc : (2 : ℚ) ^ (e + 1) = (2 : ℚ) ^ e * 2 := zpow_add_one₀ two_ne_zero e
    rcases abs_cases k with ⟨habs, -⟩ | ⟨habs, -⟩
    · refine ⟨2 ^ 52, e + 1, ?_, by norm_num, by omega, hrange⟩
      have hval : k = 2 ^ 53 := habs.symm.trans heq
      rw [hval, hsucc]
      push_cast
      ring
    · refine ⟨-2 ^ 52, e + 1, ?_, by norm_num, by omega, hrange⟩
      have hval : k = -2 ^ 53 := by omega
      rw [hval, hsucc]
      push_cast
      ring

theorem IsFloat64.round {v : ℚ} (h : IsFloat64 v) : roundToFloat64 v = some v := by
  obtain ⟨k, e, hv, hk, hmin, hrange⟩ := h
  by_cases hzero : v = 0
  · simp [roundToFloat64, hzero]
  set e' := max (binaryExponent |v| - 52) (-1074) with he'
  have hlt : |v| < (2 : ℚ) ^ (53 + e) := by
    have hpow : (0 : ℚ) < (2 : ℚ) ^ e := zpow_pos two_pos e
    have hk' : |(k : ℚ)| < 2 ^ 53 := by exact_mod_cast hk
    calc |v| = |(k : ℚ)| * (2 : ℚ) ^ e := by rw [hv, abs_mul, abs_of_pos hpow]
      _ < 2 ^ 53 * (2 : ℚ) ^ e := mul_lt_mul_of_pos_right hk' hpow
      _ = (2 : ℚ) ^ (53 + e) := by rw [zpow_add₀ two_ne_zero]; norm_cast
  have hle : e' ≤ e := by
    have hexp := binaryExponent_lt (abs_pos.mpr hzero) hlt
    omega
  have hne : (2 : ℚ) ^ e' ≠ 0 := zpow_ne_zero e' two_ne_zero
  -- the unit of the result divides the number
  have hwhole : v / (2 : ℚ) ^ e' = ((k * 2 ^ (e - e').toNat : ℤ) : ℚ) := by
    have hsub : ((e - e').toNat : ℤ) = e - e' := Int.toNat_of_nonneg (by omega)
    rw [hv, div_eq_iff hne]
    push_cast
    rw [mul_assoc, ← zpow_natCast, hsub, ← zpow_add₀ two_ne_zero, sub_add_cancel]
  have hback : (roundHalfEven (v / (2 : ℚ) ^ e') : ℚ) * (2 : ℚ) ^ e' = v := by
    rw [hwhole, roundHalfEven_intCast, ← hwhole]
    exact div_mul_cancel₀ v hne
  simp only [roundToFloat64, if_neg hzero, ← he', hback, if_pos hrange]

/-- What was rounded once stays as it is. -/
theorem round_round {q v : ℚ} (h : roundToFloat64 q = some v) : roundToFloat64 v = some v :=
  (isFloat64_of_round h).round

end NatsDemo.Go
