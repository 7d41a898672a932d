import ChartScript.Decimal.Shortest
import ChartScript.Proofs.Value.Mantissa

/-!
# Rounding fractions

A fraction is rounded to a number of a format as the rational number it stands for: how it is written
makes no difference (`BinaryFormat.round_congr`), and a number of the format is rounded to itself
(`BinaryFormat.round_of_value`). What is rounded to a number that is not zero lies between half the
least number and the power of two beyond the greatest (`BinaryFormat.value_bounds_of_round`).
-/

set_option autoImplicit false

namespace ChartScript

/-! ## Values -/

theorem zpow_eq_toNat (b : ℚ) (e : ℤ) : b ^ e = b ^ e.toNat / b ^ (-e).toNat := by
  rcases le_total 0 e with he | he
  · obtain ⟨n, rfl⟩ := Int.eq_ofNat_of_zero_le he
    simp
  · obtain ⟨n, hn⟩ := Int.eq_ofNat_of_zero_le (Int.neg_nonneg.2 he)
    obtain rfl : e = -(n : ℤ) := by omega
    simp

/-- The rational number a dyadic number is. -/
def Dyadic.value (d : Dyadic) : ℚ := d.mantissa * 2 ^ d.exponent

theorem Dyadic.value_eq_zero_iff (d : Dyadic) : d.value = 0 ↔ d.mantissa = 0 := by
  have hpow : (2 : ℚ) ^ d.exponent ≠ 0 := zpow_ne_zero _ two_ne_zero
  rw [value, mul_eq_zero, or_iff_left hpow, Nat.cast_eq_zero]

theorem Dyadic.log_value {d : Dyadic} (h : d.mantissa ≠ 0) :
    Int.log 2 d.value = d.mantissa.log2 + d.exponent := by
  have hpos : 0 < d.value := dyadic_pos (Nat.pos_of_ne_zero h) _
  apply le_antisymm
  · rw [← Int.lt_add_one_iff, ← Int.lt_zpow_iff_log_lt one_lt_two hpos, Nat.cast_two, value]
    have hlt : (d.mantissa : ℚ) < 2 ^ ((d.mantissa.log2 + 1 : ℕ) : ℤ) := by
      exact_mod_cast Nat.lt_log2_self (n := d.mantissa)
    calc (d.mantissa : ℚ) * 2 ^ d.exponent
        < 2 ^ ((d.mantissa.log2 + 1 : ℕ) : ℤ) * 2 ^ d.exponent := by gcongr
      _ = 2 ^ (d.mantissa.log2 + d.exponent + 1) := by
        rw [← zpow_add₀ two_ne_zero]
        congr 1
        omega
  · rw [← Int.zpow_le_iff_le_log one_lt_two hpos, Nat.cast_two, value, zpow_add₀ two_ne_zero]
    have hle : (2 : ℚ) ^ (d.mantissa.log2 : ℤ) ≤ d.mantissa := by
      exact_mod_cast Nat.log2_self_le h
    gcongr

/-- The rational number a decimal is. -/
def Decimal.value (x : Decimal) : ℚ := x.coefficient * 10 ^ x.exponent

namespace Fraction

/-- The rational number a fraction stands for. -/
def value (q : Fraction) : ℚ := q.num / q.den

theorem value_scaled (n base : ℕ) (e : ℤ) :
    (scaled n base e).value = n * (base : ℚ) ^ e := by
  rw [value, scaled, zpow_eq_toNat]
  push_cast [Nat.pow_eq]
  rw [mul_div_assoc]

theorem den_scaled_pos (n : ℕ) {base : ℕ} (hbase : 0 < base) (e : ℤ) :
    0 < (scaled n base e).den := Nat.pow_pos hbase

variable {q r : Fraction} (hq : 0 < q.den) (hr : 0 < r.den)

include hq

theorem value_eq_zero_iff : q.value = 0 ↔ q.num = 0 := by
  have hne : (q.den : ℚ) ≠ 0 := by exact_mod_cast hq.ne'
  rw [value, div_eq_zero_iff, or_iff_left hne, Nat.cast_eq_zero]

theorem value_pos (hnum : q.num ≠ 0) : 0 < q.value := by
  have hnum' : (0 : ℚ) < q.num := by exact_mod_cast Nat.pos_of_ne_zero hnum
  have hden : (0 : ℚ) < q.den := by exact_mod_cast hq
  exact div_pos hnum' hden

/-- A fraction with its denominator and its numerator moved by a power of two. -/
theorem value_moved (e : ℤ) :
    (⟨q.num * Nat.pow 2 (-e).toNat, q.den * Nat.pow 2 e.toNat⟩ : Fraction).value =
      q.value / 2 ^ e := by
  have hden : (q.den : ℚ) ≠ 0 := by exact_mod_cast hq.ne'
  rw [value, value, zpow_eq_toNat]
  push_cast [Nat.pow_eq]
  field_simp

include hr

theorem value_eq_iff : q.value = r.value ↔ q.num * r.den = r.num * q.den := by
  have hden : (q.den : ℚ) ≠ 0 := by exact_mod_cast hq.ne'
  have hden' : (r.den : ℚ) ≠ 0 := by exact_mod_cast hr.ne'
  rw [value, value, div_eq_div_iff hden hden']
  exact_mod_cast Iff.rfl

theorem nearest_congr (h : q.value = r.value) : q.nearest = r.nearest := by
  rw [value_eq_iff hq hr] at h
  calc q.nearest = nearest ⟨q.num * r.den, q.den * r.den⟩ := (nearest_scale _ _ hr).symm
    _ = nearest ⟨r.num * q.den, r.den * q.den⟩ := by rw [h, Nat.mul_comm q.den]
    _ = r.nearest := nearest_scale _ _ hq

omit hr

/-- What is not rounded down to zero is at least a half. -/
theorem half_le_of_nearest (h : q.nearest ≠ 0) : 1 / 2 ≤ q.value := by
  have hle : q.den ≤ 2 * q.num := by
    by_contra hlt
    have hdown : q.num / q.den = 0 := Nat.div_eq_of_lt (by omega)
    have hrest : q.num % q.den = q.num := Nat.mod_eq_of_lt (by omega)
    rw [nearest, hdown, hrest] at h
    exact h (if_pos (by omega))
  have hden : (0 : ℚ) < q.den := by exact_mod_cast hq
  rw [value, div_le_div_iff₀ two_pos hden, one_mul, mul_comm]
  exact_mod_cast hle

/-- The least exponent by which a power of two is no greater, read off the lengths of numerator and
denominator, is the logarithm of the value. -/
theorem log2_eq (hnum : q.num ≠ 0) : q.log2 = Int.log 2 q.value := by
  have hpos := value_pos hq hnum
  have hnum' : (0 : ℚ) < q.num := by exact_mod_cast Nat.pos_of_ne_zero hnum
  have hden : (0 : ℚ) < q.den := by exact_mod_cast hq
  have hle : ∀ e : ℤ, q.den * Nat.pow 2 e.toNat ≤ q.num * Nat.pow 2 (-e).toNat ↔
      e ≤ Int.log 2 q.value := by
    intro e
    rw [← Int.zpow_le_iff_le_log one_lt_two hpos, Nat.cast_two, zpow_eq_toNat, value,
      div_le_div_iff₀ (by positivity) hden, mul_comm]
    exact_mod_cast Iff.rfl
  set guess : ℤ := (Nat.log2 q.num : ℤ) - Nat.log2 q.den with hguess
  have hlow : guess - 1 ≤ Int.log 2 q.value := by
    rw [← Int.zpow_le_iff_le_log one_lt_two hpos, Nat.cast_two, value, le_div_iff₀ hden]
    have hle' : (2 : ℚ) ^ (q.num.log2 : ℤ) ≤ q.num := by exact_mod_cast Nat.log2_self_le hnum
    have hlt : (q.den : ℚ) ≤ 2 ^ ((q.den.log2 + 1 : ℕ) : ℤ) := by
      exact_mod_cast (Nat.lt_log2_self (n := q.den)).le
    calc (2 : ℚ) ^ (guess - 1) * q.den ≤ 2 ^ (guess - 1) * 2 ^ ((q.den.log2 + 1 : ℕ) : ℤ) := by gcongr
      _ = 2 ^ (q.num.log2 : ℤ) := by
        rw [← zpow_add₀ two_ne_zero]
        congr 1
        omega
      _ ≤ q.num := hle'
  have hhigh : Int.log 2 q.value < guess + 1 := by
    rw [← Int.lt_zpow_iff_log_lt one_lt_two hpos, Nat.cast_two, value, div_lt_iff₀ hden]
    have hlt : (q.num : ℚ) < 2 ^ ((q.num.log2 + 1 : ℕ) : ℤ) := by
      exact_mod_cast Nat.lt_log2_self (n := q.num)
    have hle' : (2 : ℚ) ^ (q.den.log2 : ℤ) ≤ q.den := by exact_mod_cast Nat.log2_self_le hq.ne'
    calc (q.num : ℚ) < 2 ^ ((q.num.log2 + 1 : ℕ) : ℤ) := hlt
      _ = 2 ^ (guess + 1) * 2 ^ (q.den.log2 : ℤ) := by
        rw [← zpow_add₀ two_ne_zero]
        congr 1
        omega
      _ ≤ 2 ^ (guess + 1) * q.den := by gcongr
  rw [log2, ← hguess]
  simp only [hle]
  split <;> omega

end Fraction

/-! ## Numbers of a format -/

namespace BinaryFormat

variable {f : BinaryFormat}

/-- A number of a format: its mantissa is short enough, and as long as can be unless the exponent is
the least. -/
structure IsNumber (f : BinaryFormat) (d : Dyadic) : Prop where
  short : d.mantissa < 2 ^ f.precision
  low : f.minExponent ≤ d.exponent
  full : f.leading ≤ d.mantissa ∨ d.exponent = f.minExponent

section Round

variable {q r : Fraction} (hq : 0 < q.den)

include hq

/-- **Rounding is a matter of the value alone.** -/
theorem round_congr (hr : 0 < r.den) (h : q.value = r.value) : f.round q = f.round r := by
  have hzero : q.num = 0 ↔ r.num = 0 := by
    rw [← Fraction.value_eq_zero_iff hq, h, Fraction.value_eq_zero_iff hr]
  by_cases hnum : q.num = 0
  · rw [round, round, if_pos hnum, if_pos (hzero.1 hnum)]
  · have hnum' : ¬ r.num = 0 := mt hzero.2 hnum
    have hlog : q.log2 = r.log2 := by
      rw [Fraction.log2_eq hq hnum, h, Fraction.log2_eq hr hnum']
    have hnearest : ∀ e : ℤ,
        Fraction.nearest ⟨q.num * Nat.pow 2 (-e).toNat, q.den * Nat.pow 2 e.toNat⟩ =
          Fraction.nearest ⟨r.num * Nat.pow 2 (-e).toNat, r.den * Nat.pow 2 e.toNat⟩ := by
      intro e
      have hpow : 0 < Nat.pow 2 e.toNat := Nat.two_pow_pos _
      refine Fraction.nearest_congr (Nat.mul_pos hq hpow) (Nat.mul_pos hr hpow) ?_
      rw [Fraction.value_moved hq, Fraction.value_moved hr, h]
    rw [round, round, if_neg hnum, if_neg hnum', hlog]
    simp only [hnearest]

/-- **A number of the format is rounded to itself.** -/
theorem round_of_value {d : Dyadic} (hf : 0 < f.precision) (hd : f.IsNumber d)
    (hvalue : q.value = d.value) : f.round q = d := by
  obtain ⟨mantissa, exponent⟩ := d
  obtain ⟨hshort, hlow, hfull⟩ := hd
  dsimp only at hshort hlow hfull
  have hleading : f.leading = 2 ^ (f.precision - 1) := rfl
  have hzero : q.num = 0 ↔ mantissa = 0 := by
    rw [← Fraction.value_eq_zero_iff hq, hvalue, Dyadic.value_eq_zero_iff]
  by_cases hmantissa : mantissa = 0
  · have hexponent : exponent = f.minExponent := by
      refine hfull.resolve_left fun hle => ?_
      have hpos : 0 < 2 ^ (f.precision - 1) := Nat.two_pow_pos _
      omega
    rw [round, if_pos (hzero.2 hmantissa), hmantissa, hexponent]
  · have hnum : ¬ q.num = 0 := mt hzero.1 hmantissa
    have hlog : q.log2 = mantissa.log2 + exponent := by
      rw [Fraction.log2_eq hq hnum, hvalue, Dyadic.log_value hmantissa]
    have hlast : max (q.log2 - (f.precision - 1)) f.minExponent = exponent := by
      have hlt := (Nat.log2_lt hmantissa).2 hshort
      rcases hfull with hle | heq
      · have hge := (Nat.le_log2 hmantissa).2 (hleading ▸ hle)
        omega
      · omega
    have hnearest : Fraction.nearest ⟨q.num * Nat.pow 2 (-exponent).toNat,
        q.den * Nat.pow 2 exponent.toNat⟩ = mantissa := by
      have hpow : 0 < Nat.pow 2 exponent.toNat := Nat.two_pow_pos _
      have hone : Fraction.nearest ⟨mantissa * 1, 1⟩ = mantissa := Fraction.nearest_mul _ one_pos
      rw [← hone]
      refine Fraction.nearest_congr (Nat.mul_pos hq hpow) one_pos ?_
      rw [Fraction.value_moved hq, hvalue, Dyadic.value, Fraction.value]
      have hne : (2 : ℚ) ^ exponent ≠ 0 := zpow_ne_zero _ two_ne_zero
      field_simp
      simp
    rw [round, if_neg hnum, hlast]
    dsimp only
    rw [hnearest]
    exact if_neg hshort.ne

/-- What is rounded to a number other than zero is neither too small nor too great. -/
theorem value_bounds_of_round {d : Dyadic} (hround : f.round q = d) (hd : d.mantissa ≠ 0) :
    2 ^ (f.minExponent - 1) ≤ q.value ∧ q.value < 2 ^ (d.exponent + f.precision) := by
  by_cases hnum : q.num = 0
  · rw [round, if_pos hnum] at hround
    exact absurd (by rw [← hround]) hd
  rw [round, if_neg hnum] at hround
  dsimp only at hround
  -- The exponent before a carry, and the mantissa with it.
  set e := max (q.log2 - (f.precision - 1)) f.minExponent with he
  set m := Fraction.nearest ⟨q.num * Nat.pow 2 (-e).toNat, q.den * Nat.pow 2 e.toNat⟩ with hm
  obtain ⟨hne, hle⟩ : m ≠ 0 ∧ e ≤ d.exponent := by
    split at hround
    · next hcarry =>
      have hpos : 0 < Nat.pow 2 f.precision := Nat.two_pow_pos _
      exact ⟨by omega, by rw [← hround]; dsimp only; omega⟩
    · exact ⟨by rwa [← hround] at hd, by rw [← hround]⟩
  have hpos := Fraction.value_pos hq hnum
  constructor
  · have hhalf := Fraction.half_le_of_nearest (Nat.mul_pos hq (Nat.two_pow_pos _)) hne
    rw [Fraction.value_moved hq, le_div_iff₀ (by positivity)] at hhalf
    calc (2 : ℚ) ^ (f.minExponent - 1) ≤ 2 ^ (e - 1) :=
          zpow_le_zpow_right₀ one_le_two (by omega)
      _ = 1 / 2 * 2 ^ e := by rw [zpow_sub_one₀ two_ne_zero]; ring
      _ ≤ q.value := hhalf
  · have hlog := Fraction.log2_eq hq hnum
    have hlt := (Int.lt_zpow_iff_log_lt one_lt_two hpos).2
      (show Int.log 2 q.value < e + f.precision by omega)
    calc q.value < 2 ^ (e + f.precision) := by exact_mod_cast hlt
      _ ≤ 2 ^ (d.exponent + f.precision) := zpow_le_zpow_right₀ one_le_two (by omega)

end Round

end BinaryFormat

end ChartScript
