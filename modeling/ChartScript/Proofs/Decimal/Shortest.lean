import ChartScript.Proofs.Decimal.Nearest

/-!
# The shortest decimal reads back

The search takes a decimal only if it rounds to the number it is looked for, and falls back on all
digits of the number, which are the number itself. So whichever it ends with is rounded to the number
again (`Decimal.round_shortest`): nothing has to be known of how many digits are enough.
-/

set_option autoImplicit false

namespace ChartScript
namespace Decimal

theorem value_fraction (x : Decimal) : x.fraction.value = x.value := Fraction.value_scaled _ _ _

theorem den_fraction_pos (x : Decimal) : 0 < x.fraction.den :=
  Fraction.den_scaled_pos _ (by decide) _

/-- All digits of a number are the number: five to the exponent, where it is below zero. -/
theorem value_exact (d : Dyadic) : (exact d).value = d.value := by
  unfold exact value Dyadic.value
  split
  · next he =>
    obtain ⟨n, hn⟩ := Int.eq_ofNat_of_zero_le he
    rw [hn]
    simp
  · next he =>
    obtain ⟨n, hn⟩ := Int.eq_ofNat_of_zero_le (show 0 ≤ -d.exponent by omega)
    obtain hexponent : d.exponent = -(n : ℤ) := by omega
    have hten : (10 : ℚ) ^ n = 2 ^ n * 5 ^ n := by rw [← mul_pow]; norm_num
    have hfive : (5 : ℚ) ^ n ≠ 0 := by positivity
    rw [hexponent]
    push_cast [Nat.pow_eq, neg_neg, Int.toNat_natCast, zpow_neg, zpow_natCast, hten]
    field_simp

theorem value_trimmed (coefficient : ℕ) (exponent : ℤ) :
    (trimmed coefficient exponent).value = coefficient * 10 ^ exponent := by
  fun_induction trimmed coefficient exponent with
  | case1 c e h ih =>
    have hc : ((c / 10 : ℕ) : ℚ) * 10 = c := by
      exact_mod_cast Nat.div_mul_cancel (Nat.dvd_of_mod_eq_zero h.2)
    rw [ih, zpow_add_one₀ (by norm_num), ← hc]
    ring
  | case2 c e h => rfl

section Search

variable {f : BinaryFormat} {d : Dyadic}

/-- What is found on a grid rounds to the number. -/
theorem round_onGrid? {exponent : ℤ} {x : Decimal} (h : onGrid? f d exponent = some x) :
    f.round x.fraction = d := by
  have hreads : readsAs f d x = true := by
    unfold onGrid? at h
    dsimp only at h
    split at h
    · next hlow hhigh =>
      obtain rfl := Option.some.inj h
      split
      · exact hlow
      · exact hhigh
    · next hlow hhigh => exact Option.some.inj h ▸ hlow
    · next hlow hhigh => exact Option.some.inj h ▸ hhigh
    · cases h
  exact eq_of_beq hreads

variable (hf : 0 < f.precision) (hd : f.IsNumber d)

include hf hd

theorem round_search (top : ℤ) (tries digits : ℕ) :
    f.round (search f d top tries digits).fraction = d := by
  fun_induction search f d top tries digits with
  | case1 digits =>
    exact BinaryFormat.round_of_value (den_fraction_pos _) hf hd
      ((value_fraction _).trans (value_exact d))
  | case2 digits tries x h => exact round_onGrid? h
  | case3 digits tries h ih => exact ih

/-- **The shortest decimal of a number is rounded to the number.** -/
theorem round_shortest : f.round (shortest f d).fraction = d := by
  unfold shortest
  split
  · next hzero =>
    refine BinaryFormat.round_of_value (den_fraction_pos _) hf hd ?_
    rw [value_fraction, Dyadic.value, hzero, value]
    simp
  · -- The zeros that are trimmed off have no part in the value.
    have hround := round_search hf hd d.fraction.log10 17 1
    dsimp only
    generalize search f d d.fraction.log10 17 1 = x at hround
    refine (BinaryFormat.round_congr (den_fraction_pos _) (den_fraction_pos x) ?_).trans hround
    rw [value_fraction, value_fraction, value_trimmed, value]

/-- Only a plain zero has no digits. -/
theorem exponent_shortest (h : (shortest f d).coefficient = 0) : (shortest f d).exponent = 0 := by
  by_cases hzero : d.mantissa = 0
  · rw [shortest, if_pos hzero]
  · obtain ⟨hlow, -⟩ :=
      BinaryFormat.value_bounds_of_round (den_fraction_pos _) (round_shortest hf hd) hzero
    rw [value_fraction, value, h, Nat.cast_zero, zero_mul] at hlow
    exact absurd hlow (not_le.2 (by positivity))

end Search

end Decimal
end ChartScript
