import ChartScript.Decimal.Binary
import Mathlib

/-!
# Numbers with 53 bits of mantissa

A real is packed into 64 bits after its mantissa has been shifted to 53 bits: what is shifted out is
kept in two residual bits, and these decide where to round. `Represents` is the value of such a
number, as a rational one. Numbers are packed without loss (`Represents.unpack_pack`), they are
compared as their values are (`Represents.compare_eq`), and shifting and the residual bits come to
rounding to the nearest multiple of a power of two (`represents_roundWithAccuracy`).
-/

set_option autoImplicit false

namespace ChartScript

/-! ## The nearest natural number -/

namespace Fraction

theorem nearest_mul (n : Nat) {d : Nat} (hd : 0 < d) : nearest ⟨n * d, d⟩ = n := by
  simp [nearest, Nat.mul_div_cancel n hd, hd]

theorem nearest_scale (n d : Nat) {c : Nat} (hc : 0 < c) :
    nearest ⟨n * c, d * c⟩ = nearest ⟨n, d⟩ := by
  have hcompare : ∀ x y : Nat, x * c < y * c ↔ x < y := fun x y => Nat.mul_lt_mul_right hc
  simp only [nearest, Nat.mul_div_mul_right _ _ hc, Nat.mul_mod_mul_right, ← Nat.mul_assoc,
    hcompare]

theorem nearest_mono {a b d : Nat} (h : a ≤ b) : nearest ⟨a, d⟩ ≤ nearest ⟨b, d⟩ := by
  have hdown : a / d ≤ b / d := Nat.div_le_div_right h
  have ha := Nat.div_add_mod a d
  have hb := Nat.div_add_mod b d
  simp only [nearest]
  rcases Nat.lt_or_eq_of_le hdown with hlt | heq
  · -- One of them is rounded up by one at most.
    split_ifs <;> omega
  · rw [heq] at ha ⊢
    split_ifs <;> omega

theorem le_nearest {c n d : Nat} (hd : 0 < d) (h : c * d ≤ n) : c ≤ nearest ⟨n, d⟩ := by
  rw [← nearest_mul c hd]
  exact nearest_mono h

theorem nearest_le {c n d : Nat} (hd : 0 < d) (h : n ≤ c * d) : nearest ⟨n, d⟩ ≤ c := by
  rw [← nearest_mul c hd]
  exact nearest_mono h

end Fraction

/-! ## Shifting -/

open Float.Model Float.Model.UnpackedFloat

/-- A mantissa shifted by `k` places: the whole part, and where the rest lies in the unit. -/
structure Shifted (n k : Nat) (em : ExtendedMantissa) : Prop where
  mantissa : em.mantissa = n / 2 ^ k
  roundBit : em.roundBit = true ↔ 2 ^ k ≤ 2 * (n % 2 ^ k)
  stickyBit : em.stickyBit = true ↔ n % 2 ^ k ≠ 0 ∧ 2 * (n % 2 ^ k) ≠ 2 ^ k

theorem Shifted.zero (n : Nat) : Shifted n 0 ⟨n, false, false⟩ := by
  constructor <;> simp [Nat.mod_one]

theorem Shifted.succ {n k : Nat} {em : ExtendedMantissa} (h : Shifted n k em) :
    Shifted n (k + 1) em.shiftRightOne := by
  have hpos : 0 < 2 ^ k := Nat.two_pow_pos k
  have hrest : n % 2 ^ (k + 1) = n % 2 ^ k + 2 ^ k * (n / 2 ^ k % 2) := Nat.mod_mul
  have hlt := Nat.mod_lt n hpos
  have hbit : n / 2 ^ k % 2 = 0 ∨ n / 2 ^ k % 2 = 1 := by omega
  constructor
  · rw [ExtendedMantissa.shiftRightOne, h.mantissa, Nat.div_div_eq_div_mul, Nat.pow_succ]
  · rw [ExtendedMantissa.shiftRightOne, h.mantissa, hrest, Nat.pow_succ]
    rcases hbit with hbit | hbit
    · simp [hbit]
      omega
    · simp [hbit]
      omega
  · rw [ExtendedMantissa.shiftRightOne, hrest, Nat.pow_succ]
    simp only [Bool.or_eq_true, h.roundBit, h.stickyBit]
    rcases hbit with hbit | hbit
    · simp only [hbit]
      omega
    · simp only [hbit]
      omega

theorem shifted_shiftRight (n k : Nat) :
    Shifted n k ((⟨n, false, false⟩ : ExtendedMantissa) >>> k) := by
  induction k with
  | zero => exact .zero n
  | succ k ih => exact ih.succ

theorem Shifted.roundedMantissa {n k : Nat} {em : ExtendedMantissa} (h : Shifted n k em) :
    em.roundedMantissa = Fraction.nearest ⟨n, 2 ^ k⟩ := by
  obtain ⟨mantissa, roundBit, stickyBit⟩ := em
  obtain ⟨hmantissa, hround, hsticky⟩ := h
  have hpos : 0 < 2 ^ k := Nat.two_pow_pos k
  dsimp only at hmantissa hround hsticky
  subst hmantissa
  simp only [Fraction.nearest]
  cases roundBit <;> cases stickyBit
  all_goals
    simp only [ExtendedMantissa.roundedMantissa, ExtendedMantissa.accuracy,
      Accuracy.roundToNearestEven]
    simp only [Bool.false_eq_true, false_iff, true_iff, not_and, not_le, ne_eq] at hround hsticky
    split_ifs <;> omega

/-! ## Numbers and their values -/

/-- Zero, or a number with the full 53 bits of mantissa in the range of the format, and its value.
Integers need no others. -/
inductive Represents : UnpackedFloat → ℚ → Prop where
  | zero (sign : Sign) : Represents (.zero sign) 0
  | finite (sign : Sign) {m : Nat} {e : ℤ} (hm : 0 < m) (hlog : m.log2 = 52) (hlow : -1074 ≤ e)
      (hhigh : e ≤ 971) : Represents (.finite sign m e hm) (sign.apply m * 2 ^ e)

theorem bounds_of_log2 {m : Nat} (hm : 0 < m) (hlog : m.log2 = 52) : 2 ^ 52 ≤ m ∧ m < 2 ^ 53 := by
  constructor
  · exact (Nat.le_log2 hm.ne').1 hlog.ge
  · exact (Nat.log2_lt hm.ne').1 (by omega)

/-- The leading bit of a mantissa is left out and put back. -/
theorem toNat_one_append {m : Nat} (hm : 0 < m) (hlog : m.log2 = 52) :
    (1#1 ++ BitVec.ofNat 52 m).toNat = m := by
  obtain ⟨hle, hlt⟩ := bounds_of_log2 hm hlog
  rw [BitVec.toNat_append, ← Nat.shiftLeft_add_eq_or_of_lt (BitVec.ofNat 52 m).isLt,
    BitVec.toNat_ofNat, Nat.shiftLeft_eq, BitVec.toNat_ofNat]
  omega

/-- The field of an exponent, which is neither of the two that are reserved. -/
theorem exponentField {field : ℕ} (hlow : 0 < field) (hhigh : field < 2047) :
    (BitVec.ofNat 11 field).toNat = field ∧ BitVec.ofNat 11 field ≠ 0#11 ∧
      BitVec.ofNat 11 field ≠ -1#11 := by
  have htoNat : (BitVec.ofNat 11 field).toNat = field := by
    rw [BitVec.toNat_ofNat]
    omega
  refine ⟨htoNat, fun hzero => ?_, fun hones => ?_⟩
  · have hnone : (BitVec.ofNat 11 field).toNat = 0 := by rw [hzero]; rfl
    omega
  · have hall : (BitVec.ofNat 11 field).toNat = 2047 := by rw [hones]; rfl
    omega

/-- The 64 bits of a number with the exponent of a field. -/
theorem pack_finite (sign : Sign) {m field : ℕ} (hm : 0 < m) (hlog : m.log2 = 52)
    (hhigh : field < 2047) :
    UnpackedFloat.pack .binary64 (.finite sign m (field - 1075) hm) =
      packComponents .binary64 sign (BitVec.ofNat 11 field) (BitVec.ofNat 52 m) := by
  have hbias : (Format.binary64.exponentBias : ℤ) = 1023 := rfl
  have hfield : ((field : ℤ) - 1075 + Format.binary64.exponentBias +
      Format.binary64.mantissaBitsWithoutImplicit).toNat = field := by
    rw [hbias]
    dsimp only
    omega
  have hfits : ¬ 2 ^ Format.binary64.exponentBits ≤ field + 1 := by
    dsimp only
    omega
  have hbits : m.log2 + 1 = Format.binary64.mantissaBits := by
    rw [hlog]
    rfl
  simp only [UnpackedFloat.pack, hfield]
  rw [if_neg hfits, if_pos hbits]

/-- Such a number survives being packed into 64 bits. -/
theorem Represents.unpack_pack {u : UnpackedFloat} {q : ℚ} (h : Represents u q) :
    (Float.Model.pack u).unpack = u := by
  cases h with
  | zero sign => cases sign <;> rfl
  | @finite sign m e hm hlog hlow hhigh =>
    obtain ⟨field, rfl⟩ : ∃ field : ℕ, e = field - 1075 := ⟨(e + 1075).toNat, by omega⟩
    obtain ⟨htoNat, hzero, hones⟩ := @exponentField field (by omega) (by omega)
    have hbias : (Format.binary64.exponentBias : ℤ) = 1023 := rfl
    show UnpackedFloat.unpack .binary64 (UnpackedFloat.pack .binary64 _) = _
    rw [pack_finite sign hm hlog (by omega)]
    simp only [UnpackedFloat.unpack, unpackMantissa_packComponents, unpackExponent_packComponents,
      unpackSign_packComponents, Sign.ofBitVec_toBitVec]
    rw [if_neg hones, if_neg hzero]
    simp only [toNat_one_append hm hlog, htoNat, hbias]
    rfl

theorem dyadic_pos {m : Nat} (hm : 0 < m) (e : ℤ) : (0 : ℚ) < m * 2 ^ e := by
  have hm' : (0 : ℚ) < m := by exact_mod_cast hm
  positivity

theorem dyadic_lt {m m' : Nat} {e e' : ℤ} (hm : m < 2 ^ 53) (hm' : 2 ^ 52 ≤ m') (he : e < e') :
    (m : ℚ) * 2 ^ e < m' * 2 ^ e' := by
  have hpos : (0 : ℚ) < 2 ^ e := by positivity
  calc (m : ℚ) * 2 ^ e < 2 ^ 53 * 2 ^ e := by gcongr; exact_mod_cast hm
    _ = 2 ^ 52 * 2 ^ (e + 1) := by rw [zpow_add_one₀ two_ne_zero]; ring
    _ ≤ m' * 2 ^ e' := by
      have hm'' : (2 : ℚ) ^ 52 ≤ m' := by exact_mod_cast hm'
      have he' : (2 : ℚ) ^ (e + 1) ≤ 2 ^ e' := zpow_le_zpow_right₀ one_le_two (by omega)
      gcongr

/-- Mantissas of the same length are compared after their exponents. -/
theorem compare_dyadic {m m' : Nat} {e e' : ℤ} (hm : 0 < m) (hlog : m.log2 = 52) (hm' : 0 < m')
    (hlog' : m'.log2 = 52) :
    compare ((m : ℚ) * 2 ^ e) ((m' : ℚ) * 2 ^ e') = (compare e e').then (compare m m') := by
  have hb := bounds_of_log2 hm hlog
  have hb' := bounds_of_log2 hm' hlog'
  rcases lt_trichotomy e e' with he | rfl | he
  · rw [compare_lt_iff_lt.2 he, compare_lt_iff_lt.2 (dyadic_lt hb.2 hb'.1 he)]
    rfl
  · have hpos : (0 : ℚ) < 2 ^ e := by positivity
    rw [compare_eq_iff_eq.2 rfl]
    rcases lt_trichotomy m m' with h | rfl | h
    · rw [compare_lt_iff_lt.2 h, compare_lt_iff_lt.2 (by gcongr)]
      rfl
    · rw [compare_eq_iff_eq.2 rfl, compare_eq_iff_eq.2 rfl]
      rfl
    · rw [compare_gt_iff_gt.2 h, compare_gt_iff_gt.2 (by gcongr)]
      rfl
  · rw [compare_gt_iff_gt.2 he, compare_gt_iff_gt.2 (dyadic_lt hb'.2 hb.1 he)]
    rfl

theorem compare_neg (a b : ℚ) : compare (-a) (-b) = (compare a b).swap := by
  rcases lt_trichotomy a b with h | rfl | h
  · rw [compare_lt_iff_lt.2 h, compare_gt_iff_gt.2 (neg_lt_neg h)]
    rfl
  · rw [compare_eq_iff_eq.2 rfl, compare_eq_iff_eq.2 rfl]
    rfl
  · rw [compare_gt_iff_gt.2 h, compare_lt_iff_lt.2 (neg_lt_neg h)]
    rfl

/-- **Such numbers are compared as their values are.** -/
theorem Represents.compare_eq {u v : UnpackedFloat} {q r : ℚ} (hu : Represents u q)
    (hv : Represents v r) : u.compare v = some (compare q r) := by
  cases hu with
  | zero sign =>
    cases hv with
    | zero sign' => rw [compare_eq_iff_eq.2 rfl]; rfl
    | @finite sign' m e hm hlog hlow hhigh =>
      cases sign' with
      | negative =>
        rw [compare_gt_iff_gt.2 (by simpa [Sign.apply] using dyadic_pos hm e)]
        rfl
      | positive =>
        rw [compare_lt_iff_lt.2 (by simpa [Sign.apply] using dyadic_pos hm e)]
        rfl
  | @finite sign m e hm hlog hlow hhigh =>
    cases hv with
    | zero sign' =>
      cases sign with
      | negative =>
        rw [compare_lt_iff_lt.2 (by simpa [Sign.apply] using dyadic_pos hm e)]
        rfl
      | positive =>
        rw [compare_gt_iff_gt.2 (by simpa [Sign.apply] using dyadic_pos hm e)]
        rfl
    | @finite sign' m' e' hm' hlog' hlow' hhigh' =>
      have hlt : -((m : ℚ) * 2 ^ e) < m' * 2 ^ e' :=
        lt_trans (neg_lt_zero.2 (dyadic_pos hm e)) (dyadic_pos hm' e')
      have hgt : -((m' : ℚ) * 2 ^ e') < m * 2 ^ e :=
        lt_trans (neg_lt_zero.2 (dyadic_pos hm' e')) (dyadic_pos hm e)
      have hcompare : compare ((m : ℚ) * 2 ^ e) (m' * 2 ^ e') = _ :=
        compare_dyadic hm hlog hm' hlog'
      cases sign with
      | negative =>
        cases sign' with
        | negative =>
          simp only [Sign.apply, UnpackedFloat.compare, Int.cast_neg, Int.cast_natCast, neg_mul]
          rw [compare_neg, hcompare]
        | positive =>
          rw [compare_lt_iff_lt.2 (by simpa [Sign.apply] using hlt)]
          rfl
      | positive =>
        cases sign' with
        | negative =>
          rw [compare_gt_iff_gt.2 (by simpa [Sign.apply] using hgt)]
          rfl
        | positive =>
          simp only [Sign.apply, UnpackedFloat.compare, Int.cast_natCast]
          rw [hcompare]

theorem Represents.neg {u : UnpackedFloat} {q : ℚ} (h : Represents u q) :
    Represents u.neg (-q) := by
  cases h with
  | zero sign =>
    rw [neg_zero]
    exact .zero _
  | @finite sign m e hm hlog hlow hhigh =>
    have hsign : -(((sign.apply m : ℤ) : ℚ) * 2 ^ e) = ((-sign).apply m : ℤ) * 2 ^ e := by
      cases sign <;> simp [Sign.apply]
    rw [hsign]
    exact .finite _ hm hlog hlow hhigh

/-! ## Rounding to 53 bits -/

theorem shiftToTargetExponent_eq {m : Nat} {e : ℤ} (hm : 52 ≤ m.log2)
    (hlow : -1074 ≤ e + (m.log2 - 52 : ℕ)) :
    shiftToTargetExponent .binary64 m e .exact =
      ((⟨m, false, false⟩ : ExtendedMantissa) >>> (m.log2 - 52), e + (m.log2 - 52 : ℕ)) := by
  have htarget : Format.binary64.targetExponent (totalExponent m e) = e + (m.log2 - 52 : ℕ) := by
    have hbits : (Format.binary64.mantissaBits : ℤ) = 53 := rfl
    have hmin : Format.binary64.minExponent = -1074 := rfl
    rw [Format.targetExponent, totalExponent, hbits, hmin]
    omega
  have hamount : (e + (m.log2 - 52 : ℕ) - e).toNat = m.log2 - 52 := by omega
  rw [shiftToTargetExponent, shiftToExponent, htarget, hamount]
  rfl

/-- The nearest mantissa has 53 bits, or it is the first one that has more. -/
theorem nearest_bounds {m : Nat} (hm : 52 ≤ m.log2) :
    2 ^ 52 ≤ Fraction.nearest ⟨m, 2 ^ (m.log2 - 52)⟩ ∧
      Fraction.nearest ⟨m, 2 ^ (m.log2 - 52)⟩ ≤ 2 ^ 53 := by
  have hne : m ≠ 0 := by
    rintro rfl
    rw [Nat.log2_zero] at hm
    omega
  have hpos : 0 < 2 ^ (m.log2 - 52) := Nat.two_pow_pos _
  constructor
  · apply Fraction.le_nearest hpos
    rw [← pow_add, Nat.add_sub_cancel' hm]
    exact Nat.log2_self_le hne
  · apply Fraction.nearest_le hpos
    rw [← pow_add, show 53 + (m.log2 - 52) = m.log2 + 1 by omega]
    exact Nat.lt_log2_self.le

/-- The number with a mantissa whose residual bits have been used. -/
def ofMantissa (sign : Sign) (p : ExtendedMantissa × ℤ) : UnpackedFloat :=
  if h : p.1.mantissa = 0 then .zero sign
  else .finite sign p.1.mantissa p.2 (Nat.pos_of_ne_zero h)

theorem represents_ofMantissa (sign : Sign) {em : ExtendedMantissa} {e : ℤ}
    (hlog : em.mantissa.log2 = 52) (hlow : -1074 ≤ e) (hhigh : e ≤ 971) :
    Represents (ofMantissa sign (em, e)) (sign.apply em.mantissa * 2 ^ e) := by
  have hne : em.mantissa ≠ 0 := by
    intro h
    rw [h] at hlog
    cases hlog
  rw [ofMantissa, dif_neg hne]
  exact .finite sign (Nat.pos_of_ne_zero hne) hlog hlow hhigh

/-- A mantissa that rounding has made one bit too long ends in zeros. -/
theorem represents_carried (sign : Sign) {q : Nat} {e : ℤ} (hq : 2 ^ 52 ≤ q) (hq' : q ≤ 2 ^ 53)
    (hlow : -1074 ≤ e) (hhigh : e ≤ 970) :
    Represents (ofMantissa sign (shiftToTargetExponent .binary64 q e .exact))
      (sign.apply q * 2 ^ e) := by
  rcases Nat.lt_or_eq_of_le hq' with hlt | rfl
  · have hlog : q.log2 = 52 := (Nat.log2_eq_iff (by omega)).2 ⟨hq, hlt⟩
    have hmantissa := (shifted_shiftRight q 0).mantissa
    rw [pow_zero, Nat.div_one] at hmantissa
    have hnumber := represents_ofMantissa sign (hmantissa ▸ hlog) hlow (by omega)
    rw [hmantissa] at hnumber
    rw [shiftToTargetExponent_eq hlog.ge (by omega), hlog]
    simpa using hnumber
  · have hlog : Nat.log2 (2 ^ 53) = 53 := Nat.log2_two_pow
    have hmantissa := (shifted_shiftRight (2 ^ 53) 1).mantissa
    have hshort : Nat.log2 (2 ^ 53 / 2 ^ 1) = 52 := by
      rw [Nat.pow_div (by omega) two_pos]
      exact Nat.log2_two_pow
    have hnumber :=
      represents_ofMantissa (e := e + 1) sign (hmantissa ▸ hshort) (by omega) (by omega)
    rw [hmantissa] at hnumber
    rw [shiftToTargetExponent_eq (by rw [hlog]; omega) (by omega), hlog]
    have hvalue : ((sign.apply (2 ^ 53 / 2 ^ 1 : ℕ) : ℤ) : ℚ) * 2 ^ (e + 1) =
        (sign.apply (2 ^ 53 : ℕ) : ℤ) * 2 ^ e := by
      rw [zpow_add_one₀ two_ne_zero]
      cases sign <;> (norm_num [Sign.apply]; ring)
    rw [← hvalue]
    exact hnumber

/-- What is cut off a mantissa of 53 bits or more is rounded to the nearest. -/
theorem represents_roundWithAccuracy (sign : Sign) {m : Nat} {e : ℤ} (hm : 52 ≤ m.log2)
    (hlow : -1074 ≤ e + (m.log2 - 52 : ℕ)) (hhigh : e + (m.log2 - 52 : ℕ) ≤ 970) :
    Represents (roundWithAccuracy .binary64 sign m e .exact)
      (sign.apply (Fraction.nearest ⟨m, 2 ^ (m.log2 - 52)⟩) * 2 ^ (e + (m.log2 - 52 : ℕ))) := by
  obtain ⟨hq, hq'⟩ := nearest_bounds hm
  have hround : roundWithAccuracy .binary64 sign m e .exact =
      ofMantissa sign (shiftToTargetExponent .binary64
        (shiftToTargetExponent .binary64 m e .exact).1.roundedMantissa
        (shiftToTargetExponent .binary64 m e .exact).2 .exact) := rfl
  rw [hround, shiftToTargetExponent_eq hm hlow,
    (shifted_shiftRight m (m.log2 - 52)).roundedMantissa]
  exact represents_carried sign hq hq' hlow hhigh

end ChartScript
