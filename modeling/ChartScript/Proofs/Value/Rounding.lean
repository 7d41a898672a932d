import ChartScript.Proofs.Value.Exactness
import ChartScript.Proofs.Value.Mantissa

/-!
# Integers as reals

An integer becomes a real by rounding to the nearest multiple of a unit, a tie going to the even
one. The unit is the power of two that leaves 53 bits of the integer, so it is one up to `2 ^ 53`
(`rounded`). `represents_realOfInteger` says so for both ways in which the conversion is done: a
short number is multiplied by one, a long one is given more zeros and cut off. Reals of integers are
therefore compared as the rounded integers are (`realOfInteger_lt_iff`), and since rounding is
monotone, integers are never swapped by it: they can only fall together.
-/

set_option autoImplicit false

namespace ChartScript

open Float.Model Float.Model.UnpackedFloat

/-! ## Natural numbers as reals -/

namespace Value

/-- A natural number rounded to the nearest multiple of the unit that leaves it 53 bits. -/
def roundedNat (n : ℕ) : ℕ := Fraction.nearest ⟨n, 2 ^ (n.log2 - 52)⟩ * 2 ^ (n.log2 - 52)

theorem roundedNat_of_short {n : ℕ} (h : n.log2 ≤ 52) : roundedNat n = n := by
  rw [roundedNat, Nat.sub_eq_zero_of_le h, pow_zero, mul_one]
  have hexact := Fraction.nearest_mul n one_pos
  rwa [mul_one] at hexact

theorem log2_mul_two_pow {n : ℕ} (hn : 0 < n) (k : ℕ) : (n * 2 ^ k).log2 = n.log2 + k := by
  rw [Nat.log2_eq_iff (by positivity), pow_add, Nat.add_right_comm, pow_add]
  constructor
  · gcongr
    exact Nat.log2_self_le hn.ne'
  · gcongr
    exact Nat.lt_log2_self

/-- Zeros behind a number have no part in how it is rounded. -/
theorem nearest_mul_two_pow {n k : ℕ} (hlog : 52 ≤ n.log2 + k) :
    Fraction.nearest ⟨n * 2 ^ k, 2 ^ (n.log2 + k - 52)⟩ * 2 ^ (n.log2 + k - 52) =
      roundedNat n * 2 ^ k := by
  rcases Nat.le_total n.log2 52 with hshort | hlong
  · obtain ⟨c, rfl⟩ : ∃ c, k = 52 - n.log2 + c := ⟨k - (52 - n.log2), by omega⟩
    rw [show n.log2 + (52 - n.log2 + c) - 52 = c by omega, roundedNat_of_short hshort, pow_add,
      ← mul_assoc, Fraction.nearest_mul _ (Nat.two_pow_pos c)]
  · rw [show n.log2 + k - 52 = (n.log2 - 52) + k by omega, pow_add,
      Fraction.nearest_scale _ _ (Nat.two_pow_pos k), roundedNat, mul_assoc]

/-- However many zeros are put behind a number before it is rounded, the outcome is the same. -/
theorem represents_scaled (sign : Sign) {n k : ℕ} {e : ℤ} (hn : 0 < n) (hlog : 52 ≤ n.log2 + k)
    (hlow : -1022 ≤ e + (n.log2 + k : ℕ)) (hhigh : e + (n.log2 + k : ℕ) ≤ 1022) :
    Represents (roundWithAccuracy .binary64 sign (n * 2 ^ k) e .exact)
      (sign.apply (roundedNat n) * 2 ^ (e + k)) := by
  have hlog' := log2_mul_two_pow hn k
  have hnumber := represents_roundWithAccuracy sign (m := n * 2 ^ k) (e := e)
    (by omega) (by omega) (by omega)
  have hshift : ∀ x j : ℕ, ((sign.apply x : ℤ) : ℚ) * 2 ^ (e + j) =
      (sign.apply (x * 2 ^ j : ℕ) : ℤ) * 2 ^ e := by
    intro x j
    rw [zpow_add₀ two_ne_zero, zpow_natCast]
    cases sign <;> (push_cast [Sign.apply]; ring)
  rwa [hlog', hshift, nearest_mul_two_pow hlog, ← hshift] at hnumber

/-- A number of at most 53 bits is taken as it is. -/
theorem represents_round {n : ℕ} (hn : 0 < n) (hlog : n.log2 ≤ 52) :
    Represents (UnpackedFloat.round .binary64 .positive n 0) (n : ℚ) := by
  have htarget : Format.binary64.targetExponent (totalExponent n 0) = (n.log2 : ℤ) - 52 := by
    have hbits : (Format.binary64.mantissaBits : ℤ) = 53 := rfl
    have hmin : Format.binary64.minExponent = -1074 := rfl
    rw [Format.targetExponent, totalExponent, hbits, hmin]
    omega
  have hamount : (0 - ((n.log2 : ℤ) - 52)).toNat = 52 - n.log2 := by omega
  have hnumber := represents_scaled .positive (k := 52 - n.log2) (e := 0 - (52 - n.log2 : ℕ)) hn
    (by omega) (by omega) (by omega)
  rw [roundedNat_of_short hlog, sub_add_cancel, zpow_zero, mul_one] at hnumber
  rw [UnpackedFloat.round, htarget, decreaseExponent, hamount, Nat.shiftLeft_eq]
  exact hnumber

/-- The number one. -/
theorem unpack_one : (Float.ofBits 0x3FF0000000000000).toModel.unpack =
    .finite .positive (2 ^ 52) (-52) (by decide) := rfl

/-- A number of at most 53 bits is converted as it is. -/
theorem represents_toFloat {n : ℕ} (hn : 0 < n) (hlog : n.log2 ≤ 52) :
    Represents n.toUInt64.toFloat.toModel.unpack (n : ℚ) := by
  have hlt : n < 2 ^ 53 := (Nat.log2_lt hn.ne').1 (by omega)
  have hword : n.toUInt64.toNat = n := UInt64.toNat_ofNat_of_lt' (by rw [UInt64.size]; omega)
  have hpositive : compare (n : ℤ) 0 = .gt := compare_gt_iff_gt.2 (by exact_mod_cast hn)
  have hunpacked : UnpackedFloat.ofUInt64 .binary64 n.toUInt64 =
      UnpackedFloat.round .binary64 .positive n 0 := by
    rw [UnpackedFloat.ofUInt64, hword, UnpackedFloat.ofNat, UnpackedFloat.ofInt,
      UnpackedFloat.normalize, hpositive]
    rfl
  have hnumber := represents_round hn hlog
  have hmodel : n.toUInt64.toFloat.toModel =
      Float.Model.pack (UnpackedFloat.ofUInt64 .binary64 n.toUInt64) := rfl
  rw [hmodel, hunpacked, hnumber.unpack_pack]
  exact hnumber

/-- Multiplication by one changes nothing. -/
theorem represents_mul_one {u : UnpackedFloat} {q : ℚ} (hu : Represents u q) (hq : |q| < 2 ^ 53) :
    Represents (UnpackedFloat.mul .binary64 u (.finite .positive (2 ^ 52) (-52) (by decide)))
      q := by
  cases hu with
  | zero sign => exact .zero _
  | @finite sign m e hm hlog hlow hhigh =>
    have hle : (2 : ℚ) ^ 52 ≤ m := by exact_mod_cast (bounds_of_log2 hm hlog).1
    have habs : |((sign.apply m : ℤ) : ℚ) * 2 ^ e| = m * 2 ^ e := by
      rw [abs_mul, abs_of_pos (zpow_pos (two_pos (α := ℚ)) e)]
      cases sign <;> simp [Sign.apply]
    have hsmall : e < 1 := by
      rw [habs] at hq
      by_contra hlarge
      have hpow : (2 : ℚ) ^ (1 : ℤ) ≤ 2 ^ e := zpow_le_zpow_right₀ one_le_two (by omega)
      have hprod := mul_le_mul hle hpow (by positivity) (by positivity)
      norm_num at hprod hq
      linarith
    have hnumber := represents_scaled sign (k := 52) (e := e - 52) hm (by omega) (by omega)
      (by omega)
    have hexponent : e - 52 + (52 : ℕ) = e := by omega
    rw [roundedNat_of_short hlog.le, hexponent] at hnumber
    have hsign : sign * .positive = sign := by cases sign <;> rfl
    rw [UnpackedFloat.mul, hsign]
    exact hnumber

/-- Short numbers are multiplied by one, long ones are rounded. -/
theorem ofNat_cases {n : ℕ} :
    (n < 2 ^ 53 → Float.ofNat n = n.toUInt64.toFloat * Float.ofBits 0x3FF0000000000000) ∧
      (¬ n < 2 ^ 53 → Float.ofNat n = .ofModel (Float.Model.ofScientific n 0)) := by
  constructor
  · intro h
    show Float.ofScientific n false 0 = _
    rw [Float.ofScientific, dif_pos ⟨h, Nat.zero_le _⟩]
    rfl
  · intro h
    show Float.ofScientific n false 0 = _
    rw [Float.ofScientific, dif_neg (fun hfast => h hfast.1)]
    rfl

/-- A long number is given more zeros before it is rounded. -/
theorem represents_ofScientific {n : ℕ} (hn : 0 < n) (hlog : n.log2 ≤ 64) :
    Represents (UnpackedFloat.ofScientific .binary64 n 0) (roundedNat n : ℚ) := by
  have hnumber := represents_scaled .positive (k := 53) (e := -53) hn (by omega) (by omega)
    (by omega)
  have hmul : UnpackedFloat.ofScientific .binary64 n 0 =
      roundWithAccuracy .binary64 .positive (n <<< 53 * 1) (-53 + 0) .exact := by
    have hlarge : ¬ (0 : ℤ) > 2 ^ Format.binary64.exponentBits := by decide
    have hsmall : ¬ (0 : ℤ) < -((2 ^ Format.binary64.exponentBits : ℤ) + n.log2) := by
      dsimp only
      omega
    rw [UnpackedFloat.ofScientific, dif_neg hn.ne', if_neg hlarge, if_neg hsmall, if_pos le_rfl]
    rfl
  rw [hmul, mul_one, add_zero, Nat.shiftLeft_eq]
  simpa [Sign.apply] using hnumber

/-- **A natural number becomes the real of the nearest number of 53 bits.** -/
theorem represents_ofNat {n : ℕ} (hn : n < 2 ^ 64) :
    Represents (Float.ofNat n).toModel.unpack (roundedNat n : ℚ) := by
  rcases Nat.eq_zero_or_pos n with rfl | hpos
  · exact .zero .positive
  have hrepacked : ∀ {u : UnpackedFloat}, Represents u (roundedNat n : ℚ) →
      Represents (Float.Model.pack u).unpack (roundedNat n : ℚ) := by
    intro u hu
    rwa [hu.unpack_pack]
  by_cases hshort : n < 2 ^ 53
  · have hlog : n.log2 ≤ 52 := by
      have := (Nat.log2_lt (k := 53) hpos.ne').2 hshort
      omega
    have hsize : |((n : ℕ) : ℚ)| < 2 ^ 53 := by
      rw [Nat.abs_cast]
      exact_mod_cast hshort
    have hnumber := represents_mul_one (represents_toFloat hpos hlog) hsize
    rw [← unpack_one] at hnumber
    rw [ofNat_cases.1 hshort]
    apply hrepacked
    rw [roundedNat_of_short hlog]
    exact hnumber
  · have hlog : n.log2 ≤ 64 := by
      have := (Nat.log2_lt (k := 64) hpos.ne').2 hn
      omega
    rw [ofNat_cases.2 hshort]
    exact hrepacked (represents_ofScientific hpos hlog)

/-! ## Integers as reals -/

/-- An integer rounded to the nearest one of 53 bits, a tie going to the even mantissa. -/
def rounded (n : ℤ) : ℤ := n.sign * roundedNat n.natAbs

theorem rounded_natCast (n : ℕ) : rounded n = roundedNat n := by
  rcases Nat.eq_zero_or_pos n with rfl | hn
  · rfl
  · rw [rounded, Int.sign_eq_one_of_pos (by exact_mod_cast hn), one_mul, Int.natAbs_natCast]

theorem rounded_neg (n : ℤ) : rounded (-n) = -rounded n := by
  rw [rounded, rounded, Int.sign_neg, Int.natAbs_neg, neg_mul]

/-- **An integer becomes the real of the rounded integer.** -/
theorem represents_realOfInteger (n : Int64) :
    Represents (realOfInteger n).toModel.unpack (rounded n.toInt : ℚ) := by
  have hn := toInt_bounds n
  rw [realOfInteger]
  cases hcases : n.toInt with
  | ofNat k =>
    rw [hcases, Int.ofNat_eq_natCast] at hn
    have hnumber := represents_ofNat (n := k) (by omega)
    rw [Int.ofNat_eq_natCast, rounded_natCast, Int.cast_natCast]
    exact hnumber
  | negSucc k =>
    rw [hcases, Int.negSucc_eq] at hn
    have hnumber := (represents_ofNat (n := k + 1) (by omega)).neg
    have hrounded : ((rounded (Int.negSucc k) : ℤ) : ℚ) = -(roundedNat (k + 1) : ℚ) := by
      rw [Int.negSucc_eq, ← Nat.cast_succ, rounded_neg, rounded_natCast, Int.cast_neg,
        Int.cast_natCast]
    have hmodel : (Float.ofInt (Int.negSucc k)).toModel =
        Float.Model.pack (Float.ofNat (k + 1)).toModel.unpack.neg := rfl
    rw [hrounded, hmodel, hnumber.unpack_pack]
    exact hnumber

/-- Reals of integers are compared as the rounded integers are. -/
theorem realOfInteger_lt_iff (a b : Int64) :
    realOfInteger a < realOfInteger b ↔ rounded a.toInt < rounded b.toInt := by
  have hlt : realOfInteger a < realOfInteger b ↔
      ((realOfInteger a).toModel.unpack.compare (realOfInteger b).toModel.unpack ==
        some .lt) = true :=
    decide_eq_true_iff
  rw [hlt, (represents_realOfInteger a).compare_eq (represents_realOfInteger b), beq_iff_eq,
    Option.some.injEq, compare_lt_iff_lt, Int.cast_lt]

/-! ## What rounding keeps -/

theorem roundedNat_bounds {n : ℕ} (hn : 0 < n) :
    2 ^ n.log2 ≤ roundedNat n ∧ roundedNat n ≤ 2 ^ (n.log2 + 1) := by
  rcases Nat.le_total n.log2 52 with hshort | hlong
  · rw [roundedNat_of_short hshort]
    exact ⟨Nat.log2_self_le hn.ne', Nat.lt_log2_self.le⟩
  · obtain ⟨hle, hge⟩ := nearest_bounds hlong
    have hlow : 2 ^ n.log2 = 2 ^ 52 * 2 ^ (n.log2 - 52) := by
      rw [← pow_add, Nat.add_sub_cancel' hlong]
    rw [roundedNat, pow_succ, hlow]
    constructor
    · gcongr
    · calc _ ≤ 2 ^ 53 * 2 ^ (n.log2 - 52) := by gcongr
        _ = _ := by ring

theorem roundedNat_mono : Monotone roundedNat := by
  intro a b hab
  rcases Nat.eq_zero_or_pos a with rfl | ha
  · exact Nat.zero_le _
  have hb : 0 < b := ha.trans_le hab
  have hlog : a.log2 ≤ b.log2 :=
    (Nat.le_log2 hb.ne').2 ((Nat.log2_self_le ha.ne').trans hab)
  rcases Nat.lt_or_eq_of_le hlog with hlt | heq
  · -- A power of two lies between the two.
    calc roundedNat a ≤ 2 ^ (a.log2 + 1) := (roundedNat_bounds ha).2
      _ ≤ 2 ^ b.log2 := Nat.pow_le_pow_right two_pos hlt
      _ ≤ roundedNat b := (roundedNat_bounds hb).1
  · rw [roundedNat, roundedNat, heq]
    exact Nat.mul_le_mul_right _ (Fraction.nearest_mono hab)

/-- **Rounding never swaps integers.** -/
theorem rounded_mono : Monotone rounded := by
  intro a b hab
  obtain ⟨m, rfl | rfl⟩ := a.eq_nat_or_neg
  · obtain ⟨n, rfl⟩ := Int.eq_ofNat_of_zero_le ((Int.natCast_nonneg m).trans hab)
    rw [rounded_natCast, rounded_natCast]
    exact_mod_cast roundedNat_mono (by exact_mod_cast hab)
  · obtain ⟨n, rfl | rfl⟩ := b.eq_nat_or_neg
    · rw [rounded_neg, rounded_natCast, rounded_natCast]
      omega
    · rw [rounded_neg, rounded_neg, rounded_natCast, rounded_natCast]
      have hmono : roundedNat n ≤ roundedNat m := roundedNat_mono (by omega)
      omega

/-- Integers up to `2 ^ 53` are reals as they are. -/
theorem rounded_of_small {n : ℤ} (h : |n| ≤ 2 ^ 53) : rounded n = n := by
  have hsmall : n.natAbs ≤ 2 ^ 53 := by
    rw [Int.abs_eq_natAbs] at h
    omega
  have hnat : roundedNat n.natAbs = n.natAbs := by
    rcases Nat.lt_or_eq_of_le hsmall with hlt | heq
    · rcases Nat.eq_zero_or_pos n.natAbs with hzero | hpos
      · rw [hzero]
        rfl
      · have := (Nat.log2_lt (k := 53) hpos.ne').2 hlt
        exact roundedNat_of_short (by omega)
    · rw [heq]
      decide +kernel
  rw [rounded, hnat, Int.sign_mul_natAbs]

theorem rounded_eq_zero_iff (n : ℤ) : rounded n = 0 ↔ n = 0 := by
  constructor
  · intro h
    by_contra hne
    have hpos : 0 < n.natAbs := Int.natAbs_pos.2 hne
    have hrounded : 0 < roundedNat n.natAbs :=
      (Nat.two_pow_pos _).trans_le (roundedNat_bounds hpos).1
    rcases Int.mul_eq_zero.1 h with hsign | hzero
    · exact hne (Int.sign_eq_zero_iff_zero.1 hsign)
    · omega
  · rintro rfl
    rfl

/-- No integer but zero becomes a real zero. -/
theorem realOfInteger_beq_zero_iff (n : Int64) : (realOfInteger n == 0) = true ↔ n = 0 := by
  have hbeq : (realOfInteger n == 0) = true ↔
      ((realOfInteger n).toModel.unpack.compare (.zero .positive) == some .eq) = true :=
    Iff.rfl
  rw [hbeq, (represents_realOfInteger n).compare_eq (.zero .positive), beq_iff_eq,
    Option.some.injEq, compare_eq_iff_eq, Int.cast_eq_zero, rounded_eq_zero_iff, eq_zero_iff]

end Value

end ChartScript
