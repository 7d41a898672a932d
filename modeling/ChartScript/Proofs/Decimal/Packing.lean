import ChartScript.Proofs.Decimal.Nearest

/-!
# Bits and numbers

A bit pattern is a sign, a field for the exponent and the bits of the mantissa without the leading
one. What a pattern shows is a number of the format that the format has room for (`of_magnitude`),
and packing the number up gives the pattern back (`encode_magnitude`). A real that the library calls
finite shows a number (`exists_finite`).
-/

set_option autoImplicit false

namespace ChartScript
namespace BinaryFormat

variable {f : BinaryFormat} {bits : ℕ}

theorem signBit_eq (f : BinaryFormat) : f.signBit = f.leading * 2 ^ f.exponentBits := pow_add _ _ _

theorem leading_pos (f : BinaryFormat) : 0 < f.leading := Nat.two_pow_pos _

/-- A pattern is put together from its sign, its field and its low bits. -/
theorem bits_eq (hbits : bits < 2 * f.signBit) :
    bits = (if f.isNegative bits then f.signBit else 0) +
      bits / f.leading % 2 ^ f.exponentBits * f.leading + bits % f.leading := by
  have hsign : bits / f.signBit < 2 := Nat.div_lt_of_lt_mul (by rwa [Nat.mul_comm] at hbits)
  have hnegative : (if f.isNegative bits then f.signBit else 0) = bits / f.signBit * f.signBit := by
    unfold isNegative
    rcases Nat.le_one_iff_eq_zero_or_eq_one.1 (Nat.le_of_lt_succ hsign) with h | h <;> simp [h]
  rw [hnegative, signBit_eq, ← Nat.div_div_eq_div_mul, Nat.mul_comm f.leading, ← Nat.mul_assoc,
    ← Nat.add_mul, Nat.div_add_mod', Nat.div_add_mod']

/-- **Packing gives the pattern back.** -/
theorem encode_magnitude {d : Dyadic} (hbits : bits < 2 * f.signBit)
    (h : f.magnitude bits = .finite d) : f.encode (f.isNegative bits) d = bits := by
  have hlow : bits % f.leading < f.leading := Nat.mod_lt _ f.leading_pos
  have hparts := bits_eq hbits
  unfold magnitude at h
  dsimp only at h
  split at h
  · split at h <;> cases h
  · split at h
    · next hfield =>
      cases h
      rw [encode, if_pos hlow]
      rw [show bits / f.leading % 2 ^ f.exponentBits = 0 from hfield, Nat.zero_mul,
        Nat.add_zero] at hparts
      exact hparts.symm
    · next hfield =>
      cases h
      have hcode : (f.minExponent + ((bits / f.leading % 2 ^ f.exponentBits : ℕ) - 1 : ℤ) -
          f.minExponent + 1).toNat = bits / f.leading % 2 ^ f.exponentBits := by omega
      rw [encode, if_neg (by simp), Nat.add_sub_cancel_left]
      exact (congrArg (fun n => _ + n * f.leading + _) hcode).trans hparts.symm

/-- What is infinite or no number has a full field; the low bits tell which. -/
theorem full_of_magnitude {m : Magnitude} (h : f.magnitude bits = m) (hm : ∀ d, m ≠ .finite d) :
    bits / f.leading % 2 ^ f.exponentBits = 2 ^ f.exponentBits - 1 ∧
      (bits % f.leading = 0 ↔ m = .infinite) := by
  subst h
  unfold magnitude at hm ⊢
  dsimp only at hm ⊢
  split at hm
  · next hfield =>
    refine ⟨hfield, ?_⟩
    rw [if_pos hfield]
    split <;> simp_all
  · split at hm
    · exact absurd rfl (hm _)
    · exact absurd rfl (hm _)

/-- An infinity is its sign and a full field. -/
theorem eq_of_infinite (hbits : bits < 2 * f.signBit) (h : f.magnitude bits = .infinite) :
    bits = (if f.isNegative bits then f.signBit else 0) + (2 ^ f.exponentBits - 1) * f.leading := by
  have hparts := bits_eq hbits
  obtain ⟨hfield, hlow⟩ := full_of_magnitude h (by simp)
  rwa [hfield, hlow.2 rfl, Nat.add_zero] at hparts

/-- **What a pattern shows is a number of the format.** -/
theorem of_magnitude {d : Dyadic} (hprecision : 0 < f.precision) (hexponent : 2 ≤ f.exponentBits)
    (h : f.magnitude bits = .finite d) : f.IsNumber d ∧ f.holds d = true := by
  have hlow : bits % f.leading < f.leading := Nat.mod_lt _ f.leading_pos
  have hfield : bits / f.leading % 2 ^ f.exponentBits < 2 ^ f.exponentBits :=
    Nat.mod_lt _ (Nat.two_pow_pos _)
  have hleading : 2 ^ f.precision = 2 * f.leading := (mul_pow_sub_one hprecision.ne' 2).symm
  have hrange : 2 ^ f.exponentBits = 2 * f.halfRange :=
    (mul_pow_sub_one (by omega) 2).symm
  have hhalf : 2 ≤ f.halfRange := Nat.le_pow (show 0 < f.exponentBits - 1 by omega)
  simp only [magnitude, Nat.pow_eq] at h
  generalize bits / f.leading % 2 ^ f.exponentBits = field at h hfield
  split at h
  · split at h <;> cases h
  · split at h
    · cases h
      refine ⟨⟨?_, le_rfl, .inr rfl⟩, decide_eq_true ?_⟩
      · dsimp only
        omega
      · dsimp only
        rw [minExponent, maxExponent]
        omega
    · cases h
      refine ⟨⟨?_, ?_, .inl (Nat.le_add_right _ _)⟩, decide_eq_true ?_⟩
      · dsimp only
        omega
      · dsimp only
        omega
      · dsimp only
        rw [minExponent, maxExponent]
        omega

end BinaryFormat

/-! ## Reals -/

open Float.Model

/-- What is infinite or no number has an exponent of all ones. -/
theorem unpackExponent_of_realMagnitude {x : Float} {m : Magnitude} (h : realMagnitude x = m)
    (hm : ∀ d, m ≠ .finite d) :
    @UnpackedFloat.unpackExponent Format.binary64 x.toBits.toBitVec = -1#11 := by
  apply BitVec.eq_of_toNat_eq
  rw [UnpackedFloat.unpackExponent_def, BitVec.extractLsb'_toNat, Nat.shiftRight_eq_div_pow]
  exact (BinaryFormat.full_of_magnitude h hm).1

/-- **A finite real shows a number.** -/
theorem exists_finite {x : Float} (hx : x.isFinite = true) : ∃ d, realMagnitude x = .finite d := by
  by_contra hnone
  have hfull := unpackExponent_of_realMagnitude rfl (not_exists.1 hnone)
  have hunpack : (UnpackedFloat.unpack Format.binary64 x.toBits.toBitVec).isFinite = true := hx
  unfold UnpackedFloat.unpack at hunpack
  dsimp only at hunpack
  rw [if_pos hfull] at hunpack
  split at hunpack <;> cases hunpack

end ChartScript
