import ChartScript.Function.Standard
import ChartScript.Proofs.Decimal.Packing
import ChartScript.Proofs.Decimal.Spelling
import ChartScript.Proofs.Function.IntegerTexts

/-!
# Reals as texts

A real is written with the fewest digits that are rounded to it, so reading the text gives the real
back: the digits are spelled by something that denotes them, what it denotes is rounded to the number
whose bits the real has, and packing the number up gives the bits. The infinities have words of their
own, and so has the one bit pattern that is no number.
-/

set_option autoImplicit false

namespace ChartScript

open Text Float.Model

/-! ## Reading what is spelled -/

theorem toLower_of_isAsciiDigit {c : Char} (h : isAsciiDigit c = true) : c.toLower = c := by
  rw [Lexer.isAsciiDigit_iff] at h
  refine Char.toLower_eq_of_not_isUpper fun hupper => ?_
  simp only [Char.isUpper, decide_eq_true_eq, ge_iff_le, UInt32.le_iff_toNat_le] at hupper
  have hle : 65 ≤ c.toNat := hupper.1
  omega

/-- A spelling is read as the real nearest to what it denotes. -/
theorem readReal?_spelling (s : RealSpelling) (h : |s.power| < 100000) :
    ∃ q : Fraction, 0 < q.den ∧ q.value = s.magnitude ∧
      readReal? s.chars = if BinaryFormat.double.holds (BinaryFormat.double.round q) then
        some (realOf s.negative (BinaryFormat.double.round q)) else none := by
  obtain ⟨q, hread, hden, hvalue⟩ := Numeral.readUnsigned?_spelling s h
  refine ⟨q, hden, hvalue, ?_⟩
  obtain ⟨c, cs, hwhole, hc⟩ := s.whole.exists_cons
  have hunsigned : s.unsigned = c :: (cs ++ '.' :: s.fraction.chars ++ s.exponentChars) := by
    rw [RealSpelling.unsigned, hwhole]
    rfl
  have hsplit : splitSign s.chars = (s.negative, s.unsigned) := by
    rw [RealSpelling.chars, hunsigned]
    exact splitSign_signed _ hc
  -- A digit comes first, so this is none of the words.
  have hword : ∀ w : String, (∀ d ∈ w.toList.head?, isAsciiDigit d = false) →
      (String.ofList (s.unsigned.map Char.toLower) == w) = false := by
    intro w hw
    refine beq_eq_false_iff_ne.2 fun heq => ?_
    have hhead : c ∈ w.toList.head? := by
      rw [← heq, String.toList_ofList, hunsigned, List.map_cons, toLower_of_isAsciiDigit hc]
      exact rfl
    exact Bool.true_eq_false_eq_False ((hc.symm.trans (hw c hhead)))
  have hradix : ∀ d ∈ s.unsigned, d ≠ 'x' ∧ d ≠ 'X' := by
    rintro d hd
    constructor <;> rintro rfl <;> rcases RealSpelling.mem_unsigned hd with hdigit | hsign
    · exact absurd hdigit (by decide)
    · exact absurd hsign (by decide)
    · exact absurd hdigit (by decide)
    · exact absurd hsign (by decide)
  unfold readReal?
  rw [hsplit]
  dsimp only
  rw [hword "inf" (by rintro _ ⟨⟩; rfl), hword "infinity" (by rintro _ ⟨⟩; rfl),
    hword "nan" (by rintro _ ⟨⟩; rfl)]
  simp only [Bool.or_self, Bool.false_and, Bool.false_eq_true, if_false]
  split
  · next digits heq => exact absurd rfl (hradix 'x' (by simp [heq])).1
  · next digits heq => exact absurd rfl (hradix 'X' (by simp [heq])).2
  · rw [hread]
    rfl

/-! ## The shortest digits -/

namespace Decimal

/-- The digits of a real stand where its exponent lets them. -/
theorem top_shortest {d : Dyadic} (hd : BinaryFormat.double.IsNumber d)
    (hholds : BinaryFormat.double.holds d = true)
    (hne : (shortest .double d).coefficient ≠ 0) : |(shortest .double d).top| < 100000 := by
  have hmantissa : d.mantissa ≠ 0 := by
    intro hzero
    rw [shortest, if_pos hzero] at hne
    exact hne rfl
  obtain ⟨hlow, hhigh⟩ := BinaryFormat.value_bounds_of_round (den_fraction_pos _)
    (round_shortest (by decide) hd) hmantissa
  rw [value_fraction] at hlow hhigh
  obtain ⟨htop, htop'⟩ := top_bounds hne
  have hexponent : d.exponent ≤ 971 := of_decide_eq_true hholds
  have hten : (1 : ℚ) < 10 := by norm_num
  have hover : (shortest .double d).top < (1024 : ℕ) := by
    rw [← zpow_lt_zpow_iff_right₀ hten, zpow_natCast]
    calc (10 : ℚ) ^ (shortest .double d).top ≤ (shortest .double d).value := htop
      _ < 2 ^ (d.exponent + (53 : ℕ)) := hhigh
      _ ≤ 2 ^ ((1024 : ℕ) : ℤ) := zpow_le_zpow_right₀ one_le_two (by omega)
      _ ≤ 10 ^ 1024 := by
        rw [zpow_natCast]
        exact pow_le_pow_left₀ zero_le_two (by norm_num) _
  have hunder : -(1075 : ℕ) < (shortest .double d).top + 1 := by
    rw [← zpow_lt_zpow_iff_right₀ hten, zpow_neg, zpow_natCast]
    calc ((10 : ℚ) ^ 1075)⁻¹ ≤ (2 ^ 1075)⁻¹ :=
          inv_anti₀ (by positivity) (pow_le_pow_left₀ zero_le_two (by norm_num) _)
      _ = 2 ^ (-((1075 : ℕ) : ℤ)) := by rw [zpow_neg, zpow_natCast]
      _ ≤ (shortest .double d).value := hlow
      _ < 10 ^ ((shortest .double d).top + 1) := htop'
  rw [abs_lt]
  omega

end Decimal

/-! ## The three kinds of reals -/

theorem eq_ofBits {x : Float} {n : ℕ} (h : x.toBits.toNat = n) :
    x = Float.ofBits (UInt64.ofNat n) := by
  rw [← h, UInt64.ofNat_toNat, Float.ofBits_toBits]

theorem readReal?_of_finite {x : Float} {d : Dyadic} (h : realMagnitude x = .finite d) :
    ∃ s : RealSpelling, Value.reals.write .double x.toBits.toNat = s.chars ∧
      s.value = (if realIsNegative x then -(Decimal.shortest .double d).value
        else (Decimal.shortest .double d).value) ∧
      readReal? s.chars = some x := by
  obtain ⟨hd, hholds⟩ := BinaryFormat.of_magnitude (by decide) (by decide) h
  obtain ⟨s, hnegative, hunsigned, hmagnitude, hpower⟩ :=
    Value.exists_spelling (.shortest .double d) (realIsNegative x)
  have hreach : |s.power| < 100000 := by
    rcases hpower with hzero | ⟨hne, htop⟩
    · rw [hzero]
      decide
    · rw [htop]
      exact Decimal.top_shortest hd hholds hne
  obtain ⟨q, hden, hvalue, hread⟩ := readReal?_spelling s hreach
  have hround : BinaryFormat.double.round q = d := by
    rw [BinaryFormat.round_congr hden (Decimal.den_fraction_pos (.shortest .double d)),
      Decimal.round_shortest (by decide) hd]
    rw [hvalue, hmagnitude, Decimal.value_fraction]
  refine ⟨s, ?_, ?_, ?_⟩
  · have hfinite : BinaryFormat.double.magnitude x.toBits.toNat = .finite d := h
    rw [NumberLayout.write, hfinite, RealSpelling.chars, hnegative, hunsigned]
    rfl
  · rw [RealSpelling.value, hnegative, hmagnitude]
  · rw [hread, hround, if_pos hholds, hnegative, realOf]
    exact congrArg some (eq_ofBits (BinaryFormat.encode_magnitude x.toBits.toNat_lt h).symm).symm

theorem readReal?_of_infinite {x : Float} (h : realMagnitude x = .infinite) :
    readReal? (Value.reals.write .double x.toBits.toNat) = some x := by
  have hinfinite : BinaryFormat.double.magnitude x.toBits.toNat = .infinite := h
  have hbits := BinaryFormat.eq_of_infinite x.toBits.toNat_lt h
  rw [NumberLayout.write, hinfinite]
  dsimp only
  rw [eq_ofBits hbits]
  cases BinaryFormat.double.isNegative x.toBits.toNat <;> rfl

/-- There is one bit pattern that is no number. -/
theorem eq_ofBits_of_notANumber {x : Float} (h : realMagnitude x = .notANumber) :
    x = Float.ofBits 0x7FF8000000000000 := by
  have hexponent := unpackExponent_of_realMagnitude h (by simp)
  have hlow := (BinaryFormat.full_of_magnitude h (by simp)).2
  have hmantissa : @UnpackedFloat.unpackMantissa Format.binary64 x.toBits.toBitVec ≠ 0#52 := by
    intro hzero
    have hnat := congrArg BitVec.toNat hzero
    rw [UnpackedFloat.unpackMantissa_def, BitVec.extractLsb'_toNat, Nat.shiftRight_zero] at hnat
    exact Magnitude.noConfusion (hlow.1 hnat)
  have hbits : x.toBits.toBitVec = (0x7FF8000000000000 : UInt64).toBitVec :=
    x.toModel.valid.eq_packedNaN hexponent hmantissa
  rw [← UInt64.toBitVec_inj.1 hbits, Float.ofBits_toBits]

/-- The characters of a real's text. -/
def realChars (x : Float) : List Char := Value.reals.write .double x.toBits.toNat

theorem readReal?_realChars (x : Float) : readReal? (realChars x) = some x := by
  unfold realChars
  cases h : realMagnitude x with
  | finite d =>
    obtain ⟨s, hwrite, -, hread⟩ := readReal?_of_finite h
    rw [hwrite, hread]
  | infinite => exact readReal?_of_infinite h
  | notANumber =>
    rw [eq_ofBits_of_notANumber h]
    rfl

theorem visible_word {c : Char} {cs : List Char}
    (h : (c :: cs).all (fun c => !isBlank c) = true) :
    c :: cs ≠ [] ∧ ∀ d ∈ c :: cs, isBlank d = false :=
  ⟨List.cons_ne_nil _ _, by simpa using h⟩

/-- There is a text, and no white space in it. -/
theorem isBlank_realChars (x : Float) :
    realChars x ≠ [] ∧ ∀ c ∈ realChars x, isBlank c = false := by
  unfold realChars
  cases h : realMagnitude x with
  | finite d =>
    obtain ⟨s, hwrite, -, -⟩ := readReal?_of_finite h
    rw [hwrite]
    refine ⟨?_, isBlank_signed fun c hc => ?_⟩
    · unfold RealSpelling.chars RealSpelling.unsigned signed
      split <;> simp
    · rcases RealSpelling.mem_unsigned hc with hdigit | hsign
      · exact isBlank_of_isAsciiDigit hdigit
      · fin_cases hsign <;> decide
  | infinite =>
    have hinfinite : BinaryFormat.double.magnitude x.toBits.toNat = .infinite := h
    rw [NumberLayout.write, hinfinite]
    dsimp only
    split
    · exact visible_word rfl
    · exact visible_word rfl
  | notANumber =>
    have hnumber : BinaryFormat.double.magnitude x.toBits.toNat = .notANumber := h
    rw [NumberLayout.write, hnumber]
    exact visible_word rfl

theorem Function.toReal_inspect (x : Float) :
    toReal (.text (Value.real x).inspect) = .ok (.real x) := by
  obtain ⟨hne, hvisible⟩ := isBlank_realChars x
  have hnone : ∀ c ∈ ([] : List Char), isBlank c = true := by simp
  have htrim : (Value.real x).inspect.trim = (Value.real x).inspect := by
    have hsurrounded := Bytes.trim_surrounded hnone hne hvisible hnone
    rwa [Bytes.ofChars_nil, List.nil_append, List.append_nil] at hsurrounded
  rw [toReal, htrim, show (Value.real x).inspect = Bytes.ofChars (realChars x) from rfl,
    Bytes.chars_ofChars, readReal?_realChars]

/-- **Reals survive being written.** `real` reads what `str` writes as the same real: zeros of both
signs, the least numbers, infinities and what is no number included. A real that is a number is
spelled with a point between digits, and perhaps a power of ten; what is spelled is the number of its
shortest digits. -/
theorem reals_survive_text (x : Float) (scope : Option Nat) (forest : Forest) (host : Host) :
    (∃ t, FunctionTable.standard.invoke ⟨"str", [.real x], scope⟩ forest host =
        (.ok (.text t), forest, host) ∧
      FunctionTable.standard.invoke ⟨"real", [.text t], scope⟩ forest host =
        (.ok (.real x), forest, host)) ∧
    ∀ d, realMagnitude x = .finite d → ∃ s : RealSpelling,
      (Value.real x).inspect = Bytes.ofChars s.chars ∧
        s.value = if realIsNegative x then -(Decimal.shortest .double d).value
          else (Decimal.shortest .double d).value := by
  refine ⟨⟨(Value.real x).inspect, rfl, ?_⟩, fun d hd => ?_⟩
  · show ((Function.toReal _).mapError _, forest, host) = _
    rw [Function.toReal_inspect]
    rfl
  · obtain ⟨s, hwrite, hvalue, -⟩ := readReal?_of_finite hd
    exact ⟨s, congrArg Bytes.ofChars hwrite, hvalue⟩

/-- The greatest number below zero. -/
theorem reals_survive_text_least :
    realMagnitude (Float.ofBits 0x8000000000000001) = .finite ⟨1, -1074⟩ ∧
      (∃ t, FunctionTable.standard.invoke ⟨"str", [.real (Float.ofBits 0x8000000000000001)], some 0⟩
            .root {} = (.ok (.text t), .root, {}) ∧
          FunctionTable.standard.invoke ⟨"real", [.text t], some 0⟩ .root {} =
            (.ok (.real (Float.ofBits 0x8000000000000001)), .root, {})) ∧
      ∃ s : RealSpelling,
        (Value.real (Float.ofBits 0x8000000000000001)).inspect = Bytes.ofChars s.chars ∧
          s.value = if realIsNegative (Float.ofBits 0x8000000000000001) then
              -(Decimal.shortest .double ⟨1, -1074⟩).value
            else (Decimal.shortest .double ⟨1, -1074⟩).value := by
  have hmagnitude : realMagnitude (Float.ofBits 0x8000000000000001) = .finite ⟨1, -1074⟩ := by
    decide +kernel
  obtain ⟨hread, hspelled⟩ :=
    reals_survive_text (Float.ofBits 0x8000000000000001) (some 0) .root {}
  exact ⟨hmagnitude, hread, hspelled _ hmagnitude⟩

end ChartScript
