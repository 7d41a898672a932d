import ChartScript.Decimal.Layout
import ChartScript.Proofs.Decimal.Digits
import ChartScript.Proofs.Decimal.Shortest
import ChartScript.Proofs.Text.Trimming

/-!
# How reals are spelled

A real that is neither infinite nor no number is written as a `RealSpelling`: a sign, digits on both
sides of a point, and perhaps a power of ten whose first digit is no zero. What a spelling denotes is
said here without regard to who writes it or who reads it. The layout of reals spells every decimal
by one that denotes it (`exists_spelling`), and every spelling is read as the rational number that it
denotes (`readUnsigned?_spelling`), as long as its power of ten is within reach.
-/

set_option autoImplicit false

namespace ChartScript

open Text

/-- Digits, of which there is at least one. -/
structure DigitRun where
  chars : List Char
  ne : chars ≠ []
  digits : chars.all isAsciiDigit = true

namespace DigitRun

theorem isAsciiDigit_of_mem (r : DigitRun) {c : Char} (h : c ∈ r.chars) : isAsciiDigit c = true :=
  List.all_eq_true.1 r.digits c h

theorem exists_cons (r : DigitRun) : ∃ c cs, r.chars = c :: cs ∧ isAsciiDigit c = true := by
  obtain ⟨c, cs, hcs⟩ := List.exists_cons_of_ne_nil r.ne
  exact ⟨c, cs, hcs, r.isAsciiDigit_of_mem (hcs ▸ List.mem_cons_self)⟩

/-- The number that digits spell. -/
def number (r : DigitRun) : ℕ := Nat.ofDigitChars 10 r.chars 0

/-- The digits of a number. -/
def ofNat (n : ℕ) : DigitRun :=
  ⟨Nat.toDigits 10 n, Nat.toDigits_ne_nil, all_isAsciiDigit_toDigits n⟩

theorem number_ofNat (n : ℕ) : (ofNat n).number = n := Nat.ofDigitChars_ten_toDigits

section

variable {digits : List Char} (hdigits : digits.all isAsciiDigit = true) {k : ℕ}

/-- Some digits in front. -/
def take (hpos : 0 < k) (hk : k ≤ digits.length) : DigitRun where
  chars := digits.take k
  ne := by
    rw [ne_eq, List.take_eq_nil_iff, not_or]
    exact ⟨hpos.ne', List.ne_nil_of_length_pos (hpos.trans_le hk)⟩
  digits := List.all_eq_true.2 fun c hc =>
    List.all_eq_true.1 hdigits c (List.mem_of_mem_take hc)

/-- The digits behind them, if there are any. -/
def drop {c : Char} {cs : List Char} (hdrop : digits.drop k = c :: cs) : DigitRun where
  chars := c :: cs
  ne := List.cons_ne_nil _ _
  digits := List.all_eq_true.2 fun d hd =>
    List.all_eq_true.1 hdigits d (List.mem_of_mem_drop (hdrop ▸ hd))

end

end DigitRun

/-- A real in decimal: a sign, digits before and behind the point, and a power of ten with a sign of
its own, which is not written with a zero in front. -/
structure RealSpelling where
  negative : Bool
  whole : DigitRun
  fraction : DigitRun
  exponent : Option (Bool × DigitRun)
  plain : ∀ e ∈ exponent, e.2.chars.head? ≠ some '0'

namespace RealSpelling

/-- The characters of the exponent and the mark in front of it. -/
def exponentChars (s : RealSpelling) : List Char :=
  match s.exponent with
  | none => []
  | some (negative, digits) => 'E' :: signed negative digits.chars

/-- The characters behind the sign. -/
def unsigned (s : RealSpelling) : List Char :=
  s.whole.chars ++ '.' :: s.fraction.chars ++ s.exponentChars

/-- All characters. -/
def chars (s : RealSpelling) : List Char := signed s.negative s.unsigned

/-- The power of ten, zero if none is written. -/
def power (s : RealSpelling) : ℤ :=
  match s.exponent with
  | none => 0
  | some (negative, digits) => if negative then -(digits.number : ℤ) else digits.number

/-- The rational number that is denoted, without its sign. -/
def magnitude (s : RealSpelling) : ℚ :=
  Nat.ofDigitChars 10 (s.whole.chars ++ s.fraction.chars) 0 *
    10 ^ (s.power - s.fraction.chars.length)

/-- The rational number that is denoted. -/
def value (s : RealSpelling) : ℚ := if s.negative then -s.magnitude else s.magnitude

/-- A spelling has digits and three signs. -/
theorem mem_unsigned {s : RealSpelling} {c : Char} (h : c ∈ s.unsigned) :
    isAsciiDigit c = true ∨ c ∈ ['.', 'E', '-'] := by
  rcases List.mem_append.1 h with hbody | hexponent
  · rcases List.mem_append.1 hbody with hwhole | hfraction
    · exact .inl (s.whole.isAsciiDigit_of_mem hwhole)
    · rcases List.mem_cons.1 hfraction with rfl | hfraction
      · exact .inr (by decide)
      · exact .inl (s.fraction.isAsciiDigit_of_mem hfraction)
  · unfold exponentChars at hexponent
    split at hexponent
    · cases hexponent
    · next digits _ =>
      rcases List.mem_cons.1 hexponent with rfl | hexponent
      · exact .inr (by decide)
      rcases mem_signed hexponent with rfl | hexponent
      · exact .inr (by decide)
      · exact .inl (digits.isAsciiDigit_of_mem hexponent)

end RealSpelling

/-! ## Writing -/

namespace Decimal

/-- The place of the leading digit. -/
def top (x : Decimal) : ℤ := (Nat.toDigits 10 x.coefficient).length - 1 + x.exponent

theorem top_bounds {x : Decimal} (h : x.coefficient ≠ 0) :
    10 ^ x.top ≤ x.value ∧ x.value < 10 ^ (x.top + 1) := by
  set n := (Nat.toDigits 10 x.coefficient).length with hn
  have hpos : 0 < n := Nat.length_toDigits_pos
  have hlow : 10 ^ (n - 1) ≤ x.coefficient := by
    rcases Nat.eq_zero_or_pos (n - 1) with hzero | hpos'
    · rw [hzero]
      omega
    · by_contra hlt
      have hle := (Nat.length_toDigits_le_iff (by decide) hpos').2 (not_le.1 hlt)
      omega
  have hhigh : x.coefficient < 10 ^ n := (Nat.length_toDigits_le_iff (by decide) hpos).1 hn.ge
  have htop : x.top = (n - 1 : ℕ) + x.exponent := by
    rw [top, ← hn]
    omega
  have hlow' : (10 : ℚ) ^ (n - 1) ≤ x.coefficient := by exact_mod_cast hlow
  have hhigh' : (x.coefficient : ℚ) < 10 ^ n := by exact_mod_cast hhigh
  have hten : (10 : ℚ) ≠ 0 := by norm_num
  constructor
  · rw [htop, value, zpow_add₀ hten, zpow_natCast]
    gcongr
  · have hsucc : x.top + 1 = (n : ℤ) + x.exponent := by omega
    rw [hsucc, value, zpow_add₀ hten, zpow_natCast]
    gcongr

end Decimal

theorem head?_toDigits_ne {n : ℕ} (h : n ≠ 0) : (Nat.toDigits 10 n).head? ≠ some '0' := by
  induction n using Nat.strong_induction_on with
  | _ n ih =>
    by_cases hn : n < 10
    · rw [Nat.toDigits_of_lt_base hn, List.head?_cons, ne_eq, Option.some.injEq]
      intro hzero
      have hcode := Nat.toNat_digitChar_of_lt_ten hn
      rw [hzero] at hcode
      exact h (by simpa using hcode.symm)
    · rw [Nat.toDigits_of_base_le (by decide) (not_lt.1 hn),
        List.head?_append_of_ne_nil _ Nat.toDigits_ne_nil]
      exact ih (n / 10) (by omega) (by omega)

namespace NumberLayout

variable (layout : NumberLayout)

/-- An exponent that needs no zeros in front is its sign and its digits. -/
theorem exponentText_eq (h : layout.exponentWidth = 1) (x : ℤ) :
    layout.exponentText x =
      (if x < 0 then ['-'] else if layout.plusSign then ['+'] else []) ++
        Nat.toDigits 10 x.natAbs := by
  have hpos : 0 < (Nat.toDigits 10 x.natAbs).length := Nat.length_toDigits_pos
  have hzeros : layout.exponentWidth - (Nat.toDigits 10 x.natAbs).length = 0 := by omega
  unfold exponentText
  dsimp only
  rw [hzeros, List.replicate_zero, List.append_nil]

/-- Where the point of a positional text stands: behind zeros that fill the digits up, among the
digits, or behind a zero in front of all of them. In front of the point the digits begin with a zero
only if it is the one digit there, or if the decimal is a zero with zeros behind it. -/
theorem positional_eq (x : Decimal) :
    ∃ (digits : List Char) (k : ℕ), digits.all isAsciiDigit = true ∧ 0 < k ∧ k ≤ digits.length ∧
      layout.positional x = layout.withPoint (digits.take k) (digits.drop k) ∧
      (Nat.ofDigitChars 10 digits 0 : ℚ) * 10 ^ ((k : ℤ) - digits.length) = x.value ∧
      ((x.coefficient = 0 → x.exponent = 0) →
        digits.take k = ['0'] ∨ (digits.take k).head? ≠ some '0') := by
  have hall := all_isAsciiDigit_toDigits x.coefficient
  have hlength : 0 < (Nat.toDigits 10 x.coefficient).length := Nat.length_toDigits_pos
  have hzeros : ∀ n : ℕ, (List.replicate n '0').all isAsciiDigit = true := fun n =>
    List.all_eq_true.2 fun c hc => by rw [List.eq_of_mem_replicate hc]; rfl
  unfold positional Decimal.value
  dsimp only
  by_cases he : 0 ≤ x.exponent
  · obtain ⟨n, hn⟩ := Int.eq_ofNat_of_zero_le he
    refine ⟨Nat.toDigits 10 x.coefficient ++ List.replicate n '0', _, ?_, ?_, le_rfl, ?_, ?_, ?_⟩
    · rw [List.all_append, hall, hzeros]
      rfl
    · rw [List.length_append]
      omega
    · rw [if_pos he, hn, Int.toNat_natCast, List.take_length, List.drop_length]
    · rw [Nat.ofDigitChars_append, Nat.ofDigitChars_ten_toDigits, Nat.ofDigitChars_replicate_zero,
        hn, sub_self]
      push_cast
      rw [zpow_natCast]
      ring
    · intro hzero
      rw [List.take_length]
      by_cases hcoefficient : x.coefficient = 0
      · obtain rfl : n = 0 := by have := hzero hcoefficient; omega
        rw [hcoefficient]
        exact .inl rfl
      · rw [List.head?_append_of_ne_nil _ Nat.toDigits_ne_nil]
        exact .inr (head?_toDigits_ne hcoefficient)
  · obtain ⟨n, hn⟩ := Int.eq_ofNat_of_zero_le (show 0 ≤ -x.exponent by omega)
    have hexponent : x.exponent = -(n : ℤ) := by omega
    rw [if_neg he, hn, Int.toNat_natCast, hexponent]
    by_cases hplaces : n < (Nat.toDigits 10 x.coefficient).length
    · refine ⟨Nat.toDigits 10 x.coefficient, _, hall, ?_, Nat.sub_le _ n, if_pos hplaces, ?_, ?_⟩
      · omega
      · rw [Nat.ofDigitChars_ten_toDigits]
        congr 2
        omega
      · intro hzero
        have hcoefficient : x.coefficient ≠ 0 := fun h => by have := hzero h; omega
        rw [List.head?_take, if_neg (by omega)]
        exact .inr (head?_toDigits_ne hcoefficient)
    · refine ⟨'0' :: (List.replicate (n - (Nat.toDigits 10 x.coefficient).length) '0' ++
        Nat.toDigits 10 x.coefficient), 1, ?_, one_pos, ?_, if_neg hplaces, ?_, fun _ => .inl rfl⟩
      · rw [List.all_cons, List.all_append, hall, hzeros]
        rfl
      · simp
      · rw [Nat.ofDigitChars_cons, Nat.ofDigitChars_append, Nat.ofDigitChars_replicate_zero]
        simp only [Nat.sub_self, Nat.mul_zero, Nat.add_zero, Nat.ofDigitChars_ten_toDigits,
          List.length_cons, List.length_append, List.length_replicate]
        congr 2
        omega

end NumberLayout

namespace Value

/-- The exponent of a real is as short as can be. -/
theorem exponentText_reals (x : ℤ) : reals.exponentText x = intChars x := by
  rw [reals.exponentText_eq rfl, intChars, signed]
  by_cases hx : x < 0
  · simp [hx]
  · simp [hx, reals]

/-- A point among digits: behind the last of them a zero follows it. -/
theorem exists_runs {digits : List Char} (hdigits : digits.all isAsciiDigit = true) {k : ℕ}
    (hpos : 0 < k) (hk : k ≤ digits.length) :
    ∃ whole fraction : DigitRun,
      reals.withPoint (digits.take k) (digits.drop k) = whole.chars ++ '.' :: fraction.chars ∧
        (Nat.ofDigitChars 10 (whole.chars ++ fraction.chars) 0 : ℚ) *
            10 ^ (-(fraction.chars.length : ℤ)) =
          Nat.ofDigitChars 10 digits 0 * 10 ^ ((k : ℤ) - digits.length) := by
  cases hdrop : digits.drop k with
  | nil =>
    refine ⟨.take hdigits hpos hk, ⟨['0'], List.cons_ne_nil _ _, rfl⟩, rfl, ?_⟩
    have hlength : k = digits.length := le_antisymm hk (List.drop_eq_nil_iff.1 hdrop)
    have htake : digits.take k = digits := by rw [hlength, List.take_length]
    show (Nat.ofDigitChars 10 (digits.take k ++ ['0']) 0 : ℚ) * 10 ^ (-((1 : ℕ) : ℤ)) = _
    rw [htake, Nat.ofDigitChars_append, ← List.replicate_one, Nat.ofDigitChars_replicate_zero,
      hlength, sub_self]
    push_cast
    norm_num
    ring
  | cons c cs =>
    refine ⟨.take hdigits hpos hk, .drop hdigits hdrop, rfl, ?_⟩
    have hlength : (c :: cs).length = digits.length - k := by rw [← hdrop, List.length_drop]
    show (Nat.ofDigitChars 10 (digits.take k ++ c :: cs) 0 : ℚ) * 10 ^ (-((c :: cs).length : ℤ)) = _
    rw [← hdrop, List.take_append_drop, List.length_drop]
    congr 2
    omega

/-- **Every decimal is spelled by what denotes it.** -/
theorem exists_spelling (x : Decimal) (negative : Bool) :
    ∃ s : RealSpelling, s.negative = negative ∧ s.unsigned = reals.unsigned x ∧
      s.magnitude = x.value ∧ (s.power = 0 ∨ x.coefficient ≠ 0 ∧ s.power = x.top) := by
  unfold NumberLayout.unsigned
  dsimp only
  split
  · obtain ⟨digits, k, hdigits, hpos, hk, hposition, hvalue, -⟩ := reals.positional_eq x
    obtain ⟨whole, fraction, hpoint, hnumber⟩ := exists_runs hdigits hpos hk
    refine ⟨⟨negative, whole, fraction, none, by simp⟩, rfl, ?_, ?_, .inl rfl⟩
    · rw [hposition, hpoint, RealSpelling.unsigned]
      exact List.append_nil _
    · rw [← hvalue, ← hnumber, RealSpelling.magnitude, RealSpelling.power, zero_sub]
  · next hfar =>
    obtain ⟨hcoefficient, htop⟩ := not_or.1 hfar
    obtain ⟨whole, fraction, hpoint, hnumber⟩ := exists_runs
      (all_isAsciiDigit_toDigits x.coefficient) one_pos Nat.length_toDigits_pos
    have hpower : x.top ≠ 0 := by
      intro hzero
      rw [Decimal.top] at hzero
      exact htop ⟨by rw [hzero]; decide, by rw [hzero]; decide⟩
    have hplain : ∀ e ∈ some (decide (x.top < 0), DigitRun.ofNat x.top.natAbs),
        e.2.chars.head? ≠ some '0' := by
      rintro e he
      rw [← Option.some.inj he]
      exact head?_toDigits_ne (Int.natAbs_ne_zero.2 hpower)
    let s : RealSpelling := ⟨negative, whole, fraction, _, hplain⟩
    have hten : (10 : ℚ) ≠ 0 := by norm_num
    have hs : s.power = x.top := by
      show (if decide (x.top < 0) = true then -((DigitRun.ofNat _).number : ℤ)
        else (DigitRun.ofNat _).number) = x.top
      rw [DigitRun.number_ofNat, signed_natAbs]
    refine ⟨s, rfl, ?_, ?_, .inr ⟨hcoefficient, hs⟩⟩
    · rw [hpoint, exponentText_reals]
      rfl
    · rw [RealSpelling.magnitude, hs, sub_eq_neg_add, zpow_add₀ hten, ← mul_assoc, hnumber,
        Nat.ofDigitChars_ten_toDigits, mul_assoc, ← zpow_add₀ hten, Decimal.value, Decimal.top]
      congr 2
      omega

end Value

/-! ## Reading -/

namespace Numeral

theorem ne_of_isAsciiDigit {c d : Char} (hc : isAsciiDigit c = true) (hd : isAsciiDigit d = false) :
    c ≠ d := by
  rintro rfl
  rw [hc] at hd
  cases hd

theorem digit?_decimal {c : Char} (h : isAsciiDigit c = true) :
    Radix.decimal.digit? c = some (c.toNat - 48) := if_pos h

theorem filterMap_digit? {cs : List Char} (h : cs.all isAsciiDigit = true) :
    cs.filterMap Radix.decimal.digit? = cs.map fun c => c.toNat - 48 := by
  rw [← List.filterMap_eq_map]
  exact List.filterMap_congr fun c hc => digit?_decimal (List.all_eq_true.1 h c hc)

theorem foldl_digits (cs : List Char) :
    (cs.map fun c => c.toNat - 48).foldl (fun n d => n * Radix.decimal.base + d) 0 =
      Nat.ofDigitChars 10 cs 0 := by
  rw [List.foldl_map, ← digitsValue_eq]
  rfl

/-- Without underscores nothing is out of place. -/
theorem separatorsOk_of_not_mem (r : Radix) {cs : List Char} (h : '_' ∉ cs) (after : Bool) :
    separatorsOk r after cs = true := by
  induction cs generalizing after with
  | nil => rfl
  | cons c cs ih =>
    rw [List.mem_cons, not_or] at h
    rw [separatorsOk, if_neg (by simpa using Ne.symm h.1)]
    exact ih h.2 _

/-- The digits of an exponent add up as usual as long as they are within reach. -/
theorem exponentValue_foldl {cs : List Char} {n : ℕ}
    (h : cs.foldl (fun n c => n * 10 + (c.toNat - 48)) n < 100000) :
    cs.foldl (fun n c => if n < 10000 then n * 10 + (c.toNat - 48) else n) n =
      cs.foldl (fun n c => n * 10 + (c.toNat - 48)) n := by
  have hle : ∀ (cs : List Char) (n : ℕ), n ≤ cs.foldl (fun n c => n * 10 + (c.toNat - 48)) n := by
    intro cs
    induction cs with
    | nil => exact fun n => le_rfl
    | cons c cs ih =>
      intro n
      rw [List.foldl_cons]
      exact le_trans (by omega) (ih _)
  induction cs generalizing n with
  | nil => rfl
  | cons c cs ih =>
    rw [List.foldl_cons] at h
    have hn := hle cs (n * 10 + (c.toNat - 48))
    rw [List.foldl_cons, List.foldl_cons, if_pos (by omega)]
    exact ih h

theorem exponentValue_eq (r : DigitRun) (h : r.number < 100000) :
    exponentValue r.chars = r.number := by
  have hfilter : r.chars.filter isAsciiDigit = r.chars :=
    List.filter_eq_self.2 (List.all_eq_true.1 r.digits)
  rw [DigitRun.number, ← digitsValue_eq] at h ⊢
  rw [exponentValue, hfilter]
  exact exponentValue_foldl h

theorem readExponent?_spelling (s : RealSpelling) (h : |s.power| < 100000) :
    readExponent? .decimal s.exponentChars = some s.power := by
  cases he : s.exponent with
  | none =>
    rw [RealSpelling.exponentChars, RealSpelling.power, he]
    rfl
  | some e =>
    obtain ⟨negative, digits⟩ := e
    rw [RealSpelling.power, he] at h
    rw [RealSpelling.exponentChars, RealSpelling.power, he]
    dsimp only at h ⊢
    obtain ⟨c, cs, hcs, hc⟩ := digits.exists_cons
    have hsplit : splitSign (signed negative digits.chars) = (negative, digits.chars) := by
      rw [hcs]
      exact splitSign_signed negative hc
    have hhead : digits.chars.head?.any isAsciiDigit = true := by
      rw [hcs]
      exact hc
    have hall : digits.chars.all (fun c => isAsciiDigit c || c == '_') = true :=
      List.all_eq_true.2 fun d hd => by simp [digits.isAsciiDigit_of_mem hd]
    have hnumber : digits.number < 100000 := by
      rw [abs_lt] at h
      split at h <;> omega
    rw [readExponent?, hsplit]
    dsimp only
    rw [if_pos (by simp [Radix.isExponentMark, hhead, hall]), exponentValue_eq digits hnumber]

/-- **A spelling is read as the rational number it denotes.** -/
theorem readUnsigned?_spelling (s : RealSpelling) (h : |s.power| < 100000) :
    ∃ q, readUnsigned? .decimal s.unsigned = some q ∧ 0 < q.den ∧ q.value = s.magnitude := by
  have hdigit : ∀ r : DigitRun, ∀ c ∈ r.chars, isAsciiDigit c = true :=
    fun r _ hc => r.isAsciiDigit_of_mem hc
  -- The body is the digits and the point, the exponent comes behind it.
  have hbody : (s.whole.chars ++ '.' :: s.fraction.chars).all
      (fun c => Radix.decimal.isDigit c || c == '_' || c == '.') = true := by
    refine List.all_eq_true.2 fun c hc => ?_
    rcases List.mem_append.1 hc with hc | hc
    · simp [Radix.isDigit, digit?_decimal (hdigit _ c hc)]
    · rcases List.mem_cons.1 hc with rfl | hc
      · rfl
      · simp [Radix.isDigit, digit?_decimal (hdigit _ c hc)]
  have hmark : ∀ c ∈ s.exponentChars.head?,
      (Radix.decimal.isDigit c || c == '_' || c == '.') = false := by
    intro c hc
    unfold RealSpelling.exponentChars at hc
    split at hc
    · cases hc
    · obtain rfl := Option.some.inj hc
      decide
  obtain ⟨htake, hdrop⟩ := takeWhile_stop hbody hmark
  have hplain : s.whole.chars.all (· != '.') = true := by
    refine List.all_eq_true.2 fun c hc => ?_
    exact bne_iff_ne.2 (ne_of_isAsciiDigit (hdigit _ c hc) (by decide))
  obtain ⟨htake', hdrop'⟩ := takeWhile_stop hplain
    (show ∀ c ∈ ('.' :: s.fraction.chars).head?, (c != '.') = false by simp)
  unfold readUnsigned?
  dsimp only
  rw [RealSpelling.unsigned, htake, hdrop, htake', hdrop', readExponent?_spelling s h]
  rw [List.drop_one, List.tail_cons]
  have hdigits : (s.whole.chars ++ s.fraction.chars).all isAsciiDigit = true := by
    rw [List.all_append, s.whole.digits, s.fraction.digits]
    rfl
  have hpoint : '.' ∉ s.fraction.chars := fun hmem =>
    ne_of_isAsciiDigit (hdigit _ _ hmem) (by decide) rfl
  have hunderscore : '_' ∉ s.whole.chars ++ '.' :: s.fraction.chars ++ s.exponentChars := by
    intro hmem
    rcases RealSpelling.mem_unsigned hmem with hdigit | hsign
    · exact absurd hdigit (by decide)
    · exact absurd hsign (by decide)
  rw [filterMap_digit? hdigits, filterMap_digit? s.fraction.digits,
    separatorsOk_of_not_mem _ hunderscore, foldl_digits, if_neg (by simp [s.whole.ne, hpoint]),
    List.length_map, Option.map_some]
  refine ⟨_, rfl, Fraction.den_scaled_pos _ (by decide) _, ?_⟩
  rw [Fraction.value_scaled]
  rfl

end Numeral

end ChartScript
