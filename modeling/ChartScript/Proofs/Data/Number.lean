import ChartScript.Data.JsonToken
import ChartScript.Proofs.Decimal.Packing
import ChartScript.Proofs.Decimal.Spelling

/-!
# Numbers in JSON

A number in JSON is a `NumberSpelling`: a sign, digits that begin with a zero only if they are a
single zero, and perhaps a fraction and a power of ten. A spelling is read to its end, whatever may
follow a number (`number?_spelling`). Integers are spelled so, and so is every real that is a
number, in the layout of `Datum.numbers` (`exists_ofReal`).
-/

set_option autoImplicit false

namespace ChartScript

open Text

/-- A number in JSON. -/
structure NumberSpelling where
  negative : Bool
  whole : DigitRun
  fraction : Option DigitRun
  exponent : Option (Bool × DigitRun)
  plain : whole.chars = ['0'] ∨ whole.chars.head? ≠ some '0'

namespace NumberSpelling

/-- The characters of the fraction and the point in front of it. -/
def fractionChars (s : NumberSpelling) : List Char :=
  match s.fraction with
  | none => []
  | some digits => '.' :: digits.chars

/-- The characters of the exponent, the mark in front of it and its sign. -/
def exponentChars (s : NumberSpelling) : List Char :=
  match s.exponent with
  | none => []
  | some (negative, digits) => 'e' :: (if negative then '-' else '+') :: digits.chars

/-- All characters. -/
def chars (s : NumberSpelling) : List Char :=
  signed s.negative (s.whole.chars ++ (s.fractionChars ++ s.exponentChars))

/-- A sign or a digit comes first. -/
theorem exists_cons (s : NumberSpelling) :
    ∃ c cs, s.chars = c :: cs ∧ (c = '-' ∨ isAsciiDigit c = true) := by
  obtain ⟨c, cs, hcs, hc⟩ := s.whole.exists_cons
  rw [chars, hcs]
  cases s.negative with
  | true => exact ⟨_, _, rfl, .inl rfl⟩
  | false => exact ⟨_, _, rfl, .inr hc⟩

/-- A spelling has digits and four signs. -/
theorem mem_chars {s : NumberSpelling} {c : Char} (h : c ∈ s.chars) :
    isAsciiDigit c = true ∨ c ∈ ['-', '+', '.', 'e'] := by
  rcases mem_signed h with rfl | h
  · exact .inr (by decide)
  rcases List.mem_append.1 h with hwhole | h
  · exact .inl (s.whole.isAsciiDigit_of_mem hwhole)
  rcases List.mem_append.1 h with hfraction | hexponent
  · unfold fractionChars at hfraction
    split at hfraction
    · cases hfraction
    · next digits _ =>
      rcases List.mem_cons.1 hfraction with rfl | hfraction
      · exact .inr (by decide)
      · exact .inl (digits.isAsciiDigit_of_mem hfraction)
  · unfold exponentChars at hexponent
    split at hexponent
    · cases hexponent
    · next negative digits _ =>
      rcases List.mem_cons.1 hexponent with rfl | hexponent
      · exact .inr (by decide)
      rcases List.mem_cons.1 hexponent with rfl | hexponent
      · cases negative <;> exact .inr (by decide)
      · exact .inl (digits.isAsciiDigit_of_mem hexponent)


end NumberSpelling

/-! ## Reading -/

theorem signed_append (negative : Bool) (cs rest : List Char) :
    signed negative cs ++ rest = signed negative (cs ++ rest) := by
  cases negative <;> rfl

namespace JsonToken

/-- The marks that end a value. -/
def endings : List Char := [',', ':', ']', '\x7d', '\n']

/-- What may stand behind a value: nothing, or something that begins with a mark that ends one. -/
def Ends (rest : List Char) : Prop := ∀ c ∈ rest.head?, c ∈ endings

namespace Ends

variable {rest : List Char}

theorem head (h : Ends rest) {p : Char → Bool} (hp : endings.any p = false) :
    ∀ c ∈ rest.head?, p c = false :=
  fun c hc => Bool.eq_false_iff.2 (List.any_eq_false.1 hp c (h c hc))

theorem cons {c : Char} (h : c ∈ endings) : Ends (c :: rest) :=
  fun _ hd => Option.some.inj hd ▸ h

theorem append {cs : List Char} (hcs : Ends cs) (h : Ends rest) : Ends (cs ++ rest) := by
  cases cs with
  | nil => exact h
  | cons c cs => exact .cons (hcs c rfl)

/-- Behind a number there is no exponent. -/
theorem exponent? (h : Ends rest) : JsonToken.exponent? rest = some rest := by
  cases rest with
  | nil => rfl
  | cons c rest =>
    have hmark := h.head (p := fun c => c == 'e' || c == 'E') rfl c rfl
    unfold JsonToken.exponent?
    dsimp only
    rw [hmark, if_neg Bool.false_ne_true]

end Ends

theorem digits?_run (r : DigitRun) {rest : List Char}
    (h : ∀ c ∈ rest.head?, isAsciiDigit c = false) : digits? (r.chars ++ rest) = some rest := by
  have hdrop := (takeWhile_stop r.digits h).2
  unfold isAsciiDigit at hdrop
  have hlength := List.length_pos_iff.2 r.ne
  rw [digits?, hdrop, if_pos (by rw [List.length_append]; omega)]

theorem exponent?_spelling (s : NumberSpelling) {rest : List Char} (h : Ends rest) :
    exponent? (s.exponentChars ++ rest) = some rest := by
  unfold NumberSpelling.exponentChars
  split
  · exact h.exponent?
  · next negative digits _ =>
    have hdigits := digits?_run digits (h.head rfl)
    cases negative <;> exact hdigits

/-- An exponent or what ends a number begins with neither a digit nor a point. -/
theorem head_exponentChars (s : NumberSpelling) {rest : List Char} (h : Ends rest)
    {p : Char → Bool} (hmark : p 'e' = false) (hp : endings.any p = false) :
    ∀ c ∈ (s.exponentChars ++ rest).head?, p c = false := by
  unfold NumberSpelling.exponentChars
  split
  · exact h.head hp
  · rintro c hc
    obtain rfl := Option.some.inj hc
    exact hmark

/-- Where no point stands there is no fraction. -/
theorem fraction?_of_head {cs : List Char} (h : ∀ c ∈ cs.head?, (c == '.') = false) :
    fraction? cs = some cs := by
  unfold fraction?
  split
  · exact absurd (h '.' rfl) (by decide)
  · rfl

theorem fraction?_spelling (s : NumberSpelling) {rest : List Char} (h : Ends rest) :
    fraction? (s.fractionChars ++ (s.exponentChars ++ rest)) = some (s.exponentChars ++ rest) := by
  unfold NumberSpelling.fractionChars
  split
  · exact fraction?_of_head (head_exponentChars s h rfl rfl)
  · next digits _ => exact digits?_run digits (head_exponentChars s h rfl rfl)

theorem head_fractionChars (s : NumberSpelling) {rest : List Char} (h : Ends rest) :
    ∀ c ∈ (s.fractionChars ++ (s.exponentChars ++ rest)).head?, isAsciiDigit c = false := by
  unfold NumberSpelling.fractionChars
  split
  · exact head_exponentChars s h rfl rfl
  · rintro c hc
    obtain rfl := Option.some.inj hc
    decide

theorem whole?_spelling (s : NumberSpelling) {rest : List Char}
    (h : ∀ c ∈ rest.head?, isAsciiDigit c = false) :
    whole? (s.whole.chars ++ rest) = some rest := by
  rcases s.plain with hzero | hplain
  · rw [hzero]
    rfl
  · rw [← digits?_run s.whole h]
    obtain ⟨c, cs, hcs, -⟩ := s.whole.exists_cons
    rw [hcs] at hplain ⊢
    unfold whole?
    split
    · next heq =>
      obtain rfl := (List.cons.inj heq).1
      exact absurd rfl hplain
    · rfl

/-- A minus in front is stepped over. -/
theorem number?_signed (negative : Bool) {c : Char} (hc : isAsciiDigit c = true)
    (cs : List Char) :
    number? (signed negative (c :: cs)) =
      (whole? (c :: cs)).bind fun r => (fraction? r).bind exponent? := by
  cases negative with
  | true => rfl
  | false =>
    unfold number? signed
    split
    · next heq =>
      obtain rfl := (List.cons.inj heq).1
      cases hc
    · rfl

/-- **A spelling is read to its end.** -/
theorem number?_spelling (s : NumberSpelling) {rest : List Char} (h : Ends rest) :
    number? (s.chars ++ rest) = some rest := by
  obtain ⟨c, cs, hcs, hc⟩ := s.whole.exists_cons
  have hsplit : s.chars ++ rest =
      signed s.negative (s.whole.chars ++ (s.fractionChars ++ (s.exponentChars ++ rest))) := by
    rw [NumberSpelling.chars, signed_append, List.append_assoc, List.append_assoc]
  have hwhole := whole?_spelling s (head_fractionChars s h)
  rw [hcs] at hsplit hwhole
  rw [hsplit, List.cons_append, number?_signed s.negative hc, ← List.cons_append, hwhole,
    Option.bind_some, fraction?_spelling s h, Option.bind_some, exponent?_spelling s h]

end JsonToken

/-! ## Writing -/

namespace NumberSpelling

theorem plain_toDigits (n : ℕ) :
    Nat.toDigits 10 n = ['0'] ∨ (Nat.toDigits 10 n).head? ≠ some '0' := by
  by_cases hn : n = 0
  · rw [hn]
    exact .inl rfl
  · exact .inr (head?_toDigits_ne hn)

/-- An integer is spelled by its sign and its digits. -/
def ofInt (n : ℤ) : NumberSpelling :=
  ⟨n < 0, .ofNat n.natAbs, none, none, plain_toDigits n.natAbs⟩

theorem chars_ofInt (n : ℤ) : (ofInt n).chars = intChars n := congrArg _ (List.append_nil _)

variable {digits : List Char} {k : ℕ}

/-- A point among digits: there is none behind the last of them. -/
theorem exists_pointed (negative : Bool) (exponent : Option (Bool × DigitRun))
    (hdigits : digits.all isAsciiDigit = true) (hpos : 0 < k) (hk : k ≤ digits.length)
    (hplain : digits.take k = ['0'] ∨ (digits.take k).head? ≠ some '0') :
    ∃ s : NumberSpelling, s.negative = negative ∧ s.exponent = exponent ∧
      s.whole.chars ++ s.fractionChars =
        Datum.numbers.withPoint (digits.take k) (digits.drop k) := by
  let whole : DigitRun := .take hdigits hpos hk
  cases hdrop : digits.drop k with
  | nil => exact ⟨⟨negative, whole, none, exponent, hplain⟩, rfl, rfl, List.append_nil _⟩
  | cons c cs =>
    exact ⟨⟨negative, whole, some (.drop hdigits hdrop), exponent, hplain⟩, rfl, rfl, rfl⟩

/-- An exponent has a sign in any case. -/
theorem exponentText_numbers (x : ℤ) :
    Datum.numbers.exponentText x =
      (if decide (x < 0) = true then '-' else '+') :: Nat.toDigits 10 x.natAbs := by
  rw [Datum.numbers.exponentText_eq rfl]
  by_cases hx : x < 0
  · rw [if_pos hx, decide_eq_true hx]
    rfl
  · rw [if_neg hx, decide_eq_false hx]
    rfl

/-- A decimal is spelled with or without a power of ten. -/
theorem exists_unsigned (negative : Bool) {x : Decimal} (hx : x.coefficient = 0 → x.exponent = 0) :
    ∃ s : NumberSpelling, s.chars = signed negative (Datum.numbers.unsigned x) := by
  unfold NumberLayout.unsigned
  dsimp only
  split
  · obtain ⟨digits, k, hdigits, hpos, hk, hposition, -, hplain⟩ := Datum.numbers.positional_eq x
    obtain ⟨s, rfl, hexponent, hpoint⟩ := exists_pointed negative none hdigits hpos hk (hplain hx)
    refine ⟨s, ?_⟩
    rw [hposition, ← hpoint, chars, exponentChars, hexponent, List.append_nil]
  · next hfar =>
    obtain ⟨hcoefficient, -⟩ := not_or.1 hfar
    have hplain : ((Nat.toDigits 10 x.coefficient).take 1).head? ≠ some '0' := by
      rw [List.head?_take, if_neg one_ne_zero]
      exact head?_toDigits_ne hcoefficient
    obtain ⟨s, rfl, hexponent, hpoint⟩ := exists_pointed negative
      (some (decide (x.top < 0), .ofNat x.top.natAbs)) (all_isAsciiDigit_toDigits x.coefficient)
      one_pos Nat.length_toDigits_pos (.inr hplain)
    refine ⟨s, ?_⟩
    rw [← hpoint, exponentText_numbers, chars, exponentChars, hexponent, List.append_assoc]
    rfl

/-- **Every real that is a number is spelled.** -/
theorem exists_ofReal {x : Float} (hx : x.isFinite = true) :
    ∃ s : NumberSpelling, Datum.numbers.write .double x.toBits.toNat = s.chars := by
  obtain ⟨d, hd⟩ := exists_finite hx
  have hfinite : BinaryFormat.double.magnitude x.toBits.toNat = .finite d := hd
  obtain ⟨hnumber, -⟩ := BinaryFormat.of_magnitude (by decide) (by decide) hd
  obtain ⟨s, hs⟩ := exists_unsigned (realIsNegative x)
    (Decimal.exponent_shortest (by decide) hnumber)
  refine ⟨s, ?_⟩
  rw [NumberLayout.write, hfinite, hs]
  rfl

end NumberSpelling

end ChartScript
