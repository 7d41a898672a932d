import ChartScript.Function.Standard
import ChartScript.Proofs.Decimal.Digits
import ChartScript.Proofs.Text.Trimming
import ChartScript.Proofs.Token.Lines

/-!
# Integers as texts

An integer is written in one way and read in two. The function `int` reads the text of any integer
back, whatever white space stands around it. A literal has no sign, and any digits make one: as far
as they spell a number of 64 bits it has that number for its value, and beyond that it is refused as
out of range where it begins. Both readers come down to `readInteger?`.
-/

set_option autoImplicit false

namespace ChartScript

open Text

/-! ## Literals -/

namespace Lexer

theorem splitGap_digit {c : Char} (hc : isAsciiDigit c = true) (rest : List Char) :
    splitGap (c :: rest) = .ok ([], c :: rest) := by
  obtain ⟨hopen, -, hslash⟩ := opening_of_isAsciiDigit hc
  exact splitGap_none hopen fun h => absurd h hslash

variable {digits : List Char} (hne : digits ≠ []) (hdigits : digits.all isAsciiDigit = true)

include hne hdigits

/-- Digits that spell an integer are one token, up to where they end. -/
theorem lexFrom_digits {n : Int64} (hread : readInteger? digits = some n) (rest : List Char)
    (hstop : ∀ d ∈ rest.head?, isAsciiDigit d = false ∧ d ≠ '.') (p : Pos) :
    lexFrom p (digits ++ rest) = (lexFrom (p.advanceBy digits) rest).map
      (⟨.int, Bytes.ofChars digits, .integer n, p⟩ :: ·) := by
  have hspelt : Spelt ⟨.int, digits, .integer n⟩ rest := by
    refine .int hne hdigits hread (fun d hd => (hstop d hd).1) ?_
    rintro d after rfl
    exact absurd rfl (hstop '.' rfl).2
  obtain ⟨c, cs, rfl⟩ := List.exists_cons_of_ne_nil hne
  have hc := List.all_eq_true.1 hdigits c List.mem_cons_self
  exact lexFrom_lexeme p (splitGap_digit hc _) (hspelt.splitLexeme rfl)

theorem lex_digits {n : Int64} (hread : readInteger? digits = some n) :
    lex (Bytes.ofChars digits) = .ok [⟨.int, Bytes.ofChars digits, .integer n, .start⟩] := by
  have hlex := lexFrom_digits hne hdigits hread [] (by simp) .start
  have hend : lexFrom (Pos.start.advanceBy digits) [] = .ok [] := lexFrom_end _ (by rw [splitGap])
  rw [List.append_nil, hend] at hlex
  rw [lex, Bytes.chars_ofChars]
  exact hlex

theorem lex_digits_ended {n : Int64} (hread : readInteger? digits = some n) :
    lex (Bytes.ofChars digits ++ ";") =
      .ok [⟨.int, Bytes.ofChars digits, .integer n, .start⟩,
        ⟨.semicolon, ";", .nil, Pos.start.advanceBy digits⟩] := by
  have hlex := lexFrom_digits hne hdigits hread [';'] (by simp; decide) .start
  rw [lexFrom_semicolon] at hlex
  rw [lex, show (";" : Bytes) = Bytes.ofChars [';'] from rfl, ← Bytes.ofChars_append,
    Bytes.chars_ofChars]
  exact hlex

/-- Digits that spell none are refused where they begin. -/
theorem lex_outOfRange (hread : readInteger? digits = none) :
    lex (Bytes.ofChars digits) = .error ⟨.start, .integerRange (Bytes.ofChars digits)⟩ := by
  have hall := List.all_eq_true.1 hdigits
  have htake : digits.takeWhile isAsciiDigit = digits := List.takeWhile_eq_self_iff.2 hall
  have hdrop : digits.dropWhile isAsciiDigit = [] := List.dropWhile_eq_nil_iff.2 hall
  have hnumber : splitNumber digits = .error (.integerRange (Bytes.ofChars digits)) := by
    rw [splitNumber, htake, hdrop, hread]
    rfl
  obtain ⟨c, cs, rfl⟩ := List.exists_cons_of_ne_nil hne
  have hc := hall c List.mem_cons_self
  rw [lex, Bytes.chars_ofChars]
  exact lexFrom_fault .start (splitGap_digit hc _) ((splitLexeme_digit hc cs).trans hnumber)

end Lexer

/-! ## Conversions -/

/-- Visible characters of ASCII are no white space. -/
theorem isBlank_of_visible {c : Char} (hlow : 0x20 < c.toNat) (hhigh : c.toNat < 0x7F) :
    isBlank c = false := by
  simp [isBlank, inRanges, blankRanges]
  omega

theorem isBlank_of_isAsciiDigit {c : Char} (h : isAsciiDigit c = true) : isBlank c = false := by
  rw [Lexer.isAsciiDigit_iff] at h
  exact isBlank_of_visible (by omega) (by omega)

theorem isBlank_signed {negative : Bool} {cs : List Char} (h : ∀ c ∈ cs, isBlank c = false) :
    ∀ c ∈ signed negative cs, isBlank c = false := by
  cases negative with
  | true => exact List.forall_mem_cons.2 ⟨by decide, h⟩
  | false => exact h

theorem Function.toInteger_surrounded (n : Int64) {front back : List Char}
    (hfront : ∀ c ∈ front, isBlank c = true) (hback : ∀ c ∈ back, isBlank c = true) :
    toInteger (.text (Bytes.ofChars front ++ (Value.integer n).inspect ++ Bytes.ofChars back)) =
      .ok (.integer n) := by
  have hinspect : (Value.integer n).inspect = Bytes.ofChars (intChars n.toInt) := ofInt_eq n.toInt
  have hne : intChars n.toInt ≠ [] := by
    unfold intChars signed
    split
    · exact List.cons_ne_nil _ _
    · exact Nat.toDigits_ne_nil
  have hvisible : ∀ c ∈ intChars n.toInt, isBlank c = false := isBlank_signed fun c hc =>
    isBlank_of_isAsciiDigit (List.all_eq_true.1 (all_isAsciiDigit_toDigits _) c hc)
  rw [toInteger, hinspect, Bytes.trim_surrounded hfront hne hvisible hback, Bytes.chars_ofChars,
    readInteger?_intChars]

/-- **Integers survive being written.** `int` reads what `str` writes, with any white space around it;
a number that is not negative is read as a literal of its own; and digits of any length are the
literal of the number they spell, if it fits in 64 bits, and out of range otherwise. -/
theorem integers_survive_text (n : Int64) {front back digits : List Char}
    (hfront : ∀ c ∈ front, isBlank c = true) (hback : ∀ c ∈ back, isBlank c = true)
    (hne : digits ≠ []) (hdigits : ∀ c ∈ digits, isAsciiDigit c = true) (scope : Option Nat)
    (forest : Forest) (host : Host) :
    (∃ t, FunctionTable.standard.invoke ⟨"str", [.integer n], scope⟩ forest host =
        (.ok (.text t), forest, host) ∧
      FunctionTable.standard.invoke
          ⟨"int", [.text (Bytes.ofChars front ++ t ++ Bytes.ofChars back)], scope⟩ forest host =
        (.ok (.integer n), forest, host)) ∧
    (0 ≤ n → ∃ p, lex ((Value.integer n).inspect ++ ";") =
      .ok [⟨.int, (Value.integer n).inspect, .integer n, .start⟩, ⟨.semicolon, ";", .nil, p⟩]) ∧
    (Nat.ofDigitChars 10 digits 0 ≤ 2 ^ 63 - 1 → ∃ m : Int64,
      m.toInt = Nat.ofDigitChars 10 digits 0 ∧ lex (Bytes.ofChars digits) =
        .ok [⟨.int, Bytes.ofChars digits, .integer m, .start⟩]) ∧
    (2 ^ 63 - 1 < Nat.ofDigitChars 10 digits 0 → lex (Bytes.ofChars digits) =
      .error ⟨.start, .integerRange (Bytes.ofChars digits)⟩) := by
  have hall := List.all_eq_true.2 hdigits
  refine ⟨⟨(Value.integer n).inspect, rfl, ?_⟩, fun hn => ?_, fun hfits => ?_, fun hbeyond => ?_⟩
  · have hint := Function.toInteger_surrounded n hfront hback
    show ((Function.toInteger _).mapError _, forest, host) = _
    rw [hint]
    rfl
  · have hchars : intChars n.toInt = Nat.toDigits 10 n.toInt.natAbs := by
      rw [Int64.le_iff_toInt_le, Int64.toInt_zero] at hn
      rw [intChars, decide_eq_false (by omega)]
      rfl
    have hinspect : (Value.integer n).inspect = Bytes.ofChars (Nat.toDigits 10 n.toInt.natAbs) :=
      (ofInt_eq n.toInt).trans (congrArg Bytes.ofChars hchars)
    rw [hinspect]
    exact ⟨_, Lexer.lex_digits_ended Nat.toDigits_ne_nil (all_isAsciiDigit_toDigits _)
      (hchars ▸ readInteger?_intChars n)⟩
  · obtain ⟨m, hm, hread⟩ := readInteger?_of_fits hne hall hfits
    exact ⟨m, hm, Lexer.lex_digits hne hall hread⟩
  · exact Lexer.lex_outOfRange hne hall (readInteger?_of_beyond hne hall hbeyond)

/-- The lowest integer between a no-break space and a line separator, and a number beyond 64 bits
behind a zero. -/
theorem integers_survive_text_bounds :
    (∀ c ∈ ['\u00A0', '\t'], isBlank c = true) ∧ (∀ c ∈ ['\u2028'], isBlank c = true) ∧
      "09223372036854775808".toList ≠ [] ∧
      (∀ c ∈ "09223372036854775808".toList, isAsciiDigit c = true) ∧
      (∃ t, FunctionTable.standard.invoke ⟨"str", [.integer Int64.minValue], some 0⟩ .root {} =
          (.ok (.text t), .root, {}) ∧
        FunctionTable.standard.invoke ⟨"int", [.text (Bytes.ofChars ['\u00A0', '\t'] ++ t ++
            Bytes.ofChars ['\u2028'])], some 0⟩ .root {} =
          (.ok (.integer Int64.minValue), .root, {})) ∧
      2 ^ 63 - 1 < Nat.ofDigitChars 10 "09223372036854775808".toList 0 ∧
      lex (Bytes.ofChars "09223372036854775808".toList) =
        .error ⟨.start, .integerRange (Bytes.ofChars "09223372036854775808".toList)⟩ := by
  have hfront : ∀ c ∈ ['\u00A0', '\t'], isBlank c = true := List.all_eq_true.1 (by decide)
  have hback : ∀ c ∈ ['\u2028'], isBlank c = true := List.all_eq_true.1 (by decide)
  have hne : "09223372036854775808".toList ≠ [] := by decide
  have hdigits : ∀ c ∈ "09223372036854775808".toList, isAsciiDigit c = true :=
    List.all_eq_true.1 (by decide)
  have hbeyond : 2 ^ 63 - 1 < Nat.ofDigitChars 10 "09223372036854775808".toList 0 := by decide
  obtain ⟨hread, -, -, hrange⟩ :=
    integers_survive_text Int64.minValue hfront hback hne hdigits (some 0) .root {}
  exact ⟨hfront, hback, hne, hdigits, hread, hbeyond, hrange hbeyond⟩

end ChartScript
