import ChartScript.Proofs.Text.Quoted
import ChartScript.Proofs.Text.Trimming
import ChartScript.Token.Lexer
import Mathlib.Data.List.TakeWhile

/-!
# Lexemes and what follows them

`Spelt lx rest` says what the lexemes of a script are where `rest` follows them: how names, numbers,
strings and signs are spelt, what value they have, and which character may not come next. A name
goes on as long as it can, and so does a number; whether a name is a function's is up to what
follows. A lexeme is cut off a text if and only if the text is spelt in this way
(`splitLexeme_eq_ok_iff`), so no proof about tokens has to look into the splitters again.
-/

set_option autoImplicit false

namespace ChartScript
namespace Lexer

open Text

/-! ## What lexemes are -/

/-- What may stand between the quotes of a string: no quote and no line end but behind a
backslash. -/
inductive Enclosed : List Char → Prop where
  | nil : Enclosed []
  | plain {c : Char} {body : List Char} (hc : Quoted.isPlain c = true) (h : Enclosed body) :
      Enclosed (c :: body)
  | escape {c : Char} {body : List Char} (h : Enclosed body) : Enclosed ('\\' :: c :: body)

/-- A lexeme with its kind and value, and what follows it. -/
inductive Spelt : Lexeme → List Char → Prop where
  | name {c : Char} {cs rest : List Char} (hstart : isNameStart c = true)
      (hpart : cs.all isNamePart = true) (hstop : ∀ d ∈ rest.head?, isNamePart d = false) :
      Spelt { kind := nameKind rest, chars := c :: cs } rest
  | int {digits rest : List Char} {n : Int64} (hne : digits ≠ [])
      (hdigits : digits.all isAsciiDigit = true) (hread : readInteger? digits = some n)
      (hstop : ∀ d ∈ rest.head?, isAsciiDigit d = false)
      (hpoint : ∀ d after, rest = '.' :: d :: after → isAsciiDigit d = false) :
      Spelt { kind := .int, chars := digits, value := .integer n } rest
  | real {whole fraction rest : List Char} {x : Float} (hwhole : whole ≠ [])
      (hdigits : whole.all isAsciiDigit = true) (hfraction : fraction ≠ [])
      (hdigits' : fraction.all isAsciiDigit = true)
      (hread : readReal? (whole ++ '.' :: fraction) = some x)
      (hstop : ∀ d ∈ rest.head?, isAsciiDigit d = false) :
      Spelt { kind := .real, chars := whole ++ '.' :: fraction, value := .real x } rest
  | string {body rest : List Char} {t : Bytes} (hbody : Enclosed body)
      (hread : Quoted.unquoteBody? body = some t) :
      Spelt { kind := .string, chars := '"' :: body ++ ['"'], value := .text t } rest
  | sign {kind : Kind} {c : Char} {rest : List Char} (hkind : signKind? c = some kind) :
      Spelt { kind, chars := [c] } rest

/-! ## Characters that begin a token -/

/-- Letters come after all blanks, digits and signs of a script. -/
theorem le_toNat_of_isLetter {c : Char} (h : isLetter c = true) : 0x41 ≤ c.toNat := by
  have hfirst : ∀ r ∈ letterRanges, 0x41 ≤ r.1 := by decide +kernel
  obtain ⟨r, hr, hc⟩ := List.any_eq_true.1 h
  have hle := hfirst r hr
  have hin : r.1 ≤ c.toNat ∧ c.toNat ≤ r.2 := by simpa using hc
  omega

theorem le_toNat_of_isNameStart {c : Char} (h : isNameStart c = true) : 0x41 ≤ c.toNat := by
  rcases (by simpa [isNameStart] using h : c = '_' ∨ isLetter c = true) with rfl | h
  · decide
  · exact le_toNat_of_isLetter h

theorem isAsciiDigit_iff (c : Char) : isAsciiDigit c = true ↔ 0x30 ≤ c.toNat ∧ c.toNat ≤ 0x39 := by
  simp only [isAsciiDigit, Bool.and_eq_true, decide_eq_true_eq, Char.le_def,
    UInt32.le_iff_toNat_le]
  rfl

/-- Signs are no digits and come before all letters. -/
theorem toNat_of_signKind? {c : Char} {k : Kind} (h : signKind? c = some k) :
    (c.toNat < 0x30 ∨ 0x39 < c.toNat) ∧ c.toNat < 0x41 := by
  unfold signKind? at h
  split at h
  all_goals cases h
  all_goals decide

theorem signKind?_of_isAsciiDigit {c : Char} (h : isAsciiDigit c = true) : signKind? c = none := by
  rw [isAsciiDigit_iff] at h
  cases hs : signKind? c with
  | none => rfl
  | some k =>
    have := toNat_of_signKind? hs
    omega

theorem signKind?_of_isNameStart {c : Char} (h : isNameStart c = true) : signKind? c = none := by
  have hle := le_toNat_of_isNameStart h
  cases hs : signKind? c with
  | none => rfl
  | some k =>
    have := toNat_of_signKind? hs
    omega

/-! ## Which branch takes a character -/

theorem splitLexeme_sign {c : Char} {kind : Kind} (h : signKind? c = some kind)
    (rest : List Char) : splitLexeme c rest = .ok ({ kind, chars := [c] }, rest) := by
  have hquote : ¬ (c == '"') = true := by
    intro hc
    rw [eq_of_beq hc] at h
    cases h
  rw [splitLexeme, if_neg hquote, h]

theorem splitLexeme_digit {c : Char} (h : isAsciiDigit c = true) (rest : List Char) :
    splitLexeme c rest = splitNumber (c :: rest) := by
  have hquote : ¬ (c == '"') = true := by
    intro hc
    rw [eq_of_beq hc] at h
    cases h
  rw [splitLexeme, if_neg hquote, signKind?_of_isAsciiDigit h]
  dsimp only
  rw [if_pos h]

theorem splitLexeme_name {c : Char} (h : isNameStart c = true) (rest : List Char) :
    splitLexeme c rest = .ok (splitName c rest) := by
  have hle := le_toNat_of_isNameStart h
  have hquote : ¬ (c == '"') = true := by
    intro hc
    rw [eq_of_beq hc] at hle
    exact absurd hle (by decide)
  have hdigit : ¬ isAsciiDigit c = true := by
    rw [isAsciiDigit_iff]
    omega
  rw [splitLexeme, if_neg hquote, signKind?_of_isNameStart h]
  dsimp only
  rw [if_neg hdigit, if_pos h]

/-! ## Where characters of one sort stop -/

/-- Where characters of one sort end, the next one is of another. -/
theorem head_dropWhile {p : Char → Bool} {cs : List Char} :
    ∀ d ∈ (cs.dropWhile p).head?, p d = false := by
  intro d hd
  have hhead := List.head?_dropWhile_not p cs
  rw [Option.mem_def.1 hd] at hhead
  simpa using hhead

/-! ## What is cut off is spelt -/

theorem splitName_spelt {c : Char} (h : isNameStart c = true) (rest : List Char) :
    c :: rest = (splitName c rest).1.chars ++ (splitName c rest).2 ∧
      Spelt (splitName c rest).1 (splitName c rest).2 := by
  constructor
  · simp [splitName]
  · exact .name h List.all_takeWhile head_dropWhile

theorem splitNumber_spelt {cs after : List Char} {lx : Lexeme}
    (hne : cs.takeWhile isAsciiDigit ≠ []) (h : splitNumber cs = .ok (lx, after)) :
    cs = lx.chars ++ after ∧ Spelt lx after := by
  have hsplit : cs.takeWhile isAsciiDigit ++ cs.dropWhile isAsciiDigit = cs :=
    List.takeWhile_append_dropWhile
  have hstop : ∀ d ∈ (cs.dropWhile isAsciiDigit).head?, isAsciiDigit d = false := head_dropWhile
  unfold splitNumber at h
  dsimp only at h
  generalize cs.dropWhile isAsciiDigit = tail at h hsplit hstop
  split at h
  · next hpoint =>
    obtain ⟨hhead, hfraction⟩ := Bool.and_eq_true_iff.1 hpoint
    obtain ⟨tail, rfl⟩ := List.head?_eq_some_iff.1 (eq_of_beq hhead)
    rw [List.drop_one, List.tail_cons] at h hfraction
    cases hread : readReal? (cs.takeWhile isAsciiDigit ++ '.' :: tail.takeWhile isAsciiDigit) with
    | none => rw [hread] at h; cases h
    | some x =>
      rw [hread] at h
      cases h
      constructor
      · simpa using hsplit.symm
      · exact .real hne List.all_takeWhile (by simpa using hfraction) List.all_takeWhile hread
          head_dropWhile
  · next hpoint =>
    cases hread : readInteger? (cs.takeWhile isAsciiDigit) with
    | none => rw [hread] at h; cases h
    | some n =>
      rw [hread] at h
      cases h
      refine ⟨hsplit.symm, .int hne List.all_takeWhile hread hstop ?_⟩
      rintro d more rfl
      cases hd : isAsciiDigit d with
      | false => rfl
      | true => simp [hd] at hpoint

theorem splitString?_enclosed {cs body after : List Char}
    (h : splitString? cs = some (body, after)) :
    cs = body ++ ['"'] ++ after ∧ Enclosed body := by
  fun_induction splitString? cs generalizing body after with
  | case1 => cases h
  | case2 c cs hc =>
    cases h
    obtain rfl := eq_of_beq hc
    exact ⟨rfl, .nil⟩
  | case3 c cs => cases h
  | case4 c => cases h
  | case5 c hq hn hb e cs ih =>
    obtain ⟨⟨body', after'⟩, hs, heq⟩ := Option.map_eq_some_iff.1 h
    obtain ⟨rfl, rfl⟩ := Prod.mk.inj heq
    obtain ⟨rfl, hbody⟩ := ih hs
    obtain rfl := eq_of_beq hb
    exact ⟨rfl, .escape hbody⟩
  | case6 c cs hq hn hb ih =>
    obtain ⟨⟨body', after'⟩, hs, heq⟩ := Option.map_eq_some_iff.1 h
    obtain ⟨rfl, rfl⟩ := Prod.mk.inj heq
    obtain ⟨rfl, hbody⟩ := ih hs
    refine ⟨rfl, .plain ((Quoted.isPlain_iff c).2 ⟨?_, ?_, ?_⟩) hbody⟩
    · simpa using hq
    · simpa using hb
    · simpa using hn

theorem splitText_spelt {cs after : List Char} {lx : Lexeme}
    (h : splitText cs = .ok (lx, after)) :
    '"' :: cs = lx.chars ++ after ∧ Spelt lx after := by
  unfold splitText at h
  cases hs : splitString? cs with
  | none => rw [hs] at h; cases h
  | some r =>
    obtain ⟨body, tail⟩ := r
    rw [hs] at h
    dsimp only at h
    cases hu : Quoted.unquoteBody? body with
    | none => rw [hu] at h; cases h
    | some t =>
      rw [hu] at h
      cases h
      obtain ⟨rfl, hbody⟩ := splitString?_enclosed hs
      exact ⟨by simp, .string hbody hu⟩

theorem splitLexeme_spelt {c : Char} {rest after : List Char} {lx : Lexeme}
    (h : splitLexeme c rest = .ok (lx, after)) :
    c :: rest = lx.chars ++ after ∧ Spelt lx after := by
  unfold splitLexeme at h
  by_cases hquote : (c == '"') = true
  · rw [if_pos hquote] at h
    obtain rfl := eq_of_beq hquote
    exact splitText_spelt h
  rw [if_neg hquote] at h
  cases hsign : signKind? c with
  | some kind =>
    rw [hsign] at h
    cases h
    exact ⟨rfl, .sign hsign⟩
  | none =>
    rw [hsign] at h
    dsimp only at h
    by_cases hdigit : isAsciiDigit c = true
    · rw [if_pos hdigit] at h
      exact splitNumber_spelt (by simp [hdigit]) h
    rw [if_neg hdigit] at h
    by_cases hname : isNameStart c = true
    · rw [if_pos hname] at h
      cases h
      exact splitName_spelt hname rest
    · rw [if_neg hname] at h
      cases h

/-! ## What is spelt is cut off -/

theorem splitNumber_int {digits rest : List Char} {n : Int64}
    (hdigits : digits.all isAsciiDigit = true) (hread : readInteger? digits = some n)
    (hstop : ∀ d ∈ rest.head?, isAsciiDigit d = false)
    (hpoint : ∀ d after, rest = '.' :: d :: after → isAsciiDigit d = false) :
    splitNumber (digits ++ rest) =
      .ok ({ kind := .int, chars := digits, value := .integer n }, rest) := by
  obtain ⟨htake, hdrop⟩ := takeWhile_stop hdigits hstop
  have hwhole : (rest.head? == some '.' && !((rest.drop 1).takeWhile isAsciiDigit).isEmpty) =
      false := by
    cases rest with
    | nil => rfl
    | cons c rest =>
      by_cases hc : c = '.'
      · subst hc
        cases rest with
        | nil => rfl
        | cons d after => simp [hpoint d after rfl]
      · simp [hc]
  unfold splitNumber
  simp only [htake, hdrop, hwhole, hread, Bool.false_eq_true, if_false]

theorem splitNumber_real {whole fraction rest : List Char} {x : Float}
    (hdigits : whole.all isAsciiDigit = true) (hfraction : fraction ≠ [])
    (hdigits' : fraction.all isAsciiDigit = true)
    (hread : readReal? (whole ++ '.' :: fraction) = some x)
    (hstop : ∀ d ∈ rest.head?, isAsciiDigit d = false) :
    splitNumber (whole ++ '.' :: (fraction ++ rest)) =
      .ok ({ kind := .real, chars := whole ++ '.' :: fraction, value := .real x }, rest) := by
  have hpoint : ∀ d ∈ ('.' :: (fraction ++ rest)).head?, isAsciiDigit d = false := by
    intro d hd
    obtain rfl : '.' = d := by simpa using hd
    decide
  obtain ⟨htake, hdrop⟩ := takeWhile_stop hdigits hpoint
  obtain ⟨htake', hdrop'⟩ := takeWhile_stop hdigits' hstop
  unfold splitNumber
  simp [htake, hdrop, htake', hdrop', hfraction, hread]

theorem Enclosed.splitString? {body : List Char} (h : Enclosed body) (rest : List Char) :
    Lexer.splitString? (body ++ '"' :: rest) = some (body, rest) := by
  induction h with
  | nil =>
    rw [List.nil_append, Lexer.splitString?.eq_def]
    rfl
  | plain hc _ ih =>
    obtain ⟨hquote, hback, hline⟩ := (Quoted.isPlain_iff _).1 hc
    rw [List.cons_append, Lexer.splitString?.eq_def]
    simp [hquote, hback, hline, ih]
  | escape _ ih =>
    rw [List.cons_append, List.cons_append, Lexer.splitString?.eq_def]
    simp [ih]

theorem Spelt.splitLexeme {c : Char} {rest after : List Char} {lx : Lexeme} (h : Spelt lx after)
    (heq : c :: rest = lx.chars ++ after) : Lexer.splitLexeme c rest = .ok (lx, after) := by
  cases h with
  | name hstart hpart hstop =>
    simp only [List.cons_append, List.cons.injEq] at heq
    obtain ⟨rfl, rfl⟩ := heq
    obtain ⟨htake, hdrop⟩ := takeWhile_stop hpart hstop
    rw [splitLexeme_name hstart]
    simp only [splitName, htake, hdrop]
  | int hne hdigits hread hstop hpoint =>
    obtain ⟨d, digits, rfl⟩ := List.exists_cons_of_ne_nil hne
    simp only [List.cons_append, List.cons.injEq] at heq
    obtain ⟨rfl, rfl⟩ := heq
    rw [splitLexeme_digit (List.all_eq_true.1 hdigits c List.mem_cons_self)]
    exact splitNumber_int hdigits hread hstop hpoint
  | real hwhole hdigits hfraction hdigits' hread hstop =>
    obtain ⟨d, whole, rfl⟩ := List.exists_cons_of_ne_nil hwhole
    have hnumber := splitNumber_real hdigits hfraction hdigits' hread hstop
    simp only [List.cons_append, List.cons.injEq] at heq
    obtain ⟨rfl, rfl⟩ := heq
    rw [splitLexeme_digit (List.all_eq_true.1 hdigits c List.mem_cons_self)]
    simpa using hnumber
  | string hbody hread =>
    simp only [List.cons_append, List.cons.injEq] at heq
    obtain ⟨rfl, rfl⟩ := heq
    rw [Lexer.splitLexeme, if_pos (by decide), splitText, List.append_assoc,
      List.singleton_append, hbody.splitString?]
    simp only [hread]
  | sign hkind =>
    simp only [List.cons_append, List.cons.injEq] at heq
    obtain ⟨rfl, rfl⟩ := heq
    exact splitLexeme_sign hkind _

/-- **A lexeme is cut off exactly where it is spelt.** -/
theorem splitLexeme_eq_ok_iff {c : Char} {rest after : List Char} {lx : Lexeme} :
    splitLexeme c rest = .ok (lx, after) ↔ c :: rest = lx.chars ++ after ∧ Spelt lx after :=
  ⟨splitLexeme_spelt, fun h => h.2.splitLexeme h.1⟩

end Lexer
end ChartScript
