import ChartScript.Proofs.Token.Lines
import Mathlib.Data.List.DropRight

/-!
# Sources that are not complete

Whether more lines are asked for is decided by a look at the whole text: its white space, whether it
lexes, its last token. For a text that lexes the last token alone decides (`Reads.needsMore`): white
space that separates no tokens begins none either, so nothing but blanks of the script can stand in
front of such a text, and no colon.
-/

set_option autoImplicit false

namespace ChartScript

namespace Lexer

open Text

/-! ## Blanks in front

White space that separates no tokens begins none either, so a text that lexes has only blanks of the
script in front. -/

/-- Whether a character begins a token. -/
def isTokenStart (c : Char) : Bool :=
  c == '"' || (signKind? c).isSome || isAsciiDigit c || isNameStart c

theorem splitLexeme_of_not_start {c : Char} (h : isTokenStart c = false) (rest : List Char) :
    splitLexeme c rest = .error (.unexpected c) := by
  simp only [isTokenStart, Bool.or_eq_false_iff, Option.isSome_eq_false_iff,
    Option.isNone_iff_eq_none] at h
  obtain ⟨⟨⟨hquote, hsign⟩, hdigit⟩, hname⟩ := h
  simp [splitLexeme, hquote, hsign, hdigit, hname]

/-- White space by its code points. -/
def blankCodes : List Nat :=
  blankRanges.flatMap fun (first, last) => List.range' first (last + 1 - first)

theorem mem_blankCodes {c : Char} (h : isBlank c = true) : c.toNat ∈ blankCodes := by
  obtain ⟨r, hr, hc⟩ := List.any_eq_true.1 h
  refine List.mem_flatMap.2 ⟨r, hr, ?_⟩
  rw [List.mem_range'_1]
  simp only [Bool.and_eq_true, decide_eq_true_eq] at hc
  omega

theorem isTokenStart_of_isBlank {c : Char} (h : isBlank c = true) :
    isTokenStart c = false ∧ c ≠ '#' := by
  have hcodes : ∀ n ∈ blankCodes, isTokenStart (Char.ofNat n) = false ∧ Char.ofNat n ≠ '#' := by
    decide +kernel
  have hc := hcodes c.toNat (mem_blankCodes h)
  rwa [Char.ofNat_toNat] at hc

/-- Where no token begins and no gap, nothing is read. -/
theorem lexFrom_of_not_start {c : Char} {rest : List Char} (p : Pos)
    (hblank : isScriptBlank c = false) (hhash : c ≠ '#') (hstart : isTokenStart c = false) :
    lexFrom p (c :: rest) = .error ⟨p, .unexpected c⟩ := by
  have hslash : c ≠ '/' := by
    rintro rfl
    cases hstart
  have hgap : splitGap (c :: rest) = .ok ([], c :: rest) := by
    refine splitGap_none ?_ fun h => absurd h hslash
    simp [isOpening, hblank, hhash]
  exact lexFrom_fault p hgap (splitLexeme_of_not_start hstart rest)

theorem lexFrom_blanks {p : Pos} {blanks cs : List Char} {tokens : List Token}
    (hb : ∀ c ∈ blanks, isBlank c = true) (h : lexFrom p (blanks ++ cs) = .ok tokens) :
    ∃ q, lexFrom q cs = .ok tokens := by
  induction blanks generalizing p with
  | nil => exact ⟨p, h⟩
  | cons c blanks ih =>
    rw [List.cons_append] at h
    cases hs : isScriptBlank c with
    | true =>
      refine ih (fun d hd => hb d (List.mem_cons_of_mem _ hd)) (p := p.advanceBy [c]) ?_
      rw [← h]
      refine (lexFrom_gapAfter p ?_).symm
      rw [splitGap, if_pos hs]
    | false =>
      obtain ⟨hstart, hhash⟩ := isTokenStart_of_isBlank (hb c List.mem_cons_self)
      rw [lexFrom_of_not_start p hs hhash hstart] at h
      cases h

end Lexer

/-! ## Trimming -/

theorem Piece.bytes_ne_nil (x : Piece) : x.bytes ≠ [] := by
  cases x with
  | char c =>
    intro h
    have hf := Bytes.front?_encode c []
    rw [show String.utf8EncodeChar c = [] from h] at hf
    cases hf
  | stray b => exact List.cons_ne_nil b []

namespace Bytes

/-- The pieces of a text behind the white space in front. -/
def inner (bs : Bytes) : List Piece := bs.decode.dropWhile Text.isBlankPiece

theorem trim_eq (bs : Bytes) :
    bs.trim = (bs.inner.rdropWhile Text.isBlankPiece).flatMap Piece.bytes := rfl

theorem trim_nil : trim [] = [] := by
  rw [trim_eq, inner, decode]
  rfl

theorem not_blank_of_inner {bs : Bytes} {x : Piece} {more : List Piece}
    (h : bs.inner = x :: more) : Text.isBlankPiece x = false := by
  have hhead := List.head?_dropWhile_not Text.isBlankPiece bs.decode
  rw [show bs.decode.dropWhile Text.isBlankPiece = _ from h] at hhead
  simpa using hhead

/-- What stands behind the white space in front also begins the trimmed text. -/
theorem trim_of_inner {bs : Bytes} {x : Piece} {more : List Piece} (h : bs.inner = x :: more) :
    ∃ rest, bs.trim = x.bytes ++ rest := by
  have hx := not_blank_of_inner h
  rw [trim_eq, h]
  obtain ⟨tail, htail⟩ := List.rdropWhile_prefix Text.isBlankPiece (l := x :: more)
  cases hd : (x :: more).rdropWhile Text.isBlankPiece with
  | nil =>
    have hall := List.rdropWhile_eq_nil_iff.1 hd x List.mem_cons_self
    rw [hx] at hall
    cases hall
  | cons y ys =>
    rw [hd] at htail
    obtain ⟨rfl, -⟩ := List.cons.inj htail
    exact ⟨_, List.flatMap_cons⟩

end Bytes

namespace Lexer

open Text

theorem lex_inner {source : Bytes} {tokens : List Token} (h : lex source = .ok tokens) :
    ∃ q, lexFrom q (source.inner.map Piece.shown) = .ok tokens := by
  have hsplit : source.chars =
      (source.decode.takeWhile isBlankPiece).map Piece.shown ++ source.inner.map Piece.shown := by
    rw [← List.map_append, Bytes.inner, List.takeWhile_append_dropWhile]
    rfl
  rw [lex, hsplit] at h
  refine lexFrom_blanks (fun c hc => ?_) h
  obtain ⟨x, hx, rfl⟩ := List.mem_map.1 hc
  have hblank := List.mem_takeWhile_imp hx
  cases x with
  | char c => exact hblank
  | stray b => cases hblank

end Lexer

/-- A colon is written as one byte, and no other character begins with it. -/
theorem char_of_colon {c : Char} {rest : Bytes}
    (h : ((Piece.char c).bytes ++ rest).head? = some 58) : c = ':' := by
  have hf := Bytes.front?_encode c rest
  cases hb : (Piece.char c).bytes ++ rest with
  | nil => rw [hb] at h; cases h
  | cons b tail =>
    rw [hb] at h
    obtain rfl : b = 58 := by simpa using h
    rw [show String.utf8EncodeChar c ++ rest = _ from hb, Bytes.front?_one tail (by decide)] at hf
    cases hf
    rfl

namespace Reads

theorem eq_nil_of_trim {source : Bytes} {tokens : List Token} (h : Reads source tokens)
    (ht : source.trim = []) : tokens = [] := by
  obtain ⟨tokens', hlex, hagrees⟩ := h
  obtain ⟨q, hq⟩ := Lexer.lex_inner hlex
  cases hi : source.inner with
  | cons x more =>
    obtain ⟨rest, hrest⟩ := Bytes.trim_of_inner hi
    rw [ht] at hrest
    exact absurd (List.append_eq_nil_iff.1 hrest.symm).1 x.bytes_ne_nil
  | nil =>
    rw [hi, List.map_nil, Lexer.lexFrom_end q (by rw [Lexer.splitGap])] at hq
    cases hq
    exact List.forall₂_nil_left_iff.1 hagrees

/-- What lexes does not begin with a colon. -/
theorem head?_trim_ne {source : Bytes} {tokens : List Token} (h : Reads source tokens) :
    source.trim.head? ≠ some 58 := by
  intro hcolon
  obtain ⟨tokens', hlex, -⟩ := h
  obtain ⟨q, hq⟩ := Lexer.lex_inner hlex
  cases hi : source.inner with
  | nil =>
    rw [Bytes.trim_eq, hi] at hcolon
    cases hcolon
  | cons x more =>
    obtain ⟨rest, hrest⟩ := Bytes.trim_of_inner hi
    rw [hi, List.map_cons] at hq
    have hstart : Text.isScriptBlank x.shown = false ∧ x.shown ≠ '#' ∧
        Lexer.isTokenStart x.shown = false := by
      cases x with
      | stray b =>
        rw [Piece.shown]
        decide +kernel
      | char c =>
        obtain rfl : c = ':' := char_of_colon (hrest ▸ hcolon)
        decide +kernel
    rw [Lexer.lexFrom_of_not_start q hstart.1 hstart.2.1 hstart.2.2] at hq
    cases hq

end Reads

/-! ## Asking for more -/

/-- The last token is no terminator. -/
def isOpen (tokens : List Token) : Bool :=
  (tokens.map Token.kind).getLast?.any (· != .semicolon)

theorem isOpen_of_agrees {a b : List Token} (h : List.Forall₂ Token.Agrees a b) :
    isOpen a = isOpen b := by
  rw [isOpen, kinds_of_agrees h, isOpen]

theorem isOpen_append_cons (a : List Token) (tk : Token) (b : List Token) :
    isOpen (a ++ tk :: b) = isOpen (tk :: b) := by
  rw [isOpen, isOpen, List.map_append, List.map_cons, List.getLast?_append_cons]

/-- **Of a text that lexes the last token decides whether more is asked for.** -/
theorem Reads.needsMore {source : Bytes} {tokens : List Token} (h : Reads source tokens) :
    needsMore source = isOpen tokens := by
  obtain ⟨tokens', hlex, hagrees⟩ := id h
  rw [← isOpen_of_agrees hagrees]
  unfold ChartScript.needsMore isComplete isOpen
  rw [hlex, List.getLast?_map]
  by_cases ht : source.trim = []
  · have hnil := h.eq_nil_of_trim ht
    subst hnil
    rw [List.forall₂_nil_right_iff.1 hagrees, ht]
    rfl
  · cases hlast : tokens'.getLast? with
    | none =>
      rw [List.getLast?_eq_none_iff.1 hlast]
      simp
    | some tk =>
      have hne : tokens' ≠ [] := by
        rintro rfl
        cases hlast
      cases hk : tk.kind == .semicolon <;> simp [ht, hne, hlast, hk, bne]

end ChartScript
