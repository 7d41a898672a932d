import ChartScript.Proofs.Text.Utf8
import ChartScript.Text.Quoted
import Mathlib.Algebra.Group.Nat.Defs

/-!
# Quoting is undone by unquoting

What `quote` writes for one piece of a text is either a character that stands for itself or an
escape, and `Spells` says of both forms what a reader needs: what they stand for and that no
closing quote, no backslash and no line end gets in the way. `unquoteBody?_escaped` puts the pieces
together: every text is read back from its quoted form, byte for byte.
-/

set_option autoImplicit false

namespace ChartScript.Text.Quoted

/-! ## Hexadecimal digits -/

theorem hexValue?_digitChar : ∀ d, d < 16 → hexValue? (Nat.digitChar d) = some d := by decide

/-- One digit more than was read. -/
theorem readDigits?_succ {value? : Char → Option Nat} {base count acc n d : Nat}
    {cs rest : List Char} {c : Char} (hc : value? c = some d)
    (h : readDigits? value? base count acc cs = some (n, c :: rest)) :
    readDigits? value? base (count + 1) acc cs = some (n * base + d, rest) := by
  induction count generalizing acc cs with
  | zero =>
    obtain ⟨rfl, rfl⟩ := by simpa [readDigits?] using h
    simp [readDigits?, hc]
  | succ count ih =>
    cases cs with
    | nil => simp [readDigits?] at h
    | cons c' cs =>
      rw [readDigits?] at h ⊢
      cases hv : value? c' with
      | none => rw [hv] at h; cases h
      | some d' =>
        rw [hv] at h
        exact ih h

theorem hexDigits_one {n : Nat} (h : n < 16) : hexDigits 1 n = [Nat.digitChar n] := by
  simp [hexDigits, Nat.toDigits_of_lt_base h]

/-- A wider number is a narrower one with a last digit. -/
theorem hexDigits_succ {width : Nat} (hw : 0 < width) (n : Nat) :
    hexDigits (width + 1) n = hexDigits width (n / 16) ++ [Nat.digitChar (n % 16)] := by
  unfold hexDigits
  by_cases h : n < 16
  · rw [Nat.toDigits_of_lt_base h, Nat.div_eq_of_lt h, Nat.toDigits_zero, Nat.mod_eq_of_lt h]
    obtain ⟨w, rfl⟩ : ∃ w, width = w + 1 := ⟨width - 1, by omega⟩
    simp [List.replicate_succ']
  · rw [Nat.toDigits_of_base_le (by omega) (by omega)]
    simp

theorem readDigits?_hexDigits {width n : Nat} (hw : 0 < width) (h : n < 16 ^ width)
    (rest : List Char) :
    readDigits? hexValue? 16 width 0 (hexDigits width n ++ rest) = some (n, rest) := by
  induction width generalizing n rest with
  | zero => exact absurd hw (Nat.lt_irrefl 0)
  | succ width ih =>
    by_cases hzero : width = 0
    · subst hzero
      have hn : n < 16 := by simpa using h
      simp [hexDigits_one hn, readDigits?, hexValue?_digitChar n hn]
    · have hpos : 0 < width := Nat.pos_of_ne_zero hzero
      have hdiv : n / 16 < 16 ^ width := by
        rw [Nat.pow_succ] at h
        omega
      rw [hexDigits_succ hpos, List.append_assoc, List.singleton_append]
      have hmod : n % 16 < 16 := Nat.mod_lt n (by omega)
      rw [readDigits?_succ (hexValue?_digitChar _ hmod) (ih hpos hdiv _)]
      congr
      omega

/-- What is true of every digit is true of all digits of a number. -/
theorem all_hexDigits {p : Char → Bool} (hp : ∀ d, d < 16 → p (Nat.digitChar d) = true)
    {width n : Nat} (hw : 0 < width) (h : n < 16 ^ width) : (hexDigits width n).all p = true := by
  induction width generalizing n with
  | zero => exact absurd hw (Nat.lt_irrefl 0)
  | succ width ih =>
    by_cases hzero : width = 0
    · subst hzero
      have hn : n < 16 := by simpa using h
      simp [hexDigits_one hn, hp n hn]
    · have hpos : 0 < width := Nat.pos_of_ne_zero hzero
      have hdiv : n / 16 < 16 ^ width := by
        rw [Nat.pow_succ] at h
        omega
      rw [hexDigits_succ hpos, List.all_append, ih hpos hdiv]
      simp [hp _ (Nat.mod_lt n (show 16 > 0 by omega))]

/-! ## One piece -/

/-- A character that a reader between two quotes passes over. -/
def isPlain (c : Char) : Bool := c != '"' && c != '\\' && c != '\n'

theorem isPlain_iff (c : Char) : isPlain c = true ↔ c ≠ '"' ∧ c ≠ '\\' ∧ c ≠ '\n' := by
  simp [isPlain, and_assoc]

theorem isPlain_digitChar : ∀ d, d < 16 → isPlain (Nat.digitChar d) = true := by decide

/-- Characters between two quotes and the bytes they stand for: one plain character, or a backslash,
any character and plain ones. -/
inductive Spells : List Char → Bytes → Prop where
  | plain {c : Char} (h : isPlain c = true) : Spells [c] (String.utf8EncodeChar c)
  | escape {c : Char} {digits : List Char} {bs : Bytes} (hdigits : digits.all isPlain = true)
      (h : ∀ rest, unescape? (c :: (digits ++ rest)) = some (bs, rest)) :
      Spells ('\\' :: c :: digits) bs

theorem charOfCode?_toNat (c : Char) : charOfCode? c.toNat = some c := by
  have hc := Bytes.toNat_bounds c
  unfold charOfCode?
  rw [if_pos (by simpa using hc), Char.ofNat_toNat]

theorem spells_byte (b : UInt8) : Spells ('\\' :: 'x' :: hexDigits 2 b.toNat) [b] := by
  have hb : b.toNat < 16 ^ 2 := b.toNat_lt
  refine .escape (all_hexDigits isPlain_digitChar (by omega) hb) fun rest => ?_
  rw [unescape?, readDigits?_hexDigits (by omega) hb]
  simp

theorem isPrintable_newline : isPrintable '\n' = false := by decide +kernel

theorem spells_short {c letter : Char} (h : shortEscape? c = some letter) :
    Spells ['\\', letter] (String.utf8EncodeChar c) := by
  unfold shortEscape? at h
  have hc := Char.ofNat_toNat c
  split at h
  all_goals first
    | (next hn =>
        rw [hn] at hc
        subst hc
        obtain rfl : _ = letter := Option.some.inj h
        exact @Spells.escape _ [] _ rfl fun rest => rfl)
    | cases h

theorem escapeChar_spells (c : Char) : Spells (escapeChar '"' c) (String.utf8EncodeChar c) := by
  have hc := Bytes.toNat_bounds c
  unfold escapeChar
  by_cases hmark : (c == '"' || c == '\\') = true
  · rw [if_pos hmark]
    rcases (by simpa using hmark : c = '"' ∨ c = '\\') with rfl | rfl
    · exact @Spells.escape _ [] _ rfl fun rest => rfl
    · exact @Spells.escape _ [] _ rfl fun rest => rfl
  rw [if_neg hmark]
  by_cases hprint : isPrintable c = true
  · -- A printable character stands for itself; a line break, which would end the text, is not one.
    rw [if_pos hprint]
    refine .plain ?_
    have hline : c ≠ '\n' := by
      rintro rfl
      rw [isPrintable_newline] at hprint
      cases hprint
    simpa [isPlain, hline] using hmark
  rw [if_neg hprint]
  cases hs : shortEscape? c with
  | some letter => exact spells_short hs
  | none =>
    dsimp only
    by_cases h1 : c.toNat < 0x80
    · rw [if_pos h1, Bytes.encode_one h1]
      have hb := spells_byte (UInt8.ofNat c.toNat)
      rwa [Bytes.toNat_byteOfNat (by omega)] at hb
    rw [if_neg h1]
    by_cases h2 : c.toNat < 0x10000
    · rw [if_pos h2]
      have hn : c.toNat < 16 ^ 4 := by omega
      refine .escape (all_hexDigits isPlain_digitChar (by omega) hn) fun rest => ?_
      rw [unescape?, readDigits?_hexDigits (by omega) hn]
      simp [charOfCode?_toNat]
    · rw [if_neg h2]
      have hn : c.toNat < 16 ^ 8 := by omega
      refine .escape (all_hexDigits isPlain_digitChar (by omega) hn) fun rest => ?_
      rw [unescape?, readDigits?_hexDigits (by omega) hn]
      simp [charOfCode?_toNat]

theorem escapePiece_spells : (p : Piece) → Spells (escapePiece '"' p) p.bytes
  | .char c => escapeChar_spells c
  | .stray b => spells_byte b

/-! ## Whole texts -/

theorem unquoteBody?_plain {c : Char} (h : isPlain c = true) (rest : List Char) :
    unquoteBody? (c :: rest) = (unquoteBody? rest).map (String.utf8EncodeChar c ++ ·) := by
  obtain ⟨hquote, hback, hline⟩ := (isPlain_iff c).1 h
  rw [unquoteBody?, if_neg (by simpa using hback), if_neg (by simp [hquote, hline])]

theorem unquoteBody?_escape {cs after : List Char} {bs : Bytes}
    (h : unescape? cs = some (bs, after)) :
    unquoteBody? ('\\' :: cs) = (unquoteBody? after).map (bs ++ ·) := by
  rw [unquoteBody?, if_pos (by simp)]
  split
  · next bs' after' h' =>
    rw [h] at h'
    obtain ⟨rfl, rfl⟩ := by simpa using h'
    rfl
  · next h' => rw [h] at h'; cases h'

theorem Spells.unquoteBody? {cs : List Char} {bs : Bytes} (h : Spells cs bs) (rest : List Char) :
    Quoted.unquoteBody? (cs ++ rest) = (Quoted.unquoteBody? rest).map (bs ++ ·) := by
  cases h with
  | plain h => exact unquoteBody?_plain h rest
  | escape hdigits h => exact unquoteBody?_escape (h rest)

/-- **Unquoting undoes quoting**, for every text. -/
theorem unquoteBody?_escaped (bs : Bytes) :
    unquoteBody? (bs.decode.flatMap (escapePiece '"')) = some bs := by
  -- Stated for any pieces: those of a text are not the pieces of its tail.
  have hp : ∀ ps : List Piece,
      unquoteBody? (ps.flatMap (escapePiece '"')) = some (ps.flatMap Piece.bytes) := by
    intro ps
    induction ps with
    | nil => rw [List.flatMap_nil, List.flatMap_nil, unquoteBody?]
    | cons p ps ih =>
      rw [List.flatMap_cons, (escapePiece_spells p).unquoteBody?, ih, List.flatMap_cons]
      rfl
  rw [hp, Bytes.bytes_decode]

end ChartScript.Text.Quoted
