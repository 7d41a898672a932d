import ChartScript.Text.Utf8

/-!
# Reading and writing UTF-8

`front?` takes a character off a text exactly when its encoding stands there. Both directions are
used: a text made of characters shows these characters again (`chars_ofChars`), and the pieces of
any text, well-formed or not, are the text (`bytes_decode`). An ASCII byte is no part of a longer
encoding, so a text is read part by part around it (`decode_append_ascii`).
-/

set_option autoImplicit false

namespace ChartScript
namespace Bytes

/-! ## Byte tests as bounds -/

theorem isTail_iff (b : UInt8) : isTail b = true ↔ 0x80 ≤ b.toNat ∧ b.toNat < 0xC0 := by
  simp [isTail, UInt8.le_iff_toNat_le, UInt8.lt_iff_toNat_lt]

theorem isPair_iff (b0 b1 : UInt8) :
    isPair b0 b1 = true ↔
      (0xC2 ≤ b0.toNat ∧ b0.toNat < 0xE0) ∧ 0x80 ≤ b1.toNat ∧ b1.toNat < 0xC0 := by
  simp [isPair, isTail_iff, UInt8.le_iff_toNat_le, UInt8.lt_iff_toNat_lt]

theorem isTriple_iff (b0 b1 b2 : UInt8) :
    isTriple b0 b1 b2 = true ↔
      (0xE0 ≤ b0.toNat ∧ b0.toNat < 0xF0) ∧ (0x80 ≤ b1.toNat ∧ b1.toNat < 0xC0) ∧
      (0x80 ≤ b2.toNat ∧ b2.toNat < 0xC0) ∧ (b0.toNat ≠ 0xE0 ∨ 0xA0 ≤ b1.toNat) ∧
      (b0.toNat ≠ 0xED ∨ b1.toNat < 0xA0) := by
  simp [isTriple, isTail_iff, UInt8.le_iff_toNat_le, UInt8.lt_iff_toNat_lt, ← UInt8.toNat_inj,
    and_assoc]

theorem isQuad_iff (b0 b1 b2 b3 : UInt8) :
    isQuad b0 b1 b2 b3 = true ↔
      (0xF0 ≤ b0.toNat ∧ b0.toNat < 0xF5) ∧ (0x80 ≤ b1.toNat ∧ b1.toNat < 0xC0) ∧
      (0x80 ≤ b2.toNat ∧ b2.toNat < 0xC0) ∧ (0x80 ≤ b3.toNat ∧ b3.toNat < 0xC0) ∧
      (b0.toNat ≠ 0xF0 ∨ 0x90 ≤ b1.toNat) ∧ (b0.toNat ≠ 0xF4 ∨ b1.toNat < 0x90) := by
  simp [isQuad, isTail_iff, UInt8.le_iff_toNat_le, UInt8.lt_iff_toNat_lt, ← UInt8.toNat_inj,
    and_assoc]

/-! ## The code point of a character -/

theorem toNat_bounds (c : Char) :
    c.toNat < 0xD800 ∨ (0xDFFF < c.toNat ∧ c.toNat < 0x110000) := c.valid

theorem toNat_charOfNat {n : Nat} (h : n < 0xD800 ∨ (0xDFFF < n ∧ n < 0x110000)) :
    (Char.ofNat n).toNat = n := by
  have hv : n.isValidChar := h
  rw [Char.ofNat, dif_pos hv]
  rfl

theorem charOfNat_eq {n : Nat} {c : Char} (h : n = c.toNat) : Char.ofNat n = c := by
  rw [h, Char.ofNat_toNat]

theorem toNat_byteOfNat {n : Nat} (h : n < 256) : (UInt8.ofNat n).toNat = n :=
  UInt8.toNat_ofNat_of_lt' h

theorem byteOfNat_eq {n : Nat} {b : UInt8} (h : n = b.toNat) : UInt8.ofNat n = b := by
  rw [h, UInt8.ofNat_toNat]

/-! ## Encodings by length -/

theorem encode_one {c : Char} (h : c.toNat < 0x80) :
    String.utf8EncodeChar c = [UInt8.ofNat c.toNat] := by
  unfold String.utf8EncodeChar
  rw [if_pos (show c.val.toNat ≤ 0x7f by change c.toNat ≤ 0x7f; omega)]
  rfl

theorem encode_two {c : Char} (h : 0x80 ≤ c.toNat) (h' : c.toNat < 0x800) :
    String.utf8EncodeChar c =
      [UInt8.ofNat (c.toNat / 64 % 32 + 0xC0), UInt8.ofNat (c.toNat % 64 + 0x80)] := by
  unfold String.utf8EncodeChar
  rw [if_neg (show ¬ c.val.toNat ≤ 0x7f by change ¬ c.toNat ≤ 0x7f; omega),
    if_pos (show c.val.toNat ≤ 0x7ff by change c.toNat ≤ 0x7ff; omega)]
  rfl

theorem encode_three {c : Char} (h : 0x800 ≤ c.toNat) (h' : c.toNat < 0x10000) :
    String.utf8EncodeChar c =
      [UInt8.ofNat (c.toNat / 4096 % 16 + 0xE0), UInt8.ofNat (c.toNat / 64 % 64 + 0x80),
        UInt8.ofNat (c.toNat % 64 + 0x80)] := by
  unfold String.utf8EncodeChar
  rw [if_neg (show ¬ c.val.toNat ≤ 0x7f by change ¬ c.toNat ≤ 0x7f; omega),
    if_neg (show ¬ c.val.toNat ≤ 0x7ff by change ¬ c.toNat ≤ 0x7ff; omega),
    if_pos (show c.val.toNat ≤ 0xffff by change c.toNat ≤ 0xffff; omega)]
  rfl

theorem encode_four {c : Char} (h : 0x10000 ≤ c.toNat) :
    String.utf8EncodeChar c =
      [UInt8.ofNat (c.toNat / 262144 % 8 + 0xF0), UInt8.ofNat (c.toNat / 4096 % 64 + 0x80),
        UInt8.ofNat (c.toNat / 64 % 64 + 0x80), UInt8.ofNat (c.toNat % 64 + 0x80)] := by
  unfold String.utf8EncodeChar
  rw [if_neg (show ¬ c.val.toNat ≤ 0x7f by change ¬ c.toNat ≤ 0x7f; omega),
    if_neg (show ¬ c.val.toNat ≤ 0x7ff by change ¬ c.toNat ≤ 0x7ff; omega),
    if_neg (show ¬ c.val.toNat ≤ 0xffff by change ¬ c.toNat ≤ 0xffff; omega)]
  rfl

/-! ## Taking a character off the front -/

theorem front?_one {b0 : UInt8} (rest : Bytes) (h : b0.toNat < 0x80) :
    front? (b0 :: rest) = some (Char.ofNat b0.toNat, rest) := by
  unfold front?
  dsimp only
  rw [if_pos (by simpa [UInt8.lt_iff_toNat_lt] using h)]

/-- Reading past the first byte of a longer encoding. -/
theorem front?_long {b0 : UInt8} (h : 0x80 ≤ b0.toNat) (b1 : UInt8) (rest : Bytes) :
    front? (b0 :: b1 :: rest) =
      if isPair b0 b1 then some (Char.ofNat (b0.toNat % 32 * 64 + tailBits b1), rest)
      else match rest with
        | [] => none
        | b2 :: r2 =>
          if isTriple b0 b1 b2 then
            some (Char.ofNat (b0.toNat % 16 * 4096 + tailBits b1 * 64 + tailBits b2), r2)
          else match r2 with
            | [] => none
            | b3 :: r3 =>
              if isQuad b0 b1 b2 b3 then
                some (Char.ofNat (b0.toNat % 8 * 262144 + tailBits b1 * 4096 +
                  tailBits b2 * 64 + tailBits b3), r3)
              else none := by
  unfold front?
  dsimp only
  rw [if_neg (by simpa [UInt8.lt_iff_toNat_lt] using h)]
  rfl

/-! ### An encoding reads as its character

The bytes are named first: `omega` then has the bounds of each byte and the bits it carries. -/

theorem front?_encode_two {c : Char} (h : 0x80 ≤ c.toNat) (h' : c.toNat < 0x800) (rest : Bytes) :
    front? (String.utf8EncodeChar c ++ rest) = some (c, rest) := by
  rw [encode_two h h']
  generalize hb0 : UInt8.ofNat (c.toNat / 64 % 32 + 0xC0) = b0
  generalize hb1 : UInt8.ofNat (c.toNat % 64 + 0x80) = b1
  have e0 : b0.toNat = c.toNat / 64 % 32 + 0xC0 := hb0 ▸ toNat_byteOfNat (by omega)
  have e1 : b1.toNat = c.toNat % 64 + 0x80 := hb1 ▸ toNat_byteOfNat (by omega)
  have hpair : isPair b0 b1 = true := by rw [isPair_iff]; omega
  simp only [List.cons_append, List.nil_append]
  rw [front?_long (by omega), if_pos hpair, charOfNat_eq (c := c)]
  unfold tailBits
  omega

theorem front?_encode_three {c : Char} (h : 0x800 ≤ c.toNat) (h' : c.toNat < 0x10000)
    (rest : Bytes) : front? (String.utf8EncodeChar c ++ rest) = some (c, rest) := by
  have hc := toNat_bounds c
  rw [encode_three h h']
  generalize hb0 : UInt8.ofNat (c.toNat / 4096 % 16 + 0xE0) = b0
  generalize hb1 : UInt8.ofNat (c.toNat / 64 % 64 + 0x80) = b1
  generalize hb2 : UInt8.ofNat (c.toNat % 64 + 0x80) = b2
  have e0 : b0.toNat = c.toNat / 4096 % 16 + 0xE0 := hb0 ▸ toNat_byteOfNat (by omega)
  have e1 : b1.toNat = c.toNat / 64 % 64 + 0x80 := hb1 ▸ toNat_byteOfNat (by omega)
  have e2 : b2.toNat = c.toNat % 64 + 0x80 := hb2 ▸ toNat_byteOfNat (by omega)
  have hpair : ¬ isPair b0 b1 = true := by rw [isPair_iff]; omega
  have htriple : isTriple b0 b1 b2 = true := by rw [isTriple_iff]; omega
  simp only [List.cons_append, List.nil_append]
  rw [front?_long (by omega), if_neg hpair]
  dsimp only
  rw [if_pos htriple, charOfNat_eq (c := c)]
  unfold tailBits
  omega

theorem front?_encode_four {c : Char} (h : 0x10000 ≤ c.toNat) (rest : Bytes) :
    front? (String.utf8EncodeChar c ++ rest) = some (c, rest) := by
  have hc := toNat_bounds c
  rw [encode_four h]
  generalize hb0 : UInt8.ofNat (c.toNat / 262144 % 8 + 0xF0) = b0
  generalize hb1 : UInt8.ofNat (c.toNat / 4096 % 64 + 0x80) = b1
  generalize hb2 : UInt8.ofNat (c.toNat / 64 % 64 + 0x80) = b2
  generalize hb3 : UInt8.ofNat (c.toNat % 64 + 0x80) = b3
  have e0 : b0.toNat = c.toNat / 262144 % 8 + 0xF0 := hb0 ▸ toNat_byteOfNat (by omega)
  have e1 : b1.toNat = c.toNat / 4096 % 64 + 0x80 := hb1 ▸ toNat_byteOfNat (by omega)
  have e2 : b2.toNat = c.toNat / 64 % 64 + 0x80 := hb2 ▸ toNat_byteOfNat (by omega)
  have e3 : b3.toNat = c.toNat % 64 + 0x80 := hb3 ▸ toNat_byteOfNat (by omega)
  have hpair : ¬ isPair b0 b1 = true := by rw [isPair_iff]; omega
  have htriple : ¬ isTriple b0 b1 b2 = true := by rw [isTriple_iff]; omega
  have hquad : isQuad b0 b1 b2 b3 = true := by rw [isQuad_iff]; omega
  simp only [List.cons_append, List.nil_append]
  rw [front?_long (by omega), if_neg hpair]
  dsimp only
  rw [if_neg htriple, if_pos hquad, charOfNat_eq (c := c)]
  unfold tailBits
  omega

/-- The encoding of a character reads as the character, whatever follows. -/
theorem front?_encode (c : Char) (rest : Bytes) :
    front? (String.utf8EncodeChar c ++ rest) = some (c, rest) := by
  by_cases h1 : c.toNat < 0x80
  · have hb := toNat_byteOfNat (Nat.lt_trans h1 (by decide))
    rw [encode_one h1, List.singleton_append, front?_one rest (hb.symm ▸ h1), hb, Char.ofNat_toNat]
  by_cases h2 : c.toNat < 0x800
  · exact front?_encode_two (Nat.le_of_not_lt h1) h2 rest
  by_cases h3 : c.toNat < 0x10000
  · exact front?_encode_three (Nat.le_of_not_lt h2) h3 rest
  · exact front?_encode_four (Nat.le_of_not_lt h3) rest

/-! ### What reads as a character is its encoding -/

theorem encode_of_isPair {b0 b1 : UInt8} (h : isPair b0 b1 = true) :
    String.utf8EncodeChar (Char.ofNat (b0.toNat % 32 * 64 + tailBits b1)) = [b0, b1] := by
  rw [isPair_iff] at h
  unfold tailBits
  have hn := toNat_charOfNat (n := b0.toNat % 32 * 64 + b1.toNat % 64) (by omega)
  rw [encode_two (by omega) (by omega), hn, byteOfNat_eq (b := b0) (by omega),
    byteOfNat_eq (b := b1) (by omega)]

theorem encode_of_isTriple {b0 b1 b2 : UInt8} (h : isTriple b0 b1 b2 = true) :
    String.utf8EncodeChar
        (Char.ofNat (b0.toNat % 16 * 4096 + tailBits b1 * 64 + tailBits b2)) = [b0, b1, b2] := by
  rw [isTriple_iff] at h
  unfold tailBits
  have hn := toNat_charOfNat
    (n := b0.toNat % 16 * 4096 + b1.toNat % 64 * 64 + b2.toNat % 64) (by omega)
  rw [encode_three (by omega) (by omega), hn, byteOfNat_eq (b := b0) (by omega),
    byteOfNat_eq (b := b1) (by omega), byteOfNat_eq (b := b2) (by omega)]

theorem encode_of_isQuad {b0 b1 b2 b3 : UInt8} (h : isQuad b0 b1 b2 b3 = true) :
    String.utf8EncodeChar (Char.ofNat (b0.toNat % 8 * 262144 + tailBits b1 * 4096 +
        tailBits b2 * 64 + tailBits b3)) = [b0, b1, b2, b3] := by
  rw [isQuad_iff] at h
  unfold tailBits
  have hn := toNat_charOfNat (n := b0.toNat % 8 * 262144 + b1.toNat % 64 * 4096 +
    b2.toNat % 64 * 64 + b3.toNat % 64) (by omega)
  rw [encode_four (by omega), hn, byteOfNat_eq (b := b0) (by omega),
    byteOfNat_eq (b := b1) (by omega), byteOfNat_eq (b := b2) (by omega),
    byteOfNat_eq (b := b3) (by omega)]

theorem eq_encode_of_front? {bs rest : Bytes} {c : Char} (h : front? bs = some (c, rest)) :
    bs = String.utf8EncodeChar c ++ rest := by
  cases bs with
  | nil => simp [front?] at h
  | cons b0 r0 =>
    by_cases h1 : b0.toNat < 0x80
    · rw [front?_one r0 h1] at h
      obtain ⟨rfl, rfl⟩ := by simpa using h
      have hn := toNat_charOfNat (n := b0.toNat) (by omega)
      rw [encode_one (by omega), hn, UInt8.ofNat_toNat]
      rfl
    cases r0 with
    | nil =>
      rw [front?, if_neg (by simpa [UInt8.lt_iff_toNat_lt] using h1)] at h
      cases h
    | cons b1 r1 =>
      rw [front?_long (Nat.le_of_not_lt h1)] at h
      by_cases hpair : isPair b0 b1 = true
      · rw [if_pos hpair] at h
        obtain ⟨rfl, rfl⟩ := by simpa using h
        rw [encode_of_isPair hpair]
        rfl
      rw [if_neg hpair] at h
      cases r1 with
      | nil => cases h
      | cons b2 r2 =>
        dsimp only at h
        by_cases htriple : isTriple b0 b1 b2 = true
        · rw [if_pos htriple] at h
          obtain ⟨rfl, rfl⟩ := by simpa using h
          rw [encode_of_isTriple htriple]
          rfl
        rw [if_neg htriple] at h
        cases r2 with
        | nil => cases h
        | cons b3 r3 =>
          dsimp only at h
          by_cases hquad : isQuad b0 b1 b2 b3 = true
          · rw [if_pos hquad] at h
            obtain ⟨rfl, rfl⟩ := by simpa using h
            rw [encode_of_isQuad hquad]
            rfl
          · rw [if_neg hquad] at h
            cases h

/-! ## Whole texts -/

theorem decode_encode (c : Char) (rest : Bytes) :
    decode (String.utf8EncodeChar c ++ rest) = .char c :: decode rest := by
  have hf := front?_encode c rest
  cases hb : String.utf8EncodeChar c ++ rest with
  | nil => rw [hb] at hf; cases hf
  | cons b after =>
    rw [hb] at hf
    rw [decode]
    split
    · next c' after' h =>
      rw [hf] at h
      obtain ⟨rfl, rfl⟩ := by simpa using h
      rfl
    · next h => rw [hf] at h; cases h

theorem decode_ofChars (cs : List Char) : decode (ofChars cs) = cs.map .char := by
  induction cs with
  | nil => rw [ofChars_nil, decode, List.map_nil]
  | cons c cs ih => rw [ofChars_cons, decode_encode, ih, List.map_cons]

/-- **A text made of characters shows these characters.** -/
@[simp] theorem chars_ofChars (cs : List Char) : (ofChars cs).chars = cs := by
  rw [chars, decode_ofChars, List.map_map]
  exact List.map_id cs

/-- **The pieces of a text are the text**, whatever bytes it holds. -/
theorem bytes_decode (bs : Bytes) : bs.decode.flatMap Piece.bytes = bs := by
  fun_induction decode bs with
  | case1 => rfl
  | case2 b rest c after h ih =>
    rw [List.flatMap_cons, ih]
    exact (eq_encode_of_front? h).symm
  | case3 b rest h ih =>
    rw [List.flatMap_cons, ih]
    rfl

/-! ## Two texts with a one-byte character between them

A byte below 0x80 belongs to no longer character, so reading does not cross it. -/

/-- A longer encoding has no byte below 0x80. -/
theorem le_toNat_of_mem_encode {c : Char} (h1 : 0x80 ≤ c.toNat) :
    ∀ b ∈ String.utf8EncodeChar c, 0x80 ≤ b.toNat := by
  intro b hb
  by_cases h2 : c.toNat < 0x800
  · rw [encode_two h1 h2] at hb
    simp only [List.mem_cons, List.not_mem_nil, or_false] at hb
    rcases hb with rfl | rfl <;> rw [toNat_byteOfNat (by omega)] <;> omega
  have h2 := Nat.le_of_not_lt h2
  by_cases h3 : c.toNat < 0x10000
  · rw [encode_three h2 h3] at hb
    simp only [List.mem_cons, List.not_mem_nil, or_false] at hb
    rcases hb with rfl | rfl | rfl <;> rw [toNat_byteOfNat (by omega)] <;> omega
  · rw [encode_four (Nat.le_of_not_lt h3)] at hb
    simp only [List.mem_cons, List.not_mem_nil, or_false] at hb
    rcases hb with rfl | rfl | rfl | rfl <;> rw [toNat_byteOfNat (by omega)] <;> omega

theorem le_toNat_of_tail {c : Char} {b0 : UInt8} {tail : Bytes}
    (h : String.utf8EncodeChar c = b0 :: tail) : ∀ b ∈ tail, 0x80 ≤ b.toNat := by
  intro b hb
  by_cases h1 : c.toNat < 0x80
  · rw [encode_one h1] at h
    obtain ⟨-, rfl⟩ := List.cons.inj h
    cases hb
  · exact le_toNat_of_mem_encode (Nat.le_of_not_lt h1) b (h ▸ List.mem_cons_of_mem _ hb)

theorem front?_append_none {b0 b : UInt8} (hb : b.toNat < 0x80) {r0 : Bytes} (rest : Bytes)
    (h : front? (b0 :: r0) = none) : front? (b0 :: r0 ++ b :: rest) = none := by
  refine Option.eq_none_iff_forall_not_mem.2 ?_
  rintro ⟨c, after⟩ hf
  have heq := eq_encode_of_front? hf
  rcases List.append_eq_append_iff.1 heq with ⟨part, hc, hrest⟩ | ⟨left, hbs, -⟩
  · cases part with
    | nil =>
      rw [List.append_nil] at hc
      rw [← hc, ← List.append_nil (String.utf8EncodeChar c), front?_encode] at h
      cases h
    | cons b' more =>
      -- The encoding would go on with `b`, which is no byte of a longer one.
      obtain ⟨rfl, -⟩ := List.cons.inj hrest
      have hle := le_toNat_of_tail hc b (by simp)
      omega
  · rw [hbs, front?_encode] at h
    cases h

theorem decode_append_ascii {b : UInt8} (hb : b.toNat < 0x80) (bs rest : Bytes) :
    decode (bs ++ b :: rest) = decode bs ++ .char (Char.ofNat b.toNat) :: decode rest := by
  fun_induction decode bs with
  | case1 =>
    have hn := toNat_charOfNat (n := b.toNat) (by omega)
    have henc := decode_encode (Char.ofNat b.toNat) rest
    rw [encode_one (by omega), hn, UInt8.ofNat_toNat] at henc
    exact henc
  | case2 b0 r0 c after hf ih =>
    rw [eq_encode_of_front? hf, List.append_assoc, decode_encode, ih]
    rfl
  | case3 b0 r0 hf ih =>
    rw [List.cons_append, decode]
    split
    · next c' after' h =>
      rw [← List.cons_append, front?_append_none hb rest hf] at h
      cases h
    · rw [ih]
      rfl

theorem chars_append_newline (a b : Bytes) :
    (a ++ newline ++ b).chars = a.chars ++ '\n' :: b.chars := by
  rw [newline, List.append_assoc, List.singleton_append, chars, decode_append_ascii (by decide),
    List.map_append]
  rfl

end Bytes
end ChartScript
