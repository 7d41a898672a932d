import ChartScript.Text.Printable
import ChartScript.Text.Utf8

/-!
# Quoted texts

A text in double quotes, as string literals spell it and as messages show it. Writing (`quote`)
shows printable characters as they are and escapes everything else, so that any byte text has a
quoted form; reading (`unquoteBody?`) takes the same escapes and a few more that writing never uses
(octal bytes, long forms of characters that could stand for themselves).
-/

set_option autoImplicit false

namespace ChartScript.Text.Quoted

/-- The hexadecimal digits of `n`, small letters, filled up to `width` with zeros. -/
def hexDigits (width n : Nat) : List Char :=
  let digits := Nat.toDigits 16 n
  List.replicate (width - digits.length) '0' ++ digits

/-- The one-letter escape of a control character. -/
def shortEscape? (c : Char) : Option Char :=
  match c.toNat with
  | 7 => some 'a'
  | 8 => some 'b'
  | 9 => some 't'
  | 10 => some 'n'
  | 11 => some 'v'
  | 12 => some 'f'
  | 13 => some 'r'
  | _ => none

/-- How a character is written between two `mark`s. -/
def escapeChar (mark c : Char) : List Char :=
  if c == mark || c == '\\' then ['\\', c]
  else if isPrintable c then [c]
  else match shortEscape? c with
    | some letter => ['\\', letter]
    | none =>
      if c.toNat < 0x80 then '\\' :: 'x' :: hexDigits 2 c.toNat
      else if c.toNat < 0x10000 then '\\' :: 'u' :: hexDigits 4 c.toNat
      else '\\' :: 'U' :: hexDigits 8 c.toNat

/-- How a piece of a text is written between two `mark`s: a stray byte by its number. -/
def escapePiece (mark : Char) : Piece → List Char
  | .char c => escapeChar mark c
  | .stray b => '\\' :: 'x' :: hexDigits 2 b.toNat

/-- The characters of a text in double quotes. -/
def quoteChars (bs : Bytes) : List Char :=
  '"' :: bs.decode.flatMap (escapePiece '"') ++ ['"']

/-- The value of a hexadecimal digit of either case. -/
def hexValue? (c : Char) : Option Nat :=
  if '0' ≤ c && c ≤ '9' then some (c.toNat - 48)
  else if 'a' ≤ c && c ≤ 'f' then some (c.toNat - 87)
  else if 'A' ≤ c && c ≤ 'F' then some (c.toNat - 55)
  else none

/-- The value of a byte that is a hexadecimal digit of either case. -/
def hexByteValue? (b : UInt8) : Option Nat := hexValue? (Char.ofNat b.toNat)

/-- The value of an octal digit. -/
def octalValue? (c : Char) : Option Nat :=
  if '0' ≤ c && c ≤ '7' then some (c.toNat - 48) else none

/-- The number that exactly `count` digits at the front spell, and what follows them. -/
def readDigits? (value? : Char → Option Nat) (base : Nat) :
    Nat → Nat → List Char → Option (Nat × List Char)
  | 0, acc, cs => some (acc, cs)
  | _ + 1, _, [] => none
  | count + 1, acc, c :: cs =>
    match value? c with
    | some d => readDigits? value? base count (acc * base + d) cs
    | none => none

/-- Reading digits never lengthens the rest. -/
theorem readDigits?_length {value? : Char → Option Nat} {base count acc n : Nat}
    {cs rest : List Char} (h : readDigits? value? base count acc cs = some (n, rest)) :
    rest.length ≤ cs.length := by
  induction count generalizing acc cs with
  | zero =>
    simp only [readDigits?, Option.some.injEq, Prod.mk.injEq] at h
    exact h.2 ▸ Nat.le_refl _
  | succ count ih =>
    cases cs with
    | nil => simp [readDigits?] at h
    | cons c cs =>
      simp only [readDigits?] at h
      split at h
      · exact Nat.le_succ_of_le (ih h)
      · exact absurd h (by simp)

/-- The character with the given code point: none for a surrogate or beyond U+10FFFF. -/
def charOfCode? (n : Nat) : Option Char :=
  if n < 0xD800 || (0xDFFF < n && n < 0x110000) then some (Char.ofNat n) else none

/-- What the characters behind a backslash stand for, and what follows them. -/
def unescape? : List Char → Option (Bytes × List Char)
  | [] => none
  | c :: rest =>
    match c with
    | 'a' => some ([7], rest)
    | 'b' => some ([8], rest)
    | 't' => some ([9], rest)
    | 'n' => some ([10], rest)
    | 'v' => some ([11], rest)
    | 'f' => some ([12], rest)
    | 'r' => some ([13], rest)
    | '\\' => some ([92], rest)
    | '"' => some ([34], rest)
    | 'x' => (readDigits? hexValue? 16 2 0 rest).map fun (n, after) => ([UInt8.ofNat n], after)
    | 'u' => (readDigits? hexValue? 16 4 0 rest).bind fun (n, after) =>
        (charOfCode? n).map fun ch => (String.utf8EncodeChar ch, after)
    | 'U' => (readDigits? hexValue? 16 8 0 rest).bind fun (n, after) =>
        (charOfCode? n).map fun ch => (String.utf8EncodeChar ch, after)
    | _ => (octalValue? c).bind fun first =>
        (readDigits? octalValue? 8 2 first rest).bind fun (n, after) =>
          if n < 256 then some ([UInt8.ofNat n], after) else none

/-- An escape takes at least the character behind its backslash. -/
theorem unescape?_length {cs rest : List Char} {bs : Bytes}
    (h : unescape? cs = some (bs, rest)) : rest.length < cs.length := by
  cases cs with
  | nil => simp [unescape?] at h
  | cons c cs =>
    have short : ∀ {value? : Char → Option Nat} {base count acc n : Nat} {after : List Char},
        readDigits? value? base count acc cs = some (n, after) →
          after.length < (c :: cs).length :=
      fun h => Nat.lt_succ_of_le (readDigits?_length h)
    simp only [unescape?] at h
    split at h
    all_goals first
      | (simp only [Option.some.injEq, Prod.mk.injEq] at h
         obtain ⟨-, rfl⟩ := h
         exact Nat.lt_succ_self _)
      | skip
    · obtain ⟨⟨n, after⟩, hr, hb⟩ := Option.map_eq_some_iff.1 h
      simp only [Prod.mk.injEq] at hb
      exact hb.2 ▸ short hr
    · obtain ⟨⟨n, after⟩, hr, hb⟩ := Option.bind_eq_some_iff.1 h
      obtain ⟨ch, -, hb⟩ := Option.map_eq_some_iff.1 hb
      simp only [Prod.mk.injEq] at hb
      exact hb.2 ▸ short hr
    · obtain ⟨⟨n, after⟩, hr, hb⟩ := Option.bind_eq_some_iff.1 h
      obtain ⟨ch, -, hb⟩ := Option.map_eq_some_iff.1 hb
      simp only [Prod.mk.injEq] at hb
      exact hb.2 ▸ short hr
    · obtain ⟨first, -, h⟩ := Option.bind_eq_some_iff.1 h
      obtain ⟨⟨n, after⟩, hr, hb⟩ := Option.bind_eq_some_iff.1 h
      split at hb
      · simp only [Option.some.injEq, Prod.mk.injEq] at hb
        exact hb.2 ▸ short hr
      · exact absurd hb (by simp)

/-- The text spelled by what stands between two double quotes; none for a bad escape, an inner
quote or a line end. -/
def unquoteBody? (cs : List Char) : Option Bytes :=
  match cs with
  | [] => some []
  | c :: rest =>
    if c == '\\' then
      match _h : unescape? rest with
      | some (bs, after) => (unquoteBody? after).map (bs ++ ·)
      | none => none
    else if c == '"' || c == '\n' then none
    else (unquoteBody? rest).map (String.utf8EncodeChar c ++ ·)
termination_by cs.length
decreasing_by
  · exact Nat.lt_succ_of_lt (unescape?_length _h)
  · simp

end ChartScript.Text.Quoted

namespace ChartScript

/-- A text in double quotes. -/
def Bytes.quote (bs : Bytes) : Bytes := Bytes.ofChars (Text.Quoted.quoteChars bs)

/-- A character in single quotes. -/
def quoteChar (c : Char) : Bytes :=
  Bytes.ofChars ('\'' :: Text.Quoted.escapeChar '\'' c ++ ['\''])

end ChartScript
