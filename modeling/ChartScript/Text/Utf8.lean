import ChartScript.Text.Bytes

/-!
# Characters of a text

`decode` reads a text as UTF-8 without ever failing: a byte that does not begin a well-formed
character is kept as a *stray* byte, and reading goes on right behind it. Nothing is lost
so a text can be taken apart, looked at by character and put together
again. `chars` is the coarser view of a reader that shows U+FFFD for each stray byte.
-/

set_option autoImplicit false

namespace ChartScript

/-- One step of reading a text: a character, or a byte that belongs to none. -/
inductive Piece where
  | char (c : Char)
  | stray (b : UInt8)
  deriving DecidableEq, Repr

namespace Piece

/-- The bytes a piece was read from. -/
def bytes : Piece → Bytes
  | .char c => String.utf8EncodeChar c
  | .stray b => [b]

/-- The character a piece shows: U+FFFD stands for a stray byte. -/
def shown : Piece → Char
  | .char c => c
  | .stray _ => '\uFFFD'

end Piece

namespace Bytes

/-- A byte of the form `10xxxxxx`. -/
def isTail (b : UInt8) : Bool := 0x80 ≤ b && b < 0xC0

/-- The six bits a trailing byte carries. -/
def tailBits (b : UInt8) : Nat := b.toNat % 64

/-- Two bytes that form a character from U+0080 to U+07FF. -/
def isPair (b0 b1 : UInt8) : Bool := 0xC2 ≤ b0 && b0 < 0xE0 && isTail b1

/-- Three bytes that form a character from U+0800 to U+FFFF: no overlong form, no surrogate. -/
def isTriple (b0 b1 b2 : UInt8) : Bool :=
  0xE0 ≤ b0 && b0 < 0xF0 && isTail b1 && isTail b2 &&
    (b0 != 0xE0 || 0xA0 ≤ b1) && (b0 != 0xED || b1 < 0xA0)

/-- Four bytes that form a character from U+10000 to U+10FFFF. -/
def isQuad (b0 b1 b2 b3 : UInt8) : Bool :=
  0xF0 ≤ b0 && b0 < 0xF5 && isTail b1 && isTail b2 && isTail b3 &&
    (b0 != 0xF0 || 0x90 ≤ b1) && (b0 != 0xF4 || b1 < 0x90)

/-- The character at the front of a text and what follows it, if a well-formed one stands there. -/
def front? : Bytes → Option (Char × Bytes)
  | [] => none
  | b0 :: r0 =>
    if b0 < 0x80 then some (Char.ofNat b0.toNat, r0)
    else match r0 with
      | [] => none
      | b1 :: r1 =>
        if isPair b0 b1 then some (Char.ofNat (b0.toNat % 32 * 64 + tailBits b1), r1)
        else match r1 with
          | [] => none
          | b2 :: r2 =>
            if isTriple b0 b1 b2 then
              some (Char.ofNat (b0.toNat % 16 * 4096 + tailBits b1 * 64 + tailBits b2), r2)
            else match r2 with
              | [] => none
              | b3 :: r3 =>
                if isQuad b0 b1 b2 b3 then
                  some (Char.ofNat (b0.toNat % 8 * 262144 + tailBits b1 * 4096 +
                    tailBits b2 * 64 + tailBits b3), r3)
                else none

/-- A character takes at least one byte. -/
theorem front?_length {bs rest : Bytes} {c : Char} (h : front? bs = some (c, rest)) :
    rest.length < bs.length := by
  unfold front? at h
  repeat' split at h
  all_goals simp only [Option.some.injEq, Prod.mk.injEq, reduceCtorEq] at h
  all_goals
    obtain ⟨-, rfl⟩ := h
    simp only [List.length_cons]
    omega

/-- The pieces of a text, in order. -/
def decode (bs : Bytes) : List Piece :=
  match bs with
  | [] => []
  | b :: rest =>
    match _h : front? (b :: rest) with
    | some (c, after) => .char c :: decode after
    | none => .stray b :: decode rest
termination_by bs.length
decreasing_by
  · exact front?_length _h
  · simp

/-- The characters a text shows. -/
def chars (bs : Bytes) : List Char := (decode bs).map Piece.shown

/-- Whether a text is UTF-8 throughout. -/
def isUtf8 (bs : Bytes) : Bool := (decode bs).all fun
  | .char _ => true
  | .stray _ => false

/-- The text with U+FFFD written for every stray byte. -/
def scrubbed (bs : Bytes) : Bytes := ofChars bs.chars

/-- The string a text is the UTF-8 form of, if it is one. -/
def toString? (bs : Bytes) : Option String :=
  if bs.isUtf8 then some (String.ofList bs.chars) else none

end Bytes

end ChartScript
