import ChartScript.Text.Ranges
import ChartScript.Text.Utf8

/-!
# White space

The characters with the property White_Space, and trimming them off both ends of a text. Scripts
themselves know only four blanks (`isScriptBlank`): space, tab, line feed and carriage return.
-/

set_option autoImplicit false

namespace ChartScript.Text

/-- White space, as ranges of code points. -/
def blankRanges : List (Nat × Nat) :=
  [(0x9, 0xD), (0x20, 0x20), (0x85, 0x85), (0xA0, 0xA0), (0x1680, 0x1680), (0x2000, 0x200A),
   (0x2028, 0x2029), (0x202F, 0x202F), (0x205F, 0x205F), (0x3000, 0x3000)]

/-- Whether a character is white space. -/
def isBlank (c : Char) : Bool := inRanges blankRanges c

/-- Whether a character separates tokens of a script. -/
def isScriptBlank (c : Char) : Bool := c == ' ' || c == '\t' || c == '\n' || c == '\r'

/-- Whether a piece of a text is a white-space character; a stray byte is none. -/
def isBlankPiece : Piece → Bool
  | .char c => isBlank c
  | .stray _ => false

end ChartScript.Text

namespace ChartScript.Bytes

/-- The text without the white space at its two ends. -/
def trim (bs : Bytes) : Bytes :=
  let inner := (bs.decode.dropWhile Text.isBlankPiece).reverse.dropWhile Text.isBlankPiece
  inner.reverse.flatMap Piece.bytes

end ChartScript.Bytes
