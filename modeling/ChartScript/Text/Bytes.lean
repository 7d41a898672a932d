/-!
# Byte texts

Every text a script meets (source, names, literals, messages, files) is a list of bytes. Most are
UTF-8, but nothing promises it: a string literal may spell any byte, and a file may hold any. So a
text is its bytes, names compare and sort byte by byte, and characters are a *reading* of a text
(`ChartScript.Text.Utf8`), never its representation.
-/

set_option autoImplicit false

namespace ChartScript

/-- A text, byte by byte. -/
abbrev Bytes := List UInt8

namespace Bytes

/-- The UTF-8 bytes of a list of characters. -/
def ofChars (cs : List Char) : Bytes := cs.flatMap String.utf8EncodeChar

/-- The UTF-8 bytes of a string. -/
def ofString (s : String) : Bytes := ofChars s.toList

instance : Coe String Bytes := ⟨ofString⟩

@[simp] theorem ofChars_nil : ofChars [] = [] := rfl

@[simp] theorem ofChars_cons (c : Char) (cs : List Char) :
    ofChars (c :: cs) = String.utf8EncodeChar c ++ ofChars cs := rfl

@[simp] theorem ofChars_append (a b : List Char) : ofChars (a ++ b) = ofChars a ++ ofChars b := by
  simp [ofChars]

/-- The line end. -/
def newline : Bytes := [10]

/-- The texts of a list, one after another with `sep` between two of them. -/
def join (sep : Bytes) : List Bytes → Bytes
  | [] => []
  | [t] => t
  | t :: u :: rest => t ++ sep ++ join sep (u :: rest)

/-- Splits a text at every `b`; there is one part more than there are separators. -/
def splitOn (b : UInt8) : Bytes → List Bytes
  | [] => [[]]
  | x :: rest =>
    if x = b then [] :: splitOn b rest
    else match splitOn b rest with
      | [] => [[x]]
      | part :: parts => (x :: part) :: parts

/-- Decimal text of a natural number. -/
def ofNat (n : Nat) : Bytes := ofChars (Nat.toDigits 10 n)

/-- Decimal text of an integer, with a minus sign when it is negative. -/
def ofInt : Int → Bytes
  | .ofNat n => ofNat n
  | .negSucc n => 45 :: ofNat (n + 1)

/-- The digits of `n` in base sixteen, small letters, at least `width` of them. -/
def hex (width n : Nat) : Bytes :=
  let digits := Nat.toDigits 16 n
  ofChars (List.replicate (width - digits.length) '0' ++ digits)

/-- The order of texts, as a test for sorting: byte by byte, a beginning before what extends it. -/
def le (a b : Bytes) : Bool := !decide (b < a)

/-- The texts of a list in byte order. -/
def sort (texts : List Bytes) : List Bytes := texts.mergeSort le

end Bytes

end ChartScript
