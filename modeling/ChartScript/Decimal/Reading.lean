import ChartScript.Decimal.Binary
import ChartScript.Text.Digit
import ChartScript.Text.Quoted

/-!
# Reading numbers

Integers are a sign and ASCII digits. Reals are decimal (`5.`, `.5`, `1e5`) or hexadecimal with a
binary exponent (`0x1.8p-2`), may set off digits by single underscores, and may be spelled `inf`,
`infinity` or `nan`. A real is rounded correctly; one too large for the format is refused, one too
small becomes zero.
-/

set_option autoImplicit false

namespace ChartScript

open Text

/-- The number that a list of ASCII digits spells. -/
def digitsValue (cs : List Char) : Nat := cs.foldl (fun n c => n * 10 + (c.toNat - 48)) 0

/-- The optional sign at the front of a number: whether it is a minus, and what follows. -/
def splitSign : List Char → Bool × List Char
  | '-' :: rest => (true, rest)
  | '+' :: rest => (false, rest)
  | cs => (false, cs)

/-- Reads a 64-bit integer: an optional sign and at least one ASCII digit, nothing else. -/
def readInteger? (cs : List Char) : Option Int64 :=
  let (negative, digits) := splitSign cs
  if digits.isEmpty || !digits.all isAsciiDigit then none
  else
    let n := digitsValue digits
    let signed : Int := if negative then -(n : Int) else n
    if Int64.minValue.toInt ≤ signed ∧ signed ≤ Int64.maxValue.toInt then some (Int64.ofInt signed)
    else none

namespace Numeral

/-- The two ways to write digits. -/
inductive Radix where
  | decimal
  | hexadecimal
  deriving DecidableEq

namespace Radix

def digit? : Radix → Char → Option Nat
  | .decimal, c => if isAsciiDigit c then some (c.toNat - 48) else none
  | .hexadecimal, c => Quoted.hexValue? c

def isDigit (r : Radix) (c : Char) : Bool := (r.digit? c).isSome

def base : Radix → Nat
  | .decimal => 10
  | .hexadecimal => 16

/-- The letter that begins an exponent. -/
def isExponentMark : Radix → Char → Bool
  | .decimal, c => c == 'e' || c == 'E'
  | .hexadecimal, c => c == 'p' || c == 'P'

end Radix

/-- Whether every underscore stands between two digits. `after` tells whether a digit came before;
the `0x` in front of a hexadecimal number counts as one. -/
def separatorsOk (r : Radix) : Bool → List Char → Bool
  | _, [] => true
  | after, c :: rest =>
    if c == '_' then after && (rest.head?.any r.isDigit) && separatorsOk r false rest
    else separatorsOk r (r.isDigit c) rest

/-- The value of the exponent's digits, which stops growing once it is beyond every format. -/
def exponentValue (cs : List Char) : Nat :=
  (cs.filter isAsciiDigit).foldl (fun n c => if n < 10000 then n * 10 + (c.toNat - 48) else n) 0

/-- The exponent behind the digits: its mark, an optional sign, and digits that begin with one.
A decimal number may have none. -/
def readExponent? (r : Radix) : List Char → Option Int
  | [] => match r with
    | .decimal => some 0
    | .hexadecimal => none
  | mark :: rest =>
    let (negative, digits) := splitSign rest
    if r.isExponentMark mark && digits.head?.any isAsciiDigit &&
        digits.all (fun c => isAsciiDigit c || c == '_') then
      let n : Int := exponentValue digits
      some (if negative then -n else n)
    else none

/-- The value of an unsigned number behind its `0x`, if it has one. -/
def readUnsigned? (r : Radix) (cs : List Char) : Option Fraction :=
  let inBody := fun c => r.isDigit c || c == '_' || c == '.'
  let body := cs.takeWhile inBody
  let whole := body.takeWhile (· != '.')
  let fraction := (body.dropWhile (· != '.')).drop 1
  let digits := (whole ++ fraction).filterMap r.digit?
  if digits.isEmpty || fraction.contains '.' || !separatorsOk r (r == .hexadecimal) cs then none
  else
    (readExponent? r (cs.dropWhile inBody)).map fun exponent =>
      let mantissa := digits.foldl (fun n d => n * r.base + d) 0
      let places : Int := (fraction.filterMap r.digit?).length
      match r with
      | .decimal => .scaled mantissa 10 (exponent - places)
      | .hexadecimal => .scaled mantissa 2 (exponent - 4 * places)

end Numeral

/-- Reads a real number. -/
def readReal? (cs : List Char) : Option Float :=
  let (negative, rest) := splitSign cs
  let word := String.ofList (rest.map Char.toLower)
  if word == "inf" || word == "infinity" then
    some (Float.ofBits (if negative then 0xFFF0000000000000 else 0x7FF0000000000000))
  else if word == "nan" && rest.length == cs.length then some (Float.ofBits 0x7FF8000000000000)
  else
    let value? := match rest with
      | '0' :: 'x' :: digits => Numeral.readUnsigned? .hexadecimal digits
      | '0' :: 'X' :: digits => Numeral.readUnsigned? .hexadecimal digits
      | digits => Numeral.readUnsigned? .decimal digits
    value?.bind fun q =>
      let d := BinaryFormat.double.round q
      if BinaryFormat.double.holds d then some (realOf negative d) else none

end ChartScript
