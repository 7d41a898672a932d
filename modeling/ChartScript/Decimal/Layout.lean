import ChartScript.Decimal.Shortest
import ChartScript.Text.Bytes

/-!
# Number texts

How a number is laid out once its digits are known: positional between two powers of ten, with an
exponent elsewhere. A `NumberLayout` holds the choices; the modules that write numbers each name
theirs.
-/

set_option autoImplicit false

namespace ChartScript

/-- The choices of a number text. A number with leading digit at `10 ^ x` is written positionally
when `positionalFrom ≤ x < positionalBelow`. -/
structure NumberLayout where
  positionalFrom : Int
  positionalBelow : Int
  /-- Whole numbers and mantissas of one digit are written with `.0`. -/
  keepsPoint : Bool
  mark : Char
  /-- An exponent that is not negative is written with `+`. -/
  plusSign : Bool
  exponentWidth : Nat
  infinity : String
  negativeInfinity : String

namespace NumberLayout

/-- Digits with a point behind the first `whole` of them, `.0` or nothing when none follow. -/
def withPoint (layout : NumberLayout) (whole fraction : List Char) : List Char :=
  if fraction.isEmpty then
    if layout.keepsPoint then whole ++ ['.', '0'] else whole
  else whole ++ '.' :: fraction

/-- The positional text of a decimal. -/
def positional (layout : NumberLayout) (x : Decimal) : List Char :=
  let digits := Nat.toDigits 10 x.coefficient
  if 0 ≤ x.exponent then
    layout.withPoint (digits ++ List.replicate x.exponent.toNat '0') []
  else
    let places := (-x.exponent).toNat
    if places < digits.length then
      layout.withPoint (digits.take (digits.length - places)) (digits.drop (digits.length - places))
    else layout.withPoint ['0'] (List.replicate (places - digits.length) '0' ++ digits)

/-- The text of an exponent. -/
def exponentText (layout : NumberLayout) (x : Int) : List Char :=
  let digits := Nat.toDigits 10 x.natAbs
  let sign := if x < 0 then ['-'] else if layout.plusSign then ['+'] else []
  sign ++ List.replicate (layout.exponentWidth - digits.length) '0' ++ digits

/-- The text of a decimal without sign. -/
def unsigned (layout : NumberLayout) (x : Decimal) : List Char :=
  let digits := Nat.toDigits 10 x.coefficient
  let top : Int := (digits.length : Int) - 1 + x.exponent
  if x.coefficient = 0 ∨ (layout.positionalFrom ≤ top ∧ top < layout.positionalBelow) then
    layout.positional x
  else
    layout.withPoint (digits.take 1) (digits.drop 1) ++ layout.mark :: layout.exponentText top

/-- The text of a number of a binary format. -/
def write (layout : NumberLayout) (f : BinaryFormat) (bits : Nat) : List Char :=
  let negative := f.isNegative bits
  match f.magnitude bits with
  | .notANumber => "NaN".toList
  | .infinite => (if negative then layout.negativeInfinity else layout.infinity).toList
  | .finite d =>
    let text := layout.unsigned (.shortest f d)
    if negative then '-' :: text else text

end NumberLayout

end ChartScript
