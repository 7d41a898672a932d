/-!
# Binary floating-point formats

A finite number of a format is `mantissa · 2 ^ exponent`. This module takes bit patterns apart and
puts them together, and rounds an exact fraction to the nearest number of a format, ties to the
even mantissa. Everything is arithmetic on natural numbers, so "the nearest" is a matter of
inequalities and not of a processor's behaviour.
-/

set_option autoImplicit false

namespace ChartScript

/-- A number `mantissa · 2 ^ exponent`. -/
structure Dyadic where
  mantissa : Nat
  exponent : Int
  deriving DecidableEq, Repr

/-- A fraction of natural numbers. -/
structure Fraction where
  num : Nat
  den : Nat
  deriving DecidableEq, Repr

namespace Fraction

/-- The fraction `n · base ^ exponent`. -/
def scaled (n base : Nat) (exponent : Int) : Fraction :=
  ⟨n * Nat.pow base exponent.toNat, Nat.pow base (-exponent).toNat⟩

/-- The quotient `num / den` rounded to a natural number, a half going to the even neighbour. -/
def nearest (q : Fraction) : Nat :=
  let down := q.num / q.den
  let rest := q.num % q.den
  if 2 * rest < q.den then down
  else if q.den < 2 * rest then down + 1
  else if down % 2 = 0 then down
  else down + 1

/-- The greatest `k` with `2 ^ k ≤ q`, for a positive fraction. -/
def log2 (q : Fraction) : Int :=
  let guess : Int := (Nat.log2 q.num : Int) - Nat.log2 q.den
  if q.den * Nat.pow 2 guess.toNat ≤ q.num * Nat.pow 2 (-guess).toNat then guess else guess - 1

/-- The greatest `k` with `10 ^ k ≤ q`, for a positive fraction. -/
def log10 (q : Fraction) : Int :=
  if q.den ≤ q.num then ((Nat.toDigits 10 (q.num / q.den)).length : Int) - 1
  else
    let below := (Nat.toDigits 10 (q.den / q.num)).length
    if q.den ≤ q.num * Nat.pow 10 (below - 1) then -((below : Int) - 1) else -(below : Int)

end Fraction

/-- The value of a dyadic number. -/
def Dyadic.fraction (d : Dyadic) : Fraction := .scaled d.mantissa 2 d.exponent

/-- A format with `precision` bits of mantissa (the leading one of normal numbers included) and
`exponentBits` bits of exponent. -/
structure BinaryFormat where
  precision : Nat
  exponentBits : Nat

/-- A number as its bits show it. -/
inductive Magnitude where
  | finite (value : Dyadic)
  | infinite
  | notANumber
  deriving DecidableEq, Repr

namespace BinaryFormat

/-- Double precision. -/
def double : BinaryFormat := ⟨53, 11⟩

/-- Single precision. -/
def single : BinaryFormat := ⟨24, 8⟩

/-- Half of the number of exponents. -/
def halfRange (f : BinaryFormat) : Nat := Nat.pow 2 (f.exponentBits - 1)

/-- The least mantissa of a normal number: a one and as many zeros as there are other bits. -/
def leading (f : BinaryFormat) : Nat := Nat.pow 2 (f.precision - 1)

/-- The place of the sign bit. -/
def signBit (f : BinaryFormat) : Nat := Nat.pow 2 (f.precision - 1 + f.exponentBits)

/-- The exponent of the last mantissa bit of the smallest numbers. -/
def minExponent (f : BinaryFormat) : Int := 3 - (f.halfRange : Int) - f.precision

/-- The exponent of the last mantissa bit of the largest numbers. -/
def maxExponent (f : BinaryFormat) : Int := (f.halfRange : Int) - f.precision

/-- The number of the format nearest to a fraction, as if exponents had no upper end. -/
def round (f : BinaryFormat) (q : Fraction) : Dyadic :=
  if q.num = 0 then ⟨0, f.minExponent⟩
  else
    let exponent := max (q.log2 - (f.precision - 1)) f.minExponent
    let mantissa := Fraction.nearest
      ⟨q.num * Nat.pow 2 (-exponent).toNat, q.den * Nat.pow 2 exponent.toNat⟩
    if mantissa = Nat.pow 2 f.precision then ⟨f.leading, exponent + 1⟩
    else ⟨mantissa, exponent⟩

/-- Whether the format has room for a rounded number. -/
def holds (f : BinaryFormat) (d : Dyadic) : Bool := d.exponent ≤ f.maxExponent

/-- The sign of a bit pattern. -/
def isNegative (f : BinaryFormat) (bits : Nat) : Bool :=
  bits / f.signBit % 2 == 1

/-- The magnitude a bit pattern stands for. -/
def magnitude (f : BinaryFormat) (bits : Nat) : Magnitude :=
  let low := bits % f.leading
  let field := bits / f.leading % Nat.pow 2 f.exponentBits
  if field = Nat.pow 2 f.exponentBits - 1 then
    if low = 0 then .infinite else .notANumber
  else if field = 0 then .finite ⟨low, f.minExponent⟩
  else .finite ⟨f.leading + low, f.minExponent + (field - 1)⟩

/-- The bit pattern of a number of the format. -/
def encode (f : BinaryFormat) (negative : Bool) (d : Dyadic) : Nat :=
  let sign := if negative then f.signBit else 0
  if d.mantissa < f.leading then sign + d.mantissa
  else
    sign + (d.exponent - f.minExponent + 1).toNat * f.leading + (d.mantissa - f.leading)

end BinaryFormat

/-- The double-precision number with the given sign and magnitude. -/
def realOf (negative : Bool) (d : Dyadic) : Float :=
  Float.ofBits (UInt64.ofNat (BinaryFormat.double.encode negative d))

/-- The sign bit of a real number. -/
def realIsNegative (x : Float) : Bool := BinaryFormat.double.isNegative x.toBits.toNat

/-- The magnitude of a real number. -/
def realMagnitude (x : Float) : Magnitude := BinaryFormat.double.magnitude x.toBits.toNat

/-- The whole part of a real number, toward zero; the least word when there is none or it does not
fit. -/
def realTruncate (x : Float) : Int64 :=
  match realMagnitude x with
  | .finite d =>
    let whole := d.fraction.num / d.fraction.den
    let signed : Int := if realIsNegative x then -(whole : Int) else whole
    if Int64.minValue.toInt ≤ signed ∧ signed ≤ Int64.maxValue.toInt then Int64.ofInt signed
    else Int64.minValue
  | _ => Int64.minValue

end ChartScript
