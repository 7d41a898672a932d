import ChartScript.Decimal.Binary

/-!
# Shortest decimals

The decimal with the fewest digits that still rounds to a given number of a binary format, and of
those the one nearest to it (a tie goes to the even last digit). The search tries one digit, two
digits, and so on; on each grid only the two neighbours of the number can be the answer, because
the decimals that round to it form an interval around it.
-/

set_option autoImplicit false

namespace ChartScript

/-- A number `coefficient · 10 ^ exponent`. -/
structure Decimal where
  coefficient : Nat
  exponent : Int
  deriving DecidableEq, Repr

namespace Decimal

/-- The value of a decimal. -/
def fraction (d : Decimal) : Fraction := .scaled d.coefficient 10 d.exponent

/-- The same number without zeros at the end of its coefficient. -/
def trimmed (coefficient : Nat) (exponent : Int) : Decimal :=
  if _h : coefficient ≠ 0 ∧ coefficient % 10 = 0 then
    trimmed (coefficient / 10) (exponent + 1)
  else ⟨coefficient, exponent⟩
termination_by coefficient
decreasing_by omega

/-- Whether a decimal rounds to a number of the format. -/
def readsAs (f : BinaryFormat) (d : Dyadic) (x : Decimal) : Bool := f.round x.fraction == d

/-- All digits of a dyadic number. -/
def exact (d : Dyadic) : Decimal :=
  if 0 ≤ d.exponent then ⟨d.mantissa * Nat.pow 2 d.exponent.toNat, 0⟩
  else ⟨d.mantissa * Nat.pow 5 (-d.exponent).toNat, d.exponent⟩

/-- The decimal with last digit at `10 ^ exponent` that is nearest to `d` among those that round to
it, if any does. -/
def onGrid? (f : BinaryFormat) (d : Dyadic) (exponent : Int) : Option Decimal :=
  let q := d.fraction
  let num := q.num * Nat.pow 10 (-exponent).toNat
  let den := q.den * Nat.pow 10 exponent.toNat
  let low : Decimal := ⟨num / den, exponent⟩
  let high : Decimal := ⟨num / den + 1, exponent⟩
  match readsAs f d low, readsAs f d high with
  | true, true => some (if Fraction.nearest ⟨num, den⟩ = low.coefficient then low else high)
  | true, false => some low
  | false, true => some high
  | false, false => none

/-- The first hit on grids of `digits`, `digits + 1`, … digits; `top` is the place of the leading
digit. All digits of the number when `tries` grids have none. -/
def search (f : BinaryFormat) (d : Dyadic) (top : Int) : Nat → Nat → Decimal
  | 0, _ => exact d
  | tries + 1, digits =>
    match onGrid? f d (top - (digits - 1 : Nat)) with
    | some x => x
    | none => search f d top tries (digits + 1)

/-- The shortest decimal that rounds to `d`. Seventeen digits always suffice for the formats in
use. -/
def shortest (f : BinaryFormat) (d : Dyadic) : Decimal :=
  if d.mantissa = 0 then ⟨0, 0⟩
  else
    let x := search f d d.fraction.log10 17 1
    trimmed x.coefficient x.exponent

end Decimal

end ChartScript
