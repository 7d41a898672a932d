import ChartScript.Text.Quoted
import ChartScript.Value.Host

/-!
# Values of a script

A script computes with integers, reals and texts. Any other result of a host function is kept as a
host value, which a script can store, show and pass on but not compute with. `nil` is the value of
a statement or function that yields none.
-/

set_option autoImplicit false

namespace ChartScript

/-- A value of a script. -/
inductive Value where
  | nil
  | integer (n : Int64)
  | real (x : Float)
  | text (t : Bytes)
  | host (h : HostValue)
  deriving Inhabited

/-- The type of a value other than `nil`. -/
inductive ValueType where
  | integer
  | real
  | text
  | host
  deriving DecidableEq, Repr

namespace ValueType

/-- The name of a type in messages and records. -/
def name : ValueType → String
  | .integer => "Integer"
  | .real => "Real"
  | .text => "Text"
  | .host => "Opaque"

/-- The type with a given number, if there is one. -/
def ofCode? : Int → Option ValueType
  | 0 => some .integer
  | 1 => some .real
  | 2 => some .text
  | 3 => some .host
  | _ => none

/-- The name of the type with a given number. -/
def nameOfCode (code : Int) : String :=
  match ofCode? code with
  | some t => t.name
  | none => "Unknown"

end ValueType

namespace Value

/-- Reals are positional from `10 ^ -3` up to below `10 ^ 7`; they always have a point, and their
exponents are as short as can be. -/
def reals : NumberLayout where
  positionalFrom := -3
  positionalBelow := 7
  keepsPoint := true
  mark := 'E'
  plusSign := false
  exponentWidth := 1
  infinity := "Infinity"
  negativeInfinity := "-Infinity"

/-- The type of a value; `nil` has none. -/
def type? : Value → Option ValueType
  | .nil => none
  | .integer _ => some .integer
  | .real _ => some .real
  | .text _ => some .text
  | .host _ => some .host

/-- The name of a value's type, empty for `nil`. -/
def typeName (v : Value) : Bytes :=
  match v.type? with
  | some t => t.name
  | none => []

/-- The text of a value: what `print` writes and what it adds to a text. -/
def inspect : Value → Bytes
  | .nil => "nil"
  | .integer n => Bytes.ofInt n.toInt
  | .real x => Bytes.ofChars (reals.write .double x.toBits.toNat)
  | .text t => t
  | .host h => h.text

/-- The text of a value together with its type; texts are quoted. -/
def describe : Value → Bytes
  | .nil => "nil"
  | .text t => "Text " ++ t.quote
  | v => v.typeName ++ " " ++ v.inspect

/-- Whether two values have the same type and content. Reals compare as numbers, so a NaN differs
from itself and the two zeros agree; host values compare by their texts. -/
def equal : Value → Value → Bool
  | .nil, .nil => true
  | .integer a, .integer b => a == b
  | .real a, .real b => a == b
  | .text a, .text b => a == b
  | .host a, .host b => a.text == b.text
  | _, _ => false

/-- The single-precision number with the given bits, in double precision. -/
def realOfSingle (bits : UInt32) : Float :=
  let negative := BinaryFormat.single.isNegative bits.toNat
  match BinaryFormat.single.magnitude bits.toNat with
  | .finite d => realOf negative (BinaryFormat.double.round d.fraction)
  | .infinite => Float.ofBits (if negative then 0xFFF0000000000000 else 0x7FF0000000000000)
  | .notANumber => Float.ofBits 0x7FF8000000000000

/-- The value of a script for a value of the host. -/
def ofHost : HostValue → Value
  | .int kind n => if kind.isScriptInteger then .integer (Int64.ofInt n) else .host (.int kind n)
  | .single bits => .real (realOfSingle bits)
  | .double x => .real x
  | .string t => .text t
  | h => .host h

/-- The value of the host for a value of a script. -/
def toHost : Value → HostValue
  | .nil => .nil
  | .integer n => .int .i64 n.toInt
  | .real x => .double x
  | .text t => .string t
  | .host h => h

end Value

/-- What a host function returns: a value of its own or one that is a script's already. -/
inductive HostResult where
  | plain (h : HostValue)
  | value (v : Value)

/-- The value a script gets from a host function. A function that returns no value at all yields
the host's `nil`. -/
def Value.ofResult : HostResult → Value
  | .plain h => .ofHost h
  | .value .nil => .host .nil
  | .value v => v

end ChartScript
