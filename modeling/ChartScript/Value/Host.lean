import ChartScript.Decimal.Layout

/-!
# Host values

What a function of the host hands to a script or takes from one: the plain data of the surrounding
program. Scripts compute with some of them (`ChartScript.Value`); the others they can only pass on
and show.
-/

set_option autoImplicit false

namespace ChartScript

/-- The integer types of the host. `word` and `uword` are its native sizes, 64 bits here. -/
inductive IntKind where
  | word
  | i8
  | i16
  | i32
  | i64
  | uword
  | u8
  | u16
  | u32
  | u64
  deriving DecidableEq, Repr

/-- Whether the integers of a host type become integers of a script: those that surely fit. -/
def IntKind.isScriptInteger : IntKind → Bool
  | .uword | .u64 => false
  | _ => true

/-- A plain value of the host. A `described` value is any other one that knows how to show itself:
all a script sees of it is that text. -/
inductive HostValue where
  | nil
  | bool (b : Bool)
  | int (kind : IntKind) (n : Int)
  | single (bits : UInt32)
  | double (x : Float)
  | string (text : Bytes)
  | described (text : Bytes)
  | list (items : List HostValue)
  deriving Inhabited

namespace HostValue

/-- Host numbers are positional from `10 ^ -4` up to below `10 ^ 6`, without a needless point, and
have signed exponents of at least two digits. -/
def numbers : NumberLayout where
  positionalFrom := -4
  positionalBelow := 6
  keepsPoint := false
  mark := 'e'
  plusSign := true
  exponentWidth := 2
  infinity := "+Inf"
  negativeInfinity := "-Inf"

mutual

/-- The text of a value inside a list. -/
def shown : HostValue → Bytes
  | .nil => "<nil>"
  | .bool b => if b then "true" else "false"
  | .int _ n => Bytes.ofInt n
  | .single bits => Bytes.ofChars (numbers.write .single bits.toNat)
  | .double x => Bytes.ofChars (numbers.write .double x.toBits.toNat)
  | .string text => text
  | .described text => text
  | .list items => "[" ++ Bytes.join " " (shownAll items) ++ "]"

/-- The texts of the values of a list. -/
def shownAll : List HostValue → List Bytes
  | [] => []
  | item :: items => item.shown :: shownAll items

end

/-- The text of a value on its own. -/
def text : HostValue → Bytes
  | .nil => "nil"
  | h => h.shown

end HostValue

end ChartScript
