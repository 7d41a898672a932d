import ChartScript.Decimal.Layout
import ChartScript.Text.Quoted

/-!
# Data as JSON text

Log lines, replies and stored runs are JSON without blanks. The text is safe to embed in HTML
(`<`, `>` and `&` are escaped, and so are the two Unicode line separators), and it never holds a
raw control character, whatever bytes went in: a byte that is no UTF-8 is written as U+FFFD.
-/

set_option autoImplicit false

namespace ChartScript

/-- A JSON value. The fields of an object stay in the order given. -/
inductive Datum where
  | null
  | bool (b : Bool)
  | int (n : Int)
  | real (x : Float)
  | text (t : Bytes)
  | list (items : List Datum)
  | object (fields : List (Bytes × Datum))
  deriving Inhabited

namespace Datum

/-- Numbers are positional from `10 ^ -6` up to below `10 ^ 21`. -/
def numbers : NumberLayout where
  positionalFrom := -6
  positionalBelow := 21
  keepsPoint := false
  mark := 'e'
  plusSign := true
  exponentWidth := 1
  infinity := "Infinity"
  negativeInfinity := "-Infinity"

/-- The characters that a character of a text is written as. -/
def escapeChar (c : Char) : List Char :=
  match c with
  | '"' => ['\\', '"']
  | '\\' => ['\\', '\\']
  | '\n' => ['\\', 'n']
  | '\r' => ['\\', 'r']
  | '\t' => ['\\', 't']
  | '\x08' => ['\\', 'b']
  | '\x0c' => ['\\', 'f']
  | _ =>
    if c.toNat < 0x20 || c == '<' || c == '>' || c == '&' || c == '\u2028' || c == '\u2029' then
      '\\' :: 'u' :: Text.Quoted.hexDigits 4 c.toNat
    else [c]

/-- A text in JSON quotes. -/
def quoted (t : Bytes) : Bytes :=
  Bytes.ofChars ('"' :: t.chars.flatMap escapeChar ++ ['"'])

/-- The object of a map: its fields by the byte order of their names. -/
def ofMap (fields : List (Bytes × Datum)) : Datum :=
  .object (fields.mergeSort fun a b => Bytes.le a.1 b.1)

mutual

/-- Whether JSON has a text for the value: not for infinities and NaN. -/
def isWritable : Datum → Bool
  | .real x => x.isFinite
  | .list items => areWritable items
  | .object fields => fieldsAreWritable fields
  | _ => true

def areWritable : List Datum → Bool
  | [] => true
  | d :: rest => d.isWritable && areWritable rest

def fieldsAreWritable : List (Bytes × Datum) → Bool
  | [] => true
  | (_, d) :: rest => d.isWritable && fieldsAreWritable rest

end

mutual

/-- The text of a value. -/
def write : Datum → Bytes
  | .null => "null"
  | .bool b => if b then "true" else "false"
  | .int n => Bytes.ofInt n
  | .real x => Bytes.ofChars (numbers.write .double x.toBits.toNat)
  | .text t => quoted t
  | .list items => "[" ++ Bytes.join "," (writeAll items) ++ "]"
  | .object fields => "\x7b" ++ Bytes.join "," (writeFields fields) ++ "\x7d"

/-- The texts of the values of a list. -/
def writeAll : List Datum → List Bytes
  | [] => []
  | d :: rest => d.write :: writeAll rest

/-- The texts of the fields of an object. -/
def writeFields : List (Bytes × Datum) → List Bytes
  | [] => []
  | (name, d) :: rest => (quoted name ++ ":" ++ d.write) :: writeFields rest

end

end Datum

end ChartScript
