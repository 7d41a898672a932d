import ChartScript.Value.Basic

/-!
# The four operators

Integers stay integers as long as the exact result is one that fits in 64 bits; otherwise the
result is a real. A real on either side makes the result a real. A text on the left of `+` takes
the text of whatever stands on its right. Everything else is refused, and so is division by zero.
-/

set_option autoImplicit false

namespace ChartScript

/-- An operator of the expression grammar; `unknown` is an operator number beyond the four. -/
inductive Operator where
  | add
  | sub
  | mul
  | div
  | unknown
  deriving DecidableEq, Repr

namespace Operator

/-- The sign of an operator. -/
def sign : Operator → String
  | .add => "+"
  | .sub => "-"
  | .mul => "*"
  | .div => "/"
  | .unknown => "?"

/-- The operator with a given number. -/
def ofCode : Int → Operator
  | 0 => .add
  | 1 => .sub
  | 2 => .mul
  | 3 => .div
  | _ => .unknown

end Operator

/-- Why an operator yields no value. Every cause keeps the operands as they were given. -/
inductive OperationError where
  /-- A text is the left operand of a subtraction. -/
  | unsupported (op : Operator) (left right : Value)
  /-- The operator does not combine these types. -/
  | operandType (op : Operator) (left right : Value)
  | divideByZero (left right : Value)

namespace OperationError

/-- The text of an error. -/
def message : OperationError → Bytes
  | .unsupported op left right =>
    "unsupported string operation: " ++ left.describe ++ " " ++ (op.sign : Bytes) ++ " " ++
      right.describe
  | .operandType op left right =>
    "operand type error: cannot apply '" ++ (op.sign : Bytes) ++ "' to " ++ left.describe ++
      " and " ++ right.describe
  | .divideByZero left right =>
    "divide by 0 error: " ++ left.inspect ++ " / " ++ right.inspect

end OperationError

namespace Value

/-- The real number of an integer, rounded to the nearest. -/
def realOfInteger (n : Int64) : Float := Float.ofInt n.toInt

/-- The quotient of two integers when there is one: an integer if it is exact and fits. -/
def divideIntegers (l r : Int64) : Except OperationError Value :=
  if r = 0 then .error (.divideByZero (.integer l) (.integer r))
  else if l = Int64.minValue ∧ r = -1 then .ok (.real (-realOfInteger l))
  else if l % r = 0 then .ok (.integer (l / r))
  else .ok (.real (realOfInteger l / realOfInteger r))

/-- An operator on two integers. The sum, difference and product wrap around at 64 bits; a result
that shows it has wrapped is recomputed as a real. -/
def combineIntegers (op : Operator) (l r : Int64) : Except OperationError Value :=
  match op with
  | .add =>
    let sum := l + r
    if decide (0 ≤ l) = decide (0 ≤ r) ∧ decide (0 ≤ sum) ≠ decide (0 ≤ l) then
      .ok (.real (realOfInteger l + realOfInteger r))
    else .ok (.integer sum)
  | .sub =>
    let difference := l - r
    if decide (0 ≤ l) ≠ decide (0 ≤ r) ∧ decide (0 ≤ difference) ≠ decide (0 ≤ l) then
      .ok (.real (realOfInteger l - realOfInteger r))
    else .ok (.integer difference)
  | .mul =>
    let product := l * r
    if l ≠ 0 ∧ (product / l ≠ r ∨ (l = -1 ∧ r = Int64.minValue)) then
      .ok (.real (realOfInteger l * realOfInteger r))
    else .ok (.integer product)
  | .div => divideIntegers l r
  | .unknown => .error (.operandType op (.integer l) (.integer r))

/-- An operator on two reals; `left` and `right` are the operands they stand for. -/
def combineReals (op : Operator) (l r : Float) (left right : Value) :
    Except OperationError Value :=
  match op with
  | .add => .ok (.real (l + r))
  | .sub => .ok (.real (l - r))
  | .mul => .ok (.real (l * r))
  | .div => if r == 0 then .error (.divideByZero left right) else .ok (.real (l / r))
  | .unknown => .error (.operandType op left right)

/-- An operator on two numbers; other operands are refused. -/
def combineNumbers (op : Operator) (left right : Value) : Except OperationError Value :=
  match left, right with
  | .integer l, .integer r => combineIntegers op l r
  | .integer l, .real r => combineReals op (realOfInteger l) r left right
  | .real l, .integer r => combineReals op l (realOfInteger r) left right
  | .real l, .real r => combineReals op l r left right
  | _, _ => .error (.operandType op left right)

/-- The value of `left op right`. -/
def apply (op : Operator) (left right : Value) : Except OperationError Value :=
  match op, left with
  | .add, .text t => .ok (.text (t ++ right.inspect))
  | .sub, .text _ => .error (.unsupported op left right)
  | _, _ => combineNumbers op left right

end Value

end ChartScript
