import ChartScript.Function.Table

/-!
# The standard functions

Printing, charts, properties, and a few conversions and comparisons of numbers. A function that
refuses its arguments changes nothing.
-/

set_option autoImplicit false

namespace ChartScript

namespace Value

/-- The number a value is, in real arithmetic. -/
def number? : Value → Option Float
  | .integer n => some (realOfInteger n)
  | .real x => some x
  | _ => none

end Value

namespace Function

/-- `print`: writes the texts of its arguments on a line and yields that line. -/
def print : Function := fun args _ forest host =>
  let line := Bytes.join " " (args.map Value.inspect)
  (.ok (.text line), forest, { host with printed := host.printed ++ line ++ Bytes.newline })

/-- `chart`: records a chart with a name and arguments on the scope of the call. -/
def chart : Function := fun args scope forest host =>
  let refuse := fun f => (.error (.argument "chart" f), forest, host)
  match args with
  | [] => refuse .noName
  | .text name :: rest =>
    match scope with
    | none => refuse .noScopeForChart
    | some i =>
      let (id, host) := host.newId
      (.ok (.text name), forest.addChart i ⟨id, name, rest⟩, host)
  | v :: _ => refuse (.nameNotText v)

/-- `property`: the value of a property, or the second argument if it has none. -/
def property : Function := fun args scope forest host =>
  let answer : Except ArgumentFault Value :=
    let find := fun (name : Bytes) => scope.bind fun i => forest.property? i name
    match args with
    | [.text name] =>
      match find name with
      | some v => .ok v
      | none => .error (.noProperty name)
    | [.text name, fallback] => .ok ((find name).getD fallback)
    | [v] | [v, _] => .error (.notText v)
    | _ => .error (.propertyCount args.length)
  (answer.mapError (.argument "property"), forest, host)

/-- `setProperty`: stores a property and yields its value. -/
def setProperty : Function := fun args scope forest host =>
  let refuse := fun f => (.error (.argument "setProperty" f), forest, host)
  match args with
  | [.text name, v] =>
    match scope with
    | none => refuse (.noScopeForProperty name)
    | some i => (.ok v, forest.putProperty i name v, host)
  | [v, _] => refuse (.notText v)
  | _ => refuse (.setPropertyCount args.length)

/-- Keeps the better of the best argument so far and the next one; all of them must be numbers. -/
def extremumFrom (better : Float → Float → Bool) (best : Value) (bestNumber : Float) :
    List Value → Except ArgumentFault Value
  | [] => .ok best
  | v :: rest =>
    match v.number? with
    | none => .error (.notNumbers v)
    | some x =>
      if better x bestNumber then extremumFrom better v x rest
      else extremumFrom better best bestNumber rest

/-- The first of the best arguments, as it was given. -/
def extremum (func : Bytes) (better : Float → Float → Bool) : Function := .ofPure fun args =>
  let answer : Except ArgumentFault Value :=
    match args with
    | [] => .error .noArgument
    | v :: rest =>
      match v.number? with
      | none => .error (.notNumbers v)
      | some x => extremumFrom better v x rest
  answer.mapError (.argument func)

/-- A function of exactly one argument. -/
def ofOne (func : Bytes) (f : Value → Except ArgumentFault Value) : Function := .ofPure fun args =>
  let answer := match args with
    | [v] => f v
    | _ => .error (.notOne args.length)
  answer.mapError (.argument func)

/-- The absolute value of a number. -/
def absolute : Value → Except ArgumentFault Value
  | .integer n => .ok (.integer (if n < 0 then -n else n))
  | .real x => .ok (.real x.abs)
  | v => .error (.notNumber v)

/-- The integer of a number or of the text of one; a real loses its fraction. -/
def toInteger : Value → Except ArgumentFault Value
  | .integer n => .ok (.integer n)
  | .real x => .ok (.integer (realTruncate x))
  | .text t =>
    match readInteger? t.trim.chars with
    | some n => .ok (.integer n)
    | none => .error (.unreadable t)
  | v => .error (.unconvertible v)

/-- The real of a number or of the text of one. -/
def toReal : Value → Except ArgumentFault Value
  | .integer n => .ok (.real (Value.realOfInteger n))
  | .real x => .ok (.real x)
  | .text t =>
    match readReal? t.trim.chars with
    | some x => .ok (.real x)
    | none => .error (.unreadable t)
  | v => .error (.unconvertible v)

end Function

/-- The standard functions by name. -/
def FunctionTable.standard : FunctionTable := .ofList [
  ("print", Function.print),
  ("chart", Function.chart),
  ("property", Function.property),
  ("setProperty", Function.setProperty),
  ("min", Function.extremum "min" fun a b => a < b),
  ("max", Function.extremum "max" fun a b => a > b),
  ("abs", Function.ofOne "abs" Function.absolute),
  ("str", Function.ofOne "str" fun v => .ok (.text v.inspect)),
  ("int", Function.ofOne "int" Function.toInteger),
  ("real", Function.ofOne "real" Function.toReal)]

end ChartScript
