import ChartScript.Scope.Table
import ChartScript.Token.Basic

/-!
# Scopes

A scope holds what a script leaves behind: symbols, properties, the statements that were evaluated
in it and the charts they defined. Scopes form trees; `ChartScript.Scope.Forest` says how names are
looked up and stored along the way to the root.
-/

set_option autoImplicit false

namespace ChartScript

/-- The identity of a chart or a run: the serial number it was given. -/
structure Id where
  serial : Nat
  deriving DecidableEq, Repr

/-- An identity as a version-4 UUID whose last group is the serial number. -/
def Id.text (id : Id) : Bytes := "00000000-0000-4000-8000-" ++ Bytes.hex 12 id.serial

/-- A chart definition that a script made: what is drawn from it is up to others. -/
structure Chart where
  id : Id
  name : Bytes
  args : List Value

/-- A chart on one line. -/
def Chart.text (c : Chart) : Bytes :=
  "chart " ++ c.name ++ " (" ++ c.id.text ++ ") [" ++
    Bytes.join ", " (c.args.map Value.describe) ++ "]"

/-- The contents of one scope. Statements and charts are in the order they came. -/
structure Scope where
  symbols : Table Value := .empty
  properties : Table Value := .empty
  statements : List Statement := []
  charts : List Chart := []

namespace Scope

/-- A bound name as a dump shows it. -/
def bindingText (name : Bytes) (v : Value) : Bytes := name ++ "=>" ++ v.describe

/-- One section of a dump: a title, an entry a line, a closing bracket. -/
def dumpPart (title : String) (entries : List Bytes) : Bytes :=
  "SCOPE." ++ (title : Bytes) ++ "=[\n" ++ entries.flatMap (· ++ Bytes.newline) ++ "]\n"

/-- All contents of a scope. -/
def dump (s : Scope) : Bytes :=
  dumpPart "symbolTable" (s.symbols.entries.map fun (name, v) => bindingText name v) ++
    dumpPart "properties" (s.properties.entries.map fun (name, v) => bindingText name v) ++
    dumpPart "statements" (s.statements.map Statement.text) ++
    dumpPart "charts" (s.charts.map Chart.text)

/-- The chart with a name; the empty name stands for the first chart. -/
def chart? (s : Scope) (name : Bytes) : Option Chart :=
  if name.isEmpty then s.charts.head? else s.charts.find? fun c => c.name == name

end Scope

end ChartScript
