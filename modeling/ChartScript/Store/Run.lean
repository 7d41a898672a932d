import ChartScript.Data.Datum
import ChartScript.Function.Table
import ChartScript.Scope.Snapshot
import ChartScript.Store.Instant

/-!
# Runs

A run is what is kept of evaluating one script: its text, when it ran, how it ended, and the symbols
and charts that were in its root scope at the end.
-/

set_option autoImplicit false

namespace ChartScript

namespace SymbolRecord

/-- A symbol as JSON. -/
def datum (r : SymbolRecord) : Datum :=
  .object [("name", .text r.name), ("type", .text r.type), ("value", .text r.value)]

end SymbolRecord

namespace ChartRecord

/-- A chart as JSON. -/
def datum (r : ChartRecord) : Datum :=
  .object [("id", .text r.id.text), ("name", .text r.name),
    ("args", match r.args with
      | some args => .list (args.map .text)
      | none => .null)]

end ChartRecord

/-- The kept outcome of evaluating one script. The error of a run that succeeded is empty. -/
structure Run where
  id : Id
  script : Bytes
  startedAt : Instant
  finishedAt : Instant := .zero
  error : Bytes := []
  symbols : List SymbolRecord := []
  charts : List ChartRecord := []

namespace Run

/-- A run as JSON. Empty optional fields are left out. -/
def datum (r : Run) : Datum :=
  let optional := fun (name : String) (isAbsent : Bool) (d : Datum) =>
    if isAbsent then [] else [((name : Bytes), d)]
  let required : List (Bytes × Datum) :=
    [("id", .text r.id.text), ("script", .text r.script),
     ("started_at", .text r.startedAt.text), ("finished_at", .text r.finishedAt.text)]
  .object (required ++
    optional "error" r.error.isEmpty (.text r.error) ++
    optional "symbols" r.symbols.isEmpty (.list (r.symbols.map SymbolRecord.datum)) ++
    optional "charts" r.charts.isEmpty (.list (r.charts.map ChartRecord.datum)))

/-- The JSON text of a run. One that has a time without a text has none. -/
def json? (r : Run) : Option Bytes :=
  if r.startedAt.isWritable && r.finishedAt.isWritable then some r.datum.write else none

/-- A new run of a script, which takes a new identity. -/
def start (script : Bytes) (now : Instant) (host : Host) : Run × Host :=
  let (id, host) := host.newId
  ({ id, script, startedAt := now }, host)

/-- Completes a run with its outcome and what its root scope holds. -/
def finish (r : Run) (now : Instant) (forest : Forest) (root : Nat) (error : Option ScriptError) :
    Run :=
  { r with
    finishedAt := now
    error := (error.map ScriptError.message).getD []
    symbols := forest.symbolRecords root
    charts := forest.chartRecords root }

/-- A run without its symbols and charts. -/
def summary (r : Run) : Run := { r with symbols := [], charts := [] }

end Run

end ChartScript
