import ChartScript.Scope.Forest

/-!
# Snapshots

The symbols and charts that a scope itself holds, as plain texts that can be stored or sent.
-/

set_option autoImplicit false

namespace ChartScript

/-- A symbol as texts; the type of `nil` is empty. -/
structure SymbolRecord where
  name : Bytes
  type : Bytes
  value : Bytes
  deriving DecidableEq

/-- A chart as texts. A record without a list of arguments (`none`) is not one with an empty
list. -/
structure ChartRecord where
  id : Id
  name : Bytes
  args : Option (List Bytes)
  deriving DecidableEq

/-- A scope's own symbols, in byte order of their names. Each is looked up from its scope, where
its nearest binding is the scope's own. -/
def Forest.symbolRecords (f : Forest) (i : Nat) : List SymbolRecord :=
  (f.scope i).symbols.names.map fun name =>
    let v := (f.symbol? i name).getD .nil
    ⟨name, v.typeName, v.inspect⟩

/-- A scope's own charts, oldest first. -/
def Forest.chartRecords (f : Forest) (i : Nat) : List ChartRecord :=
  (f.scope i).charts.map fun c => ⟨c.id, c.name, some (c.args.map Value.inspect)⟩

end ChartScript
