import ChartScript.Function.Table

/-!
# Plugins

A plugin brings functions of the host. Scripts call them like any other: arguments are handed over as
host values, and what comes back is taken as a value. When such a function fails or panics, the call
fails and says which function of which plugin it was.
-/

set_option autoImplicit false

namespace ChartScript

/-- How a function of the host ends without a value. -/
inductive HostFailure where
  | failed (words : Bytes)
  | panicked (words : Bytes)

/-- The words of a failure. -/
def HostFailure.text : HostFailure → Bytes
  | .failed words => words
  | .panicked words => "panic: " ++ words

/-- A function of the host. -/
abbrev HostFunction : Type := List HostValue → Except HostFailure HostResult

/-- The function that scripts call for a function of the host. -/
def HostFunction.adapt (f : HostFunction) (name path : Bytes) : Function := .ofPure fun args =>
  match f (args.map Value.toHost) with
  | .ok result => .ok (.ofResult result)
  | .error failure => .error (.plugin name path failure.text)

/-- The functions of one source, by the names scripts call them by. -/
structure Plugin where
  path : Bytes
  functions : Table HostFunction

namespace Plugin

/-- Adds the functions of a plugin to a table, in place of those with their names. -/
def register (p : Plugin) (t : FunctionTable) : FunctionTable :=
  p.functions.entries.foldl (fun t (name, f) => t.insert name (f.adapt name p.path)) t

/-- The names of a plugin's functions, in byte order. -/
def names (p : Plugin) : List Bytes := p.functions.names

/-- The entry for a plugin that was installed. -/
def entry (p : Plugin) : Entry where
  level := Level.info.name
  msg := "plugin loaded"
  vars := [("path", .text p.path), ("funcs", .list (p.names.map .text))]

end Plugin

end ChartScript
