import ChartScript.Plugin.Loading

/-!
# Installing plugins step by step

`Installation.ofDirectory` says at once what comes of installing the plugins of a directory. Here it is
written out on a table and a log: all sources are loaded, then the functions of each plugin are
registered one by one, in whatever order, and the plugin is logged. A failure ends the steps and takes
nothing back.
-/

set_option autoImplicit false

namespace ChartScript

/-- What plugins are installed into. -/
structure Workplace where
  table : FunctionTable
  /-- What was logged, oldest first. -/
  log : List Entry

/-- A step of an installation. A failure ends it and leaves the workplace as it is then. -/
abbrev Installing (α : Type) : Type := ExceptT LoadError (StateM Workplace) α

/-- An order in which the functions of each plugin are taken, which hold none of their own. -/
structure TakingOrder where
  of : Plugin → List (Bytes × HostFunction)
  perm : ∀ p, (of p).Perm p.functions.entries

namespace Installing

/-- Registers a function of a plugin. -/
def registerOne (path : Bytes) (b : Bytes × HostFunction) : Installing Unit :=
  modify fun w => { w with table := w.table.insert b.1 (b.2.adapt b.1 path) }

/-- Registers the functions of a plugin one by one: their names, in byte order. -/
def register (order : TakingOrder) (p : Plugin) : Installing (List Bytes) := do
  (order.of p).forM (registerOne p.path)
  return Bytes.sort ((order.of p).map (·.1))

/-- Logs that a plugin was installed. -/
def logLoaded (path : Bytes) (names : List Bytes) : Installing Unit :=
  modify fun w => { w with log := w.log ++ [{
    level := Level.info.name
    msg := "plugin loaded"
    vars := [("path", .text path), ("funcs", .list (names.map .text))] }] }

/-- Installs one plugin behind others, whose names are given. -/
def installOne (order : TakingOrder) (names : List Bytes) (p : Plugin) :
    Installing (List Bytes) := do
  let registered ← register order p
  logLoaded p.path registered
  return names ++ registered

/-- Installs the plugins of a directory: the names of their functions, in byte order. -/
def install (order : TakingOrder) (interpreter : Interpreter) (files : Files) (directory : Bytes) :
    Installing (List Bytes) := do
  let plugins ← MonadExcept.ofExcept (Plugin.loadAll interpreter files directory)
  let names ← plugins.foldlM (installOne order) []
  return Bytes.sort names

end Installing

end ChartScript
