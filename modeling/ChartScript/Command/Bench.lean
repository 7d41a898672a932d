import ChartScript.Command.Desk
import ChartScript.Function.Standard
import ChartScript.Plugin.Loading
import ChartScript.Settings.Basic
import ChartScript.Store.Database

/-!
# The bench of a command

Every command that evaluates does so at a bench: the settings are resolved, the log is open, the
properties stand in the root scope, and the functions of the plugins are installed beside the
standard ones. Setting up can fail, and so can most of what is done at the bench; what is left of a
failure is the desk, with the reason on its error stream.
-/

set_option autoImplicit false

namespace ChartScript

/-- What a command finds when it begins. -/
structure Surroundings where
  env : Environment
  files : Files
  /-- The time that log lines bear. -/
  time : Bytes
  properties : PropertyReader
  interpreter : Interpreter
  database : Database
  /-- The words of whoever decodes requests for a message that is none. -/
  decoderWords : Bytes → Bytes
  /-- What will be typed at a prompt. -/
  lines : List Typed := []

/-- A desk, and what is needed to evaluate. -/
structure Bench where
  desk : Desk
  settings : Settings
  logger : Logger
  table : FunctionTable
  /-- Who listens to evaluations. -/
  evalLogger : Logger
  world : World Host

namespace Bench

/-- The scope in which scripts run. -/
def root : Nat := 0

/-- Installs the plugins of a directory, if one is named. -/
def install (interpreter : Interpreter) (directory : Bytes) (logger : Logger) (desk : Desk) :
    Except Desk (FunctionTable × Desk) :=
  if directory.isEmpty then .ok (.standard, desk)
  else
    match Installation.ofDirectory interpreter desk.files directory .standard with
    | .error e => .error (desk.fail ("load plugins: " ++ e.message))
    | .ok installed => .ok (installed.table, installed.entries.foldl (·.log logger) desk)

/-- Sets up a bench. -/
def setUp (s : Surroundings) (given : ParsedFlags) : Except Desk Bench := do
  let desk : Desk := { files := s.files, time := s.time }
  let settings ← (Settings.resolve given s.env s.properties).mapError fun e => desk.fail e.message
  let logger := { settings.logger "DTrader" with defaultType := "DTRADER" }
  let loaded : Entry :=
    { level := Level.debug.name
      msg := "properties loaded"
      vars := [("path", .text settings.propertiesPath),
        ("count", .int settings.properties.keys.length)] }
  let desk := (desk.openLog settings.logFile).log logger loaded
  let (table, desk) ←
    install s.interpreter settings.pluginDir (logger.withComponent "Plugin") desk
  return {
    desk, settings, logger, table
    evalLogger := logger.withComponent "Evaluator"
    world := { forest := Forest.root.putProperties root settings.properties, host := {} } }

/-- Logs an entry. -/
def log (b : Bench) (e : Entry) : Bench := { b with desk := b.desk.log b.logger e }

/-- Writes a text to the standard stream. -/
def say (b : Bench) (text : Bytes) : Bench := { b with desk := b.desk.say text }

/-- Goes on with a later world; what was printed and logged in between is passed on. -/
def follow (b : Bench) (after : World Host) : Bench :=
  { b with
    world := after
    desk := b.desk.pass (after.printedSince b.world) (after.entriesSince b.world) }

/-- Who evaluates. -/
def evaluator (b : Bench) : Evaluator Host :=
  ⟨root, some b.table.dispatcher, some b.evalLogger⟩

/-- The text of the root scope. -/
def dump (b : Bench) : Bytes := (b.world.forest.scope root).dump

/-- Runs a source: its error, if it ends in one, and the bench then. -/
def run (b : Bench) (source : Bytes) : Option ScriptError × Bench :=
  let ((_, error), after) := (b.evaluator.evalSource source).run b.world
  (error, b.follow after)

/-- The content of a file. -/
def read (b : Bench) (path : Bytes) : Except Desk Bytes :=
  (b.desk.files.read path).mapError fun e => b.desk.fail e.message

/-- Runs a file, which has to end without an error. -/
def runFile (b : Bench) (path : Bytes) : Except Desk Bench := do
  let source ← b.read path
  match b.run source with
  | (some e, after) => .error (after.desk.fail e.message)
  | (none, after) => .ok after

/-- Runs the first of the files, if there is one. -/
def runFirst (b : Bench) : List Bytes → Except Desk Bench
  | [] => .ok b
  | path :: _ => b.runFile path

end Bench

end ChartScript
