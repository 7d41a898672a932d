import ChartScript.Command.Basic
import ChartScript.Command.Bench
import ChartScript.Session.Server

/-!
# What commands do

Each action begins at a bench that is set up and ends with the desk: as a result if the command did
its work, as an error if it failed and said so.
-/

set_option autoImplicit false

namespace ChartScript

namespace Command

/-- How a conversation is greeted. -/
def greeting : Bytes :=
  "dtrader version " ++ (version : Bytes) ++ "\n" ++
  "Ctrl+D exits. Type :q to exit, :help for commands.\n"

/-- Prints a chart of a script, the first one unless it is named. -/
def printChart (b : Bench) (chart path : Bytes) : Except Desk Desk := do
  let b ← b.runFile path
  match (b.world.forest.scope Bench.root).chart? chart with
  | some c => .ok (b.desk.say (c.text ++ Bytes.newline))
  | none =>
    .error (b.desk.fail (
      if chart.isEmpty then "no chart defined in " ++ path
      else "chart " ++ chart.quote ++ " not found in " ++ path))

/-- Keeps a run, in the database if the settings name one. -/
def keep (database : Database) (b : Bench) (r : Run) : Except Desk Desk := do
  let forgotten : Entry :=
    { level := Level.warn.name, msg := "DATABASE_URL not set, run kept in memory only" }
  let saved : Entry :=
    { level := Level.info.name
      msg := "run saved"
      vars := [("symbols", .int r.symbols.length), ("charts", .int r.charts.length),
        ("error", .text r.error)] }
  let b ←
    if b.settings.databaseUrl.isEmpty then .ok (b.log forgotten)
    else match database.save b.settings.databaseUrl r with
      | .ok () => .ok b
      | .error e => .error (b.desk.fail e.message)
  return (b.log saved).desk.say ("run " ++ r.id.text ++ " saved\n")

/-- Runs a script. Its root scope is printed and the run is kept if that is asked for, whether or not
the script ends in an error. -/
def runScript (database : Database) (b : Bench) (given : ParsedFlags) (path : Bytes) : Except Desk Desk := do
  let source ← b.read path
  let (r, host) := Run.start source .zero b.world.host
  let b := { b with
    world := { b.world with host }
    logger := { b.logger with runId := r.id.text } }
  let (error, b) := b.run source
  let r := r.finish .zero b.world.forest Bench.root error
  let b := if given.isOn "dump" then b.say b.dump else b
  let desk ← if given.isOn "store" then keep database b r else .ok b.desk
  match error with
  | some e => .error (desk.fail e.message)
  | none => .ok desk

/-- Serves sessions until told to stop. Whoever carries the messages is not part of this program: all
it does by itself is to begin to listen and to end. -/
def serveSessions (s : Surroundings) (b : Bench) (addr : Bytes) (paths : List Bytes) : Except Desk Desk := do
  let b ← b.runFirst paths
  let addr := if addr.isEmpty then b.settings.addr else addr
  let server : Server :=
    { world := b.world
      root := Bench.root
      table := b.table
      evalLogger := some b.evalLogger
      logger := some (b.logger.withComponent "SessionServer")
      decoderWords := s.decoderWords }
  let (error, server) := server.start addr
  let b := b.follow server.world
  match error with
  | some e =>
    let broken : Entry :=
      { level := Level.error.name, msg := "server error", vars := [("error", .text e.message)] }
    .error (b.log broken).desk
  | none => .ok (b.log { level := Level.info.name, msg := "session server stopped" }).desk

/-- Holds a conversation: what was shown, and what it adds to the history of the prompt. -/
def converse (s : Surroundings) (b : Bench) (paths : List Bytes) :
    Except Desk (Desk × List Bytes) := do
  let b ← b.runFirst paths
  let b := b.say greeting
  let respondent : Respondent := ⟨b.evaluator, b.table⟩
  let (turns, _) := (respondent.converse s.lines).run b.world
  return (turns.foldl Desk.showTurn b.desk, turns.filterMap Turn.entry?)

end Command

end ChartScript
