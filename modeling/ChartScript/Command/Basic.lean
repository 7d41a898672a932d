import ChartScript.Settings.Basic

/-!
# Commands

There are four commands: `chart` prints a chart of a script, `run` runs a script and can keep the
run, `repl` is a conversation, and `serve` answers sessions. Here is how they are called: their names,
their flags, the number of their arguments.
-/

set_option autoImplicit false

namespace ChartScript

/-- The commands. -/
inductive Command where
  | chart
  | run
  | repl
  | serve
  deriving DecidableEq, Repr

namespace Command

/-- The name of a command. -/
def name : Command → String
  | .chart => "chart"
  | .run => "run"
  | .repl => "repl"
  | .serve => "serve"

/-- The command with a name. -/
def ofName? (name : Bytes) : Option Command :=
  [Command.chart, .run, .repl, .serve].find? fun c => (c.name : Bytes) == name

/-- The flags of a command, beside those that every command knows. -/
def ownFlags : Command → List Flag
  | .chart => [⟨"chart-name", .text "", "chart to print (defaults to the first one)"⟩]
  | .run => [
      ⟨"dump", .switch, "print the root scope after evaluation"⟩,
      ⟨"store", .switch, "save the run (Postgres when DATABASE_URL is set)"⟩]
  | .repl => []
  | .serve => [⟨"addr", .text "", "listen address (default " ++ Settings.defaultAddr ++ ")"⟩]

/-- All flags of a command. -/
def flags (c : Command) : List Flag := Settings.flags ++ c.ownFlags

/-- What is wrong with a number of arguments. -/
def countComplaint? (c : Command) (count : Nat) : Option String :=
  match c with
  | .chart =>
    if count = 0 then some "missing file"
    else if 1 < count then some "too many arguments" else none
  | .run => if count = 1 then none else some "run expects exactly one file"
  | .repl | .serve => if 1 < count then some "too many arguments" else none

/-- The number and the name of this version. -/
def version : String := "0.70"

/-- How the program is used. -/
def banner : Bytes :=
  "dtrader version " ++ (version : Bytes) ++ "\n" ++
  "-------------------------------------------\n" ++
  "\n" ++
  "usage:\n" ++
  "\n" ++
  "dtrader chart [--chart-name name] config-file.dt\n" ++
  "  evaluates the file and prints 'name' (defaults to first chart found)\n" ++
  "\n" ++
  "dtrader run [--dump] [--store] config-file.dt\n" ++
  "  evaluates the file, optionally dumping the scope and saving the run\n" ++
  "\n" ++
  "dtrader repl [config-file.dt]\n" ++
  "  interactive session, optionally preloaded from a file\n" ++
  "\n" ++
  "dtrader serve [--addr :8091] [config-file.dt]\n" ++
  "  websocket session server\n" ++
  "\n" ++
  "global flags: --properties path  --plugins dir  --log-level level  --log-file path\n"

end Command

end ChartScript
