import ChartScript.Command.Action

/-!
# Carrying out commands

From the arguments of the program to what it leaves behind. A command that is not used as it has to be
does nothing but say so, before any file is touched.
-/

set_option autoImplicit false

namespace ChartScript

/-- What a command leaves behind. -/
structure Outcome where
  code : Nat
  output : Output
  files : Files
  /-- What the conversation adds to the history of the prompt, if there was one. -/
  history : Option (List Bytes) := none

namespace Outcome

/-- A command that did its work. -/
def success (d : Desk) : Outcome := ⟨0, d.output, d.files, none⟩

/-- A command that failed. -/
def failure (d : Desk) : Outcome := ⟨1, d.output, d.files, none⟩

end Outcome

namespace Command

/-- Does the work of a command with flags that were understood. -/
def perform (c : Command) (s : Surroundings) (given : ParsedFlags) : Except Desk Outcome := do
  let b ← Bench.setUp s given
  match c with
  | .chart => .success <$> printChart b ((given.text? "chart-name").getD []) (given.rest.headD [])
  | .run => .success <$> runScript s.database b given (given.rest.headD [])
  | .serve => .success <$> serveSessions s b ((given.text? "addr").getD []) given.rest
  | .repl =>
    let (desk, history) ← converse s b given.rest
    return { Outcome.success desk with history := some history }

/-- A command that was not used as it has to be: words for the error stream, and the banner. -/
def misused (s : Surroundings) (words : Bytes) : Outcome :=
  ⟨1, { out := banner, err := words }, s.files, none⟩

/-- Carries out a command with its arguments. -/
def execute (c : Command) (s : Surroundings) (args : List Bytes) : Outcome :=
  match Flag.parse c.flags args with
  | .error e =>
    let reason : Bytes := match e with
      | .help => []
      | e => e.message ++ Bytes.newline
    misused s (reason ++ Flag.usageText c.name c.flags)
  | .ok given =>
    match c.countComplaint? given.rest.length with
    | some words => misused s ("dtrader: " ++ (words : Bytes) ++ "\n")
    | none =>
      match c.perform s given with
      | .ok outcome => outcome
      | .error desk => .failure desk

/-- Carries out what the arguments of the program say; the first of them names the command. -/
def dispatch (s : Surroundings) : List Bytes → Outcome
  | [] => misused s []
  | word :: args =>
    match ofName? word with
    | some c => c.execute s args
    | none => misused s ("dtrader: unknown command " ++ word.quote ++ "\n")

end Command

end ChartScript
