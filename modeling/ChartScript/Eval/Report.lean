import ChartScript.Eval.Script

/-!
# Reporting a run

What someone at a terminal is shown of a run: the value of each statement that completed, a line
each, and the error if there is one. Values and errors go to different streams, so that the values
of a failing script can still be told apart.
-/

set_option autoImplicit false

namespace ChartScript

/-- What was written to the two output streams. -/
structure Output where
  out : Bytes := []
  err : Bytes := []

namespace Output

/-- One output after another. -/
def append (a b : Output) : Output := ⟨a.out ++ b.out, a.err ++ b.err⟩

instance : Append Output := ⟨append⟩

/-- A line for the error stream. -/
def errLine (t : Bytes) : Output := { err := t ++ Bytes.newline }

/-- The report of a run. -/
def ofRun (results : List Result) (error : Option ScriptError) : Output where
  out := results.flatMap fun r => r.value.describe ++ Bytes.newline
  err := match error with
    | some e => "error: " ++ e.message ++ Bytes.newline
    | none => []

end Output

end ChartScript
