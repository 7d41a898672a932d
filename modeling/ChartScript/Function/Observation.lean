import ChartScript.Eval.Report
import ChartScript.Function.Table

/-!
# Observing a run

A world only grows: what is printed and what is logged is appended to what was there before. So what
a run did, as far as anybody outside can see it, is what the world after it has beyond the world
before it.
-/

set_option autoImplicit false

namespace ChartScript

namespace World

/-- What was printed since an earlier world. -/
def printedSince (after before : World Host) : Bytes :=
  after.host.printed.drop before.host.printed.length

/-- What was logged since an earlier world. -/
def entriesSince (after before : World Host) : List Entry :=
  after.entries.drop before.entries.length

end World

/-- What can be seen of a run. -/
structure Observation where
  results : List Result
  error : Option ScriptError
  printed : Bytes
  entries : List Entry

/-- Runs a source and observes the run. -/
def Evaluator.observe (ev : Evaluator Host) (source : Bytes) :
    StateM (World Host) Observation := do
  let before ← get
  let (results, error) ← ev.evalSource source
  let after ← get
  return ⟨results, error, after.printedSince before, after.entriesSince before⟩

end ChartScript
