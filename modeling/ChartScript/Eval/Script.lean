import ChartScript.Eval.Machine

/-!
# Running scripts

A source is a sequence of statements, each ended by `;`. Three ways to run one stop at the first
error and differ in what they report: `parseStatement` runs one statement, `parseAll` all of them,
`evalSource` all of them with the value of each.
-/

set_option autoImplicit false

namespace ChartScript

/-- The tokens up to the next terminator, which is stepped over too. If there is none, the statement
breaks off and all tokens are used up. -/
def Cursor.segment (c : Cursor) (taken : List Token) : Except Fault Statement × Cursor :=
  if c.hasNext then
    match c.step with
    | .error f => (.error f, c)
    | .ok ⟨(tk, rest), _h⟩ =>
      if tk.kind = .semicolon then (.ok taken.reverse, rest)
      else rest.segment (tk :: taken)
  else
    let first := (taken.getLast?.map Token.pos).getD .none
    (.error (.malformed ⟨first, .endOfInput, []⟩), c)
termination_by c.remaining

/-- A step of segmenting never goes back. -/
theorem Cursor.segment_remaining (c : Cursor) (taken : List Token) :
    (c.segment taken).2.remaining ≤ c.remaining := by
  fun_induction Cursor.segment c taken with
  | case1 => exact Nat.le_refl _
  | case2 c taken _ tk rest h => exact Nat.le_of_lt h
  | case3 c taken _ tk rest h _ _ ih => exact Nat.le_trans ih (Nat.le_of_lt h)
  | case4 => exact Nat.le_refl _

/-- Segmenting steps over at least one token when there is one. -/
theorem Cursor.segment_forward {c : Cursor} (taken : List Token) (h : c.hasNext) :
    (c.segment taken).2.remaining < c.remaining := by
  obtain ⟨seen, ahead⟩ := c
  cases ahead with
  | nil => simp [hasNext] at h
  | cons tk rest =>
    have step_eq : (Cursor.mk seen (tk :: rest)).step =
        .ok ⟨(tk, ⟨tk :: seen, rest⟩), by simp [remaining]⟩ := rfl
    unfold segment
    rw [if_pos h, step_eq]
    have one : (Cursor.mk (tk :: seen) rest).remaining <
        (Cursor.mk seen (tk :: rest)).remaining := by simp [remaining]
    simp only
    split
    · exact one
    · exact Nat.lt_of_le_of_lt (segment_remaining _ _) one

/-- The cursor behind the next statement. -/
def Cursor.afterStatement (c : Cursor) : Cursor := (c.segment []).2

/-- Statements use up tokens. -/
theorem Cursor.afterStatement_remaining {c : Cursor} (h : c.hasNext) :
    c.afterStatement.remaining < c.remaining := segment_forward [] h

/-- The value of a statement that was evaluated. -/
structure Result where
  statement : Statement
  value : Value

namespace Evaluator

variable {σ : Type}

/-- The next statement; when it breaks off, that is logged. -/
def nextStatement (ev : Evaluator σ) (c : Cursor) : Eval σ Statement :=
  match (c.segment []).1 with
  | .ok stmt => pure stmt
  | .error f => ev.raise f

/-- Runs the next statement, which ends at `c.afterStatement`. -/
def parseStatement (ev : Evaluator σ) (c : Cursor) : Eval σ Value := do
  let stmt ← ev.nextStatement c
  ev.evalStatement stmt

/-- Runs statements until none is left or one fails: the error, and where the run ended. -/
def parseAll (ev : Evaluator σ) (c : Cursor) :
    StateM (World σ) (Option EvalError × Cursor) := do
  if _h : c.hasNext then
    match ← (ev.parseStatement c).run with
    | .error e => return (some e, c.afterStatement)
    | .ok _ => ev.parseAll c.afterStatement
  else return (none, c)
termination_by c.remaining
decreasing_by exact Cursor.afterStatement_remaining _h

/-- Runs statements until none is left or one fails: the values of those that completed, empty
statements apart, and the error. -/
def evalStatements (ev : Evaluator σ) (c : Cursor) :
    StateM (World σ) (List Result × Option EvalError) := do
  if _h : c.hasNext then
    match ← (ev.nextStatement c).run with
    | .error e => return ([], some e)
    | .ok stmt =>
      match ← (ev.evalStatement stmt).run with
      | .error e => return ([], some e)
      | .ok v =>
        let (results, error) ← ev.evalStatements c.afterStatement
        return (if stmt.isEmpty then results else ⟨stmt, v⟩ :: results, error)
  else return ([], none)
termination_by c.remaining
decreasing_by exact Cursor.afterStatement_remaining _h

/-- Runs a source. One that does not lex has no effect at all. -/
def evalSource (ev : Evaluator σ) (source : Bytes) :
    StateM (World σ) (List Result × Option ScriptError) := do
  match lex source with
  | .error e => return ([], some (.lexical e))
  | .ok tokens =>
    let (results, error) ← ev.evalStatements (.ofList tokens)
    return (results, error.map .evaluation)

end Evaluator

end ChartScript
