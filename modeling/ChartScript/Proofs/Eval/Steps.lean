import ChartScript.Proofs.Eval.Simulation

/-!
# The steps of the evaluator

What each step of `ChartScript.Eval.Machine` answers and what it leaves behind, as an equation of
`Step.on`. The log is the one effect that has no part in an answer, so the forest, the host and the
calls of a world are what the equations are read for.
-/

set_option autoImplicit false

namespace ChartScript

namespace World

variable {σ : Type}

@[simp] theorem forest_log (w : World σ) (logger : Option Logger) (e : Entry) :
    (w.log logger e).forest = w.forest := by
  unfold log
  cases logger.bind (·.complete? e) <;> rfl

@[simp] theorem host_log (w : World σ) (logger : Option Logger) (e : Entry) :
    (w.log logger e).host = w.host := by
  unfold log
  cases logger.bind (·.complete? e) <;> rfl

@[simp] theorem calls_log (w : World σ) (logger : Option Logger) (e : Entry) :
    (w.log logger e).calls = w.calls := by
  unfold log
  cases logger.bind (·.complete? e) with
  | none => rfl
  | some e' => simp [note, calls]

@[simp] theorem forest_note (w : World σ) (e : Event) : (w.note e).forest = w.forest := rfl

@[simp] theorem host_note (w : World σ) (e : Event) : (w.note e).host = w.host := rfl

@[simp] theorem calls_note_called (w : World σ) (name : Bytes) (args : List Value) :
    (w.note (.called name args)).calls = w.calls ++ [(name, args)] := by
  simp [note, calls]

end World

namespace Evaluator

open Step

variable {σ : Type}

/-- The world when a fault was met: it is logged if it is one of structure. -/
def afterFault (ev : Evaluator σ) (f : Fault) (w : World σ) : World σ :=
  match f with
  | .malformed e => w.log ev.logger (syntaxEntry e)
  | _ => w

theorem on_raise {α : Type} (ev : Evaluator σ) (f : Fault) (w : World σ) :
    on (ev.raise f : Eval σ α) w = (.error (.fault f), ev.afterFault f w) := by
  cases f <;> rfl

@[simp] theorem forest_afterFault (ev : Evaluator σ) (f : Fault) (w : World σ) :
    (ev.afterFault f w).forest = w.forest := by
  cases f <;> simp [afterFault]

@[simp] theorem host_afterFault (ev : Evaluator σ) (f : Fault) (w : World σ) :
    (ev.afterFault f w).host = w.host := by
  cases f <;> simp [afterFault]

@[simp] theorem calls_afterFault (ev : Evaluator σ) (f : Fault) (w : World σ) :
    (ev.afterFault f w).calls = w.calls := by
  cases f <;> simp [afterFault]

theorem on_readSymbol (ev : Evaluator σ) (tk : Token) (w : World σ) :
    on (ev.readSymbol tk) w =
      match w.forest.symbol? ev.scope tk.lexeme with
      | some v => (.ok v, w)
      | none => (.error (.uninitialized tk.lexeme tk.pos), w) := by
  unfold readSymbol
  rw [on_bind, on_get]
  dsimp only
  cases w.forest.symbol? ev.scope tk.lexeme <;> rfl

/-- The world in which a call is made. -/
def beforeCall (ev : Evaluator σ) (fn : Token) (args : List Value) (w : World σ) : World σ :=
  (w.log ev.logger (callEntry fn args)).note (.called fn.lexeme args)

theorem on_dispatch (ev : Evaluator σ) (fn : Token) (args : List Value) (w : World σ) :
    on (ev.dispatch fn args) w =
      match ev.dispatcher with
      | none => (.error .noDispatcher, w)
      | some dispatcher =>
        let reply := dispatcher.invoke ⟨fn.lexeme, args, some ev.scope⟩ w.forest w.host
        (reply.1.mapError .call,
          { ev.beforeCall fn args w with forest := reply.2.1, host := reply.2.2 }) := by
  unfold dispatch
  cases ev.dispatcher with
  | none => rfl
  | some dispatcher =>
    obtain ⟨invoke⟩ := dispatcher
    rw [on_bind, on_modify]
    dsimp only
    rw [on_bind, on_modify]
    dsimp only
    rw [on_bind, on_get]
    dsimp only [World.forest_note, World.host_note]
    rw [World.forest_log, World.host_log, on_bind, on_set]
    dsimp only
    cases (invoke ⟨fn.lexeme, args, some ev.scope⟩ w.forest w.host).1 <;> rfl

/-- The fault of a statement that goes on behind its tree. -/
def trailingFault (tk : Token) : Fault := .malformed ⟨tk.pos, .trailingSymbol, []⟩

/-- The world when a statement was recorded. -/
def recorded (ev : Evaluator σ) (stmt : Statement) (v : Value) (w : World σ) : World σ :=
  World.log { w with forest := w.forest.addStatement ev.scope stmt } ev.logger
    (statementEntry stmt v)

/-- A statement that is not empty is recorded when its tree has a value and nothing is left behind
the tree. -/
theorem on_evalStatement (ev : Evaluator σ) {stmt : Statement} (h : stmt ≠ []) (w : World σ) :
    on (ev.evalStatement stmt) w =
      match on (ev.evalExpr stmt.parse.tree) w with
      | (.error e, w') => (.error e, w')
      | (.ok v, w') =>
        match stmt.parse.trailing with
        | some tk => (.error (.fault (trailingFault tk)), ev.afterFault (trailingFault tk) w')
        | none => (.ok v, ev.recorded stmt v w') := by
  unfold evalStatement
  rw [if_neg (by simpa using h), on_bind]
  cases on (ev.evalExpr stmt.parse.tree) w with
  | mk answer w' =>
    cases answer with
    | error e => rfl
    | ok v => cases stmt.parse.trailing <;> rfl

@[simp] theorem on_evalStatement_nil (ev : Evaluator σ) (w : World σ) :
    on (ev.evalStatement []) w = (.ok .nil, w) := rfl

/-- The three ways in which a statement that is not empty ends. -/
inductive StatementEnds (ev : Evaluator σ) (stmt : Statement) (w : World σ) :
    Except EvalError Value × World σ → Prop where
  | failed {e : EvalError} {w' : World σ}
      (tree : on (ev.evalExpr stmt.parse.tree) w = (.error e, w')) :
      StatementEnds ev stmt w (.error e, w')
  | trailing {v : Value} {w' : World σ} {tk : Token}
      (tree : on (ev.evalExpr stmt.parse.tree) w = (.ok v, w'))
      (behind : stmt.parse.trailing = some tk) :
      StatementEnds ev stmt w
        (.error (.fault (trailingFault tk)), ev.afterFault (trailingFault tk) w')
  | completed {v : Value} {w' : World σ}
      (tree : on (ev.evalExpr stmt.parse.tree) w = (.ok v, w'))
      (behind : stmt.parse.trailing = none) :
      StatementEnds ev stmt w (.ok v, ev.recorded stmt v w')

theorem statement_ends (ev : Evaluator σ) {stmt : Statement} (h : stmt ≠ []) (w : World σ) :
    ev.StatementEnds stmt w (on (ev.evalStatement stmt) w) := by
  rw [ev.on_evalStatement h]
  cases hr : on (ev.evalExpr stmt.parse.tree) w with
  | mk answer w' =>
    cases answer with
    | error e => exact .failed hr
    | ok v =>
      cases ht : stmt.parse.trailing with
      | some tk => exact .trailing hr ht
      | none => exact .completed hr ht

/-! ## Scripts -/

theorem on_nextStatement (ev : Evaluator σ) (c : Cursor) (w : World σ) :
    on (ev.nextStatement c) w =
      match (c.segment []).1 with
      | .ok stmt => (.ok stmt, w)
      | .error f => (.error (.fault f), ev.afterFault f w) := by
  unfold nextStatement
  cases (c.segment []).1 with
  | ok stmt => rfl
  | error f => exact ev.on_raise f w

/-- A run of statements: the first one, and the run behind it. -/
theorem run_evalStatements (ev : Evaluator σ) (c : Cursor) (w : World σ) :
    (ev.evalStatements c).run w =
      if c.hasNext then
        match on (ev.nextStatement c) w with
        | (.error e, w') => (([], some e), w')
        | (.ok stmt, w') =>
          match on (ev.evalStatement stmt) w' with
          | (.error e, w'') => (([], some e), w'')
          | (.ok v, w'') =>
            let run := (ev.evalStatements c.afterStatement).run w''
            ((if stmt.isEmpty then run.1.1 else ⟨stmt, v⟩ :: run.1.1, run.1.2), run.2)
      else (([], none), w) := by
  rw [evalStatements]
  by_cases hnext : c.hasNext = true
  · rw [dif_pos hnext, if_pos hnext, run_bind]
    unfold on
    cases (ev.nextStatement c).run.run w with
    | mk answer w' =>
      cases answer with
      | error e => rfl
      | ok stmt =>
        dsimp only
        rw [run_bind]
        cases (ev.evalStatement stmt).run.run w' with
        | mk answer w'' =>
          cases answer with
          | error e => rfl
          | ok v => rfl
  · rw [dif_neg hnext, if_neg hnext]
    rfl

end Evaluator

/-- What holds of a cursor when it holds behind the next statement holds of every cursor. -/
theorem Cursor.statement_induction {motive : Cursor → Prop}
    (h : ∀ c, (c.hasNext = true → motive c.afterStatement) → motive c) (c : Cursor) : motive c := by
  induction hn : c.remaining using Nat.strongRecOn generalizing c with
  | ind n ih =>
    subst hn
    exact h c fun hnext => ih _ (afterStatement_remaining hnext) _ rfl

end ChartScript
