import ChartScript.Eval.Expr
import ChartScript.Log.Logger
import ChartScript.Scope.Forest

/-!
# Evaluating expressions

Evaluation reads and writes a `World`: the scopes, the state of whoever answers calls (the *host*),
and a trace of what was logged and called, in order. Operands and arguments are evaluated from left
to right; an error ends the evaluation and keeps every effect up to it.
-/

set_option autoImplicit false

namespace ChartScript

/-- A call with its evaluated arguments; `scope` is where it appears, if anywhere. -/
structure Call where
  name : Bytes
  args : List Value
  scope : Option Nat

/-- Whoever answers calls. An answer may change the scopes and the host's own state. -/
structure Dispatcher (σ : Type) where
  invoke : Call → Forest → σ → Except CallError Value × Forest × σ

/-- Something an observer of an evaluation sees. -/
inductive Event where
  | logged (e : Entry)
  | called (name : Bytes) (args : List Value)

/-- What evaluation reads and writes. The trace is in order, oldest first. -/
structure World (σ : Type) where
  forest : Forest
  host : σ
  trace : List Event := []

/-- Who evaluates: in which scope, who answers calls, who listens. -/
structure Evaluator (σ : Type) where
  scope : Nat
  dispatcher : Option (Dispatcher σ)
  logger : Option Logger := none

/-- A step of evaluation: it may fail, and it keeps its effects when it does. -/
abbrev Eval (σ α : Type) : Type := ExceptT EvalError (StateM (World σ)) α

namespace World

variable {σ : Type}

/-- Appends an event to the trace. -/
def note (w : World σ) (e : Event) : World σ := { w with trace := w.trace ++ [e] }

/-- Logs an entry if there is a logger and the entry passes. -/
def log (w : World σ) (logger : Option Logger) (e : Entry) : World σ :=
  match logger.bind (·.complete? e) with
  | some e => w.note (.logged e)
  | none => w

/-- The entries of the trace. -/
def entries (w : World σ) : List Entry := w.trace.filterMap fun
  | .logged e => some e
  | .called .. => none

/-- The calls of the trace. -/
def calls (w : World σ) : List (Bytes × List Value) := w.trace.filterMap fun
  | .logged _ => none
  | .called name args => some (name, args)

end World

namespace Evaluator

variable {σ : Type}

/-- The entry for a malformed statement. -/
def syntaxEntry (e : SyntaxError) : Entry where
  level := Level.error.name
  msg := e.cause.text
  vars := [("func", .text e.func), ("pos", .text e.pos.text)]

/-- The entry for a call about to be made. -/
def callEntry (fn : Token) (args : List Value) : Entry where
  level := Level.debug.name
  msg := "invoke function"
  vars := [("func", .text fn.lexeme), ("argc", .int args.length), ("pos", .text fn.pos.text)]

/-- The entry for an evaluated statement. -/
def statementEntry (stmt : Statement) (v : Value) : Entry where
  level := Level.debug.name
  msg := "statement evaluated"
  vars := [("statement", .text stmt.text), ("value", .text v.describe)]

/-- Stops at a fault. A malformed statement is logged. -/
def raise {α : Type} (ev : Evaluator σ) (f : Fault) : Eval σ α := do
  match f with
  | .malformed e => modify (·.log ev.logger (syntaxEntry e))
  | _ => pure ()
  throw (.fault f)

/-- Makes a call and yields its answer. -/
def dispatch (ev : Evaluator σ) (fn : Token) (args : List Value) : Eval σ Value := do
  match ev.dispatcher with
  | none => throw .noDispatcher
  | some dispatcher =>
    modify (·.log ev.logger (callEntry fn args))
    modify (·.note (.called fn.lexeme args))
    let w ← get
    let (answer, forest, host) := dispatcher.invoke ⟨fn.lexeme, args, some ev.scope⟩ w.forest w.host
    set { w with forest, host }
    match answer with
    | .ok v => pure v
    | .error e => throw (.call e)

/-- Reads a symbol. -/
def readSymbol (ev : Evaluator σ) (tk : Token) : Eval σ Value := do
  match (← get).forest.symbol? ev.scope tk.lexeme with
  | some v => pure v
  | none => throw (.uninitialized tk.lexeme tk.pos)

mutual

/-- The value of an expression. -/
def evalExpr (ev : Evaluator σ) : Expr → Eval σ Value
  | .literal v => pure v
  | .symbol tk => ev.readSymbol tk
  | .assign tk rhs => do
    let v ← ev.evalExpr rhs
    modify fun w => { w with forest := w.forest.putSymbol ev.scope tk.lexeme v }
    pure v
  | .binary op left right => do
    let l ← ev.evalExpr left
    let r ← ev.evalExpr right
    match Value.apply op l r with
    | .ok v => pure v
    | .error e => throw (.operation e)
  | .call fn args => do
    let vs ← ev.evalArgs args
    ev.dispatch fn vs
  | .fault f => ev.raise f

/-- The values of a call's arguments. -/
def evalArgs (ev : Evaluator σ) : Args → Eval σ (List Value)
  | .nil => pure []
  | .cons arg rest => do
    let v ← ev.evalExpr arg
    let vs ← ev.evalArgs rest
    pure (v :: vs)

end

/-- Evaluates a statement and records it on the scope. The empty statement yields `nil` and leaves
no record. -/
def evalStatement (ev : Evaluator σ) (stmt : Statement) : Eval σ Value := do
  if stmt.isEmpty then pure .nil
  else
    let parsed := stmt.parse
    let v ← ev.evalExpr parsed.tree
    match parsed.trailing with
    | some tk => ev.raise (.malformed ⟨tk.pos, .trailingSymbol, []⟩)
    | none =>
      modify fun w => { w with forest := w.forest.addStatement ev.scope stmt }
      modify (·.log ev.logger (statementEntry stmt v))
      pure v

end Evaluator

end ChartScript
