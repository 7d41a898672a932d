import ChartScript.Proofs.Eval.Steps
import ChartScript.Proofs.Grammar.Tree

/-!
# What a tree means

The reference evaluator walks over a syntax tree and does what the grammar says, in the order in
which the tokens stand: operands from left to right, an operator as soon as its right operand has a
value, a store when the right-hand side is evaluated, a call once all of its arguments are. It knows
nothing of cursors, faults or loggers: what it keeps of a run is a `Course`.

`eval_simulates` is the agreement with the evaluator of `ChartScript.Eval.Machine` on the tree that
`toExpr` makes of the same tokens.
-/

set_option autoImplicit false

namespace ChartScript

/-- The scopes, the state of whoever answers calls, and the calls made so far, oldest first. -/
structure Course (σ : Type) where
  forest : Forest
  host : σ
  calls : List (Bytes × List Value)

/-- What a world has of a course: everything but the log. -/
def World.course {σ : Type} (w : World σ) : Course σ := ⟨w.forest, w.host, w.calls⟩

namespace Grammar

variable {σ : Type}

/-- A step of a walk over a tree. -/
abbrev Walk (σ α : Type) : Type := Step (Course σ) EvalError α

/-- The value of a symbol, which has to have one. -/
def fetch (ev : Evaluator σ) (tk : Token) : Walk σ Value := do
  match (← get).forest.symbol? ev.scope tk.lexeme with
  | some v => pure v
  | none => throw (.uninitialized tk.lexeme tk.pos)

/-- Stores a value in a symbol. -/
def store (ev : Evaluator σ) (name : Bytes) (v : Value) : Walk σ Unit :=
  modify fun s => { s with forest := s.forest.putSymbol ev.scope name v }

/-- The value of an operator. -/
def operate (op : Operator) (l r : Value) : Walk σ Value :=
  match Value.apply op l r with
  | .ok v => pure v
  | .error e => throw (.operation e)

/-- Makes a call, if anybody answers calls, and keeps what the answer did. -/
def invoke (ev : Evaluator σ) (name : Bytes) (args : List Value) : Walk σ Value := do
  match ev.dispatcher with
  | none => throw .noDispatcher
  | some dispatcher =>
    let s ← get
    let (answer, forest, host) := dispatcher.invoke ⟨name, args, some ev.scope⟩ s.forest s.host
    set (Course.mk forest host (s.calls ++ [(name, args)]))
    match answer with
    | .ok v => pure v
    | .error e => throw (.call e)

mutual

def Primary.eval (ev : Evaluator σ) {p : Place} : Primary p → Walk σ Value
  | .literal tk => pure tk.val.value
  | .symbol tk => fetch ev tk.val
  | .assign tk _ rhs => do
    let v ← rhs.eval ev
    store ev tk.val.lexeme v
    pure v
  | .call fn _ args _ => do
    let vs ← args.eval ev
    invoke ev fn.val.lexeme vs

def Term.eval (ev : Evaluator σ) {p : Place} : Term p → Walk σ Value
  | .single operand => operand.eval ev
  | .binary left op right => do
    let l ← left.eval ev
    let r ← right.eval ev
    operate (multiplicativeOperator op) l r

def Expression.eval (ev : Evaluator σ) {p : Place} : Expression p → Walk σ Value
  | .single term => term.eval ev
  | .binary left op right => do
    let l ← left.eval ev
    let r ← right.eval ev
    operate (additiveOperator op) l r

def Arguments.eval (ev : Evaluator σ) : Arguments → Walk σ (List Value)
  | .none => pure []
  | .some items => items.eval ev

def Items.eval (ev : Evaluator σ) : Items → Walk σ (List Value)
  | .one arg => do
    let v ← arg.eval ev
    pure [v]
  | .more arg _ rest => do
    let v ← arg.eval ev
    let vs ← rest.eval ev
    pure (v :: vs)

end

/-- Evaluates the tree of a statement and records its tokens on the scope. -/
def Expression.run (ev : Evaluator σ) (e : Expression .last) : Walk σ Value := do
  let v ← e.eval ev
  modify fun s => { s with forest := s.forest.addStatement ev.scope e.tokens }
  pure v

/-! ## Agreement -/

open Step

/-- A world and the course it has run. -/
abbrev HasCourse (w : World σ) (c : Course σ) : Prop := w.course = c

theorem on_fetch (ev : Evaluator σ) (tk : Token) (c : Course σ) :
    on (fetch ev tk) c =
      match c.forest.symbol? ev.scope tk.lexeme with
      | some v => (.ok v, c)
      | none => (.error (.uninitialized tk.lexeme tk.pos), c) := by
  unfold fetch
  rw [on_bind, on_get]
  dsimp only
  cases c.forest.symbol? ev.scope tk.lexeme <;> rfl

theorem on_invoke (ev : Evaluator σ) (name : Bytes) (args : List Value) (c : Course σ) :
    on (invoke ev name args) c =
      match ev.dispatcher with
      | none => (.error .noDispatcher, c)
      | some dispatcher =>
        let reply := dispatcher.invoke ⟨name, args, some ev.scope⟩ c.forest c.host
        (reply.1.mapError .call, ⟨reply.2.1, reply.2.2, c.calls ++ [(name, args)]⟩) := by
  unfold invoke
  cases ev.dispatcher with
  | none => rfl
  | some dispatcher =>
    obtain ⟨answer⟩ := dispatcher
    rw [on_bind, on_get]
    dsimp only
    rw [on_bind, on_set]
    dsimp only
    cases (answer ⟨name, args, some ev.scope⟩ c.forest c.host).1 <;> rfl

theorem fetch_simulates (ev : Evaluator σ) (tk : Token) :
    Simulates HasCourse (ev.readSymbol tk) (fetch ev tk) := by
  intro w c h
  subst h
  rw [ev.on_readSymbol, on_fetch]
  dsimp only [World.course]
  cases w.forest.symbol? ev.scope tk.lexeme <;> exact ⟨rfl, rfl⟩

theorem store_simulates (ev : Evaluator σ) (name : Bytes) (v : Value) :
    Simulates HasCourse
      (modify fun w => { w with forest := w.forest.putSymbol ev.scope name v } : Eval σ Unit)
      (store ev name v) := by
  intro w c h
  subst h
  exact ⟨rfl, rfl⟩

theorem operate_simulates (op : Operator) (l r : Value) :
    Simulates HasCourse
      (match Value.apply op l r with
        | .ok v => pure v
        | .error e => throw (.operation e) : Eval σ Value)
      (operate op l r) := by
  unfold operate
  cases Value.apply op l r with
  | ok v => exact .pure v
  | error e => exact .throw _

theorem invoke_simulates (ev : Evaluator σ) (fn : Token) (args : List Value) :
    Simulates HasCourse (ev.dispatch fn args) (invoke ev fn.lexeme args) := by
  intro w c h
  subst h
  rw [ev.on_dispatch, on_invoke]
  cases ev.dispatcher with
  | none => exact ⟨rfl, rfl⟩
  | some dispatcher =>
    refine ⟨rfl, ?_⟩
    have hc : (ev.beforeCall fn args w).calls = w.calls ++ [(fn.lexeme, args)] := by
      simp [Evaluator.beforeCall]
    exact congrArg (Course.mk _ _) hc

mutual

theorem Primary.eval_simulates (ev : Evaluator σ) {p : Place} : (t : Primary p) →
    Simulates HasCourse (ev.evalExpr t.toExpr) (t.eval ev)
  | .literal tk => by
    rw [Primary.toExpr, Primary.eval, Evaluator.evalExpr]
    exact .pure _
  | .symbol tk => by
    rw [Primary.toExpr, Primary.eval, Evaluator.evalExpr]
    exact fetch_simulates ev tk.val
  | .assign tk sign rhs => by
    rw [Primary.toExpr, Primary.eval, Evaluator.evalExpr]
    refine (rhs.eval_simulates ev).bind fun v => ?_
    exact (store_simulates ev tk.val.lexeme v).bind fun _ => .pure v
  | .call fn left args right => by
    rw [Primary.toExpr, Primary.eval, Evaluator.evalExpr]
    exact (args.eval_simulates ev).bind fun vs => invoke_simulates ev fn.val vs

theorem Term.eval_simulates (ev : Evaluator σ) {p : Place} : (t : Term p) →
    Simulates HasCourse (ev.evalExpr t.toExpr) (t.eval ev)
  | .single operand => by
    rw [Term.toExpr, Term.eval]
    exact operand.eval_simulates ev
  | .binary left op right => by
    rw [Term.toExpr, Term.eval, Evaluator.evalExpr]
    refine (left.eval_simulates ev).bind fun l => ?_
    exact (right.eval_simulates ev).bind fun r => operate_simulates _ l r

theorem Expression.eval_simulates (ev : Evaluator σ) {p : Place} : (e : Expression p) →
    Simulates HasCourse (ev.evalExpr e.toExpr) (e.eval ev)
  | .single term => by
    rw [Expression.toExpr, Expression.eval]
    exact term.eval_simulates ev
  | .binary left op right => by
    rw [Expression.toExpr, Expression.eval, Evaluator.evalExpr]
    refine (left.eval_simulates ev).bind fun l => ?_
    exact (right.eval_simulates ev).bind fun r => operate_simulates _ l r

theorem Arguments.eval_simulates (ev : Evaluator σ) : (args : Arguments) →
    Simulates HasCourse (ev.evalArgs args.toArgs) (args.eval ev)
  | .none => by
    rw [Arguments.toArgs, Arguments.eval, Evaluator.evalArgs]
    exact .pure []
  | .some items => by
    rw [Arguments.toArgs, Arguments.eval]
    exact items.eval_simulates ev

theorem Items.eval_simulates (ev : Evaluator σ) : (items : Items) →
    Simulates HasCourse (ev.evalArgs items.toArgs) (items.eval ev)
  | .one arg => by
    rw [Items.toArgs, Items.eval, Evaluator.evalArgs]
    refine (arg.eval_simulates ev).bind fun v => ?_
    rw [Evaluator.evalArgs]
    exact .pure [v]
  | .more arg comma rest => by
    rw [Items.toArgs, Items.eval, Evaluator.evalArgs]
    refine (arg.eval_simulates ev).bind fun v => ?_
    exact (rest.eval_simulates ev).bind fun vs => .pure (v :: vs)

end

end Grammar
end ChartScript
