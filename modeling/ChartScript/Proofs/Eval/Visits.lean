import ChartScript.Proofs.Eval.Steps

/-!
# What the evaluation of a tree visits

A tree has an effect in two kinds of places: the symbols it assigns to and the functions it calls.
They are its sites (`Expr.sites`), in the order in which evaluation comes to them. A run of the tree
stores and calls at some of its sites, each at most once and in their order (`Visits`), and does
nothing else to the scopes, to the host or to the list of calls; `evalExpr_visits` says so of every
run, also of one that breaks off. What is to be shown of the runs of a tree is shown of its sites.
-/

set_option autoImplicit false

namespace ChartScript

open Step

/-! ## Sites -/

/-- A place of a tree that has an effect: a symbol that is assigned to or a function that is
called. -/
inductive Site where
  | target (tk : Token)
  | callee (fn : Token)

mutual

/-- The sites of a tree in the order of evaluation. -/
def Expr.sites : Expr → List Site
  | .literal _ | .symbol _ | .fault _ => []
  | .assign tk rhs => rhs.sites ++ [.target tk]
  | .binary _ left right => left.sites ++ right.sites
  | .call fn args => args.sites ++ [.callee fn]

/-- The sites of a list of arguments in the order of evaluation. -/
def Args.sites : Args → List Site
  | .nil => []
  | .cons arg rest => arg.sites ++ rest.sites

end

/-! ## Visits -/

variable {σ α β : Type}

/-- The scopes, the state of the host and the calls made. -/
abbrev Effects (σ : Type) : Type := Forest × σ × List (Bytes × List Value)

/-- What a run leaves behind besides the log. -/
abbrev World.effects (w : World σ) : Effects σ := (w.forest, w.host, w.calls)

/-- What can be done by going along sites. Each of them may be passed by. -/
inductive Visits (ev : Evaluator σ) : List Site → Effects σ → Effects σ → Prop where
  | done (s : Effects σ) : Visits ev [] s s
  | skip {sites : List Site} {s s' : Effects σ} (site : Site) (rest : Visits ev sites s s') :
      Visits ev (site :: sites) s s'
  | store {sites : List Site} {f : Forest} {h : σ} {calls : List (Bytes × List Value)}
      {s : Effects σ} (tk : Token) (v : Value)
      (rest : Visits ev sites (f.putSymbol ev.scope tk.lexeme v, h, calls) s) :
      Visits ev (.target tk :: sites) (f, h, calls) s
  | call {sites : List Site} {f : Forest} {h : σ} {calls : List (Bytes × List Value)}
      {s : Effects σ} {d : Dispatcher σ} (hd : ev.dispatcher = some d) (fn : Token)
      (args : List Value)
      (rest : Visits ev sites ((d.invoke ⟨fn.lexeme, args, some ev.scope⟩ f h).2.1,
        (d.invoke ⟨fn.lexeme, args, some ev.scope⟩ f h).2.2, calls ++ [(fn.lexeme, args)]) s) :
      Visits ev (.callee fn :: sites) (f, h, calls) s

namespace Visits

variable {ev : Evaluator σ} {sites sites' : List Site} {a b c : Effects σ}

theorem none (sites : List Site) (s : Effects σ) : Visits ev sites s s := by
  induction sites with
  | nil => exact .done s
  | cons site sites ih => exact .skip site ih

theorem trans (h : Visits ev sites a b) (h' : Visits ev sites' b c) :
    Visits ev (sites ++ sites') a c := by
  induction h with
  | done s => exact h'
  | skip site rest ih => exact .skip site (ih h')
  | store tk v rest ih => exact .store tk v (ih h')
  | call hd fn args rest ih => exact .call hd fn args (ih h')

/-- No more calls are made than there are sites. -/
theorem calls_le (h : Visits ev sites a b) : b.2.2.length ≤ a.2.2.length + sites.length := by
  induction h with
  | done s => exact Nat.le_refl _
  | skip site rest ih => exact Nat.le_succ_of_le ih
  | store tk v rest ih => exact Nat.le_succ_of_le ih
  | call hd fn args rest ih =>
    rw [List.length_append, List.length_singleton] at ih
    exact Nat.le_trans ih (Nat.le_of_eq (Nat.add_right_comm _ _ _))

end Visits

namespace Evaluator

/-- A step that goes along sites. -/
def GoesAlong (ev : Evaluator σ) (sites : List Site) (x : Eval σ α) : Prop :=
  ∀ w, Visits ev sites w.effects (on x w).2.effects

namespace GoesAlong

variable {ev : Evaluator σ} {sites sites' : List Site}

theorem pure (a : α) : ev.GoesAlong [] (Pure.pure a : Eval σ α) := fun w => .done w.effects

theorem throw (e : EvalError) : ev.GoesAlong [] (MonadExcept.throw e : Eval σ α) :=
  fun w => .done w.effects

/-- Where the first step fails, the sites of the second one are passed by. -/
theorem bind {x : Eval σ α} {f : α → Eval σ β} (hx : ev.GoesAlong sites x)
    (hf : ∀ a, ev.GoesAlong sites' (f a)) : ev.GoesAlong (sites ++ sites') (x >>= f) := by
  intro w
  have h := hx w
  cases hr : on x w with
  | mk answer w' =>
    rw [hr] at h
    cases answer with
    | error e =>
      rw [on_bind_error hr]
      exact h.trans (.none sites' _)
    | ok a =>
      rw [on_bind_ok hr]
      exact h.trans (hf a w')

end GoesAlong

variable (ev : Evaluator σ)

theorem raise_visits (f : Fault) : ev.GoesAlong [] (ev.raise f : Eval σ α) := by
  intro w
  rw [on_raise, World.effects, World.effects, forest_afterFault, host_afterFault,
    calls_afterFault]
  exact .done _

theorem readSymbol_visits (tk : Token) : ev.GoesAlong [] (ev.readSymbol tk) := by
  intro w
  rw [on_readSymbol]
  cases w.forest.symbol? ev.scope tk.lexeme <;> exact .done _

theorem store_visits (tk : Token) (v : Value) :
    ev.GoesAlong [.target tk] (modify fun w =>
      { w with forest := w.forest.putSymbol ev.scope tk.lexeme v } : Eval σ Unit) :=
  fun _ => .store tk v (.done _)

theorem dispatch_visits (fn : Token) (args : List Value) :
    ev.GoesAlong [.callee fn] (ev.dispatch fn args) := by
  intro w
  rw [on_dispatch]
  cases hd : ev.dispatcher with
  | none => exact .none _ _
  | some d =>
    have hcalls : (ev.beforeCall fn args w).calls = w.calls ++ [(fn.lexeme, args)] := by
      rw [beforeCall, World.calls_note_called, World.calls_log]
    refine .call hd fn args ?_
    rw [← hcalls]
    exact .done _

theorem operate_visits (op : Operator) (l r : Value) :
    ev.GoesAlong [] (match Value.apply op l r with
      | .ok v => pure v
      | .error e => throw (.operation e) : Eval σ Value) := by
  cases Value.apply op l r with
  | ok v => exact .pure v
  | error e => exact .throw _

mutual

/-- **A run of a tree goes along its sites.** -/
theorem evalExpr_visits : (e : Expr) → ev.GoesAlong e.sites (ev.evalExpr e)
  | .literal v => by
    rw [evalExpr, Expr.sites]
    exact .pure v
  | .symbol tk => by
    rw [evalExpr, Expr.sites]
    exact ev.readSymbol_visits tk
  | .assign tk rhs => by
    rw [evalExpr, Expr.sites]
    refine (evalExpr_visits rhs).bind fun v => ?_
    exact (ev.store_visits tk v).bind fun _ => .pure v
  | .binary op left right => by
    rw [evalExpr, Expr.sites, ← List.append_nil right.sites]
    refine (evalExpr_visits left).bind fun l => ?_
    exact (evalExpr_visits right).bind fun r => ev.operate_visits op l r
  | .call fn args => by
    rw [evalExpr, Expr.sites]
    exact (evalArgs_visits args).bind fun vs => ev.dispatch_visits fn vs
  | .fault f => by
    rw [evalExpr, Expr.sites]
    exact ev.raise_visits f

theorem evalArgs_visits : (args : Args) → ev.GoesAlong args.sites (ev.evalArgs args)
  | .nil => by
    rw [evalArgs, Args.sites]
    exact .pure []
  | .cons arg rest => by
    rw [evalArgs, Args.sites, ← List.append_nil rest.sites]
    refine (evalExpr_visits arg).bind fun v => ?_
    exact (evalArgs_visits rest).bind fun vs => .pure (v :: vs)

end

end Evaluator
end ChartScript
