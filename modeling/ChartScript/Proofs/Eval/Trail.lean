import ChartScript.Proofs.Eval.Visits

/-!
# What evaluation does to the scopes

Whatever a script says, there are three things an evaluator can do to the scopes and to the host of
its functions: store a symbol in its scope, make a call, record a statement on its scope. `Trail`
is a sequence of them, with the statements that were recorded, and `evalSource_trail` says that
every run leaves one, also a run that fails half way. What is to be shown of all runs is shown of
these three steps.
-/

set_option autoImplicit false

namespace ChartScript

open Step

variable {σ : Type}

/-- The scopes and the state of whoever answers calls. -/
abbrev World.state (w : World σ) : Forest × σ := (w.forest, w.host)

theorem World.state_log (w : World σ) (logger : Option Logger) (e : Entry) :
    (w.log logger e).state = w.state := by
  rw [state, forest_log, host_log]

/-- What an evaluator can do, step after step, and the statements it recorded on its scope. -/
inductive Trail (ev : Evaluator σ) : Forest × σ → List Statement → Forest × σ → Prop where
  | done (s : Forest × σ) : Trail ev s [] s
  | store {f : Forest} {h : σ} {stmts : List Statement} {s : Forest × σ} (name : Bytes) (v : Value)
      (rest : Trail ev (f.putSymbol ev.scope name v, h) stmts s) : Trail ev (f, h) stmts s
  | call {f : Forest} {h : σ} {stmts : List Statement} {s : Forest × σ} {d : Dispatcher σ}
      (hd : ev.dispatcher = some d) (name : Bytes) (args : List Value)
      (rest : Trail ev (d.invoke ⟨name, args, some ev.scope⟩ f h).2 stmts s) :
      Trail ev (f, h) stmts s
  | record {f : Forest} {h : σ} {stmts : List Statement} {s : Forest × σ} (stmt : Statement)
      (rest : Trail ev (f.addStatement ev.scope stmt, h) stmts s) :
      Trail ev (f, h) (stmt :: stmts) s

namespace Trail

variable {ev : Evaluator σ}

theorem trans {a b c : Forest × σ} {stmts stmts' : List Statement} (h : Trail ev a stmts b)
    (h' : Trail ev b stmts' c) : Trail ev a (stmts ++ stmts') c := by
  induction h with
  | done s => exact h'
  | store name v rest ih => exact .store name v (ih h')
  | call hd name args rest ih => exact .call hd name args (ih h')
  | record stmt rest ih => exact .record stmt (ih h')

/-- What each step keeps, a trail keeps. -/
theorem keeps {R : Forest × σ → Forest × σ → Prop} (refl : ∀ s, R s s)
    (trans : ∀ {a b c}, R a b → R b c → R a c)
    (store : ∀ f h name v, R (f, h) (f.putSymbol ev.scope name v, h))
    (call : ∀ d, ev.dispatcher = some d → ∀ name args f h,
      R (f, h) (d.invoke ⟨name, args, some ev.scope⟩ f h).2)
    (record : ∀ f h stmt, R (f, h) (f.addStatement ev.scope stmt, h))
    {a b : Forest × σ} {stmts : List Statement} (h : Trail ev a stmts b) : R a b := by
  induction h with
  | done s => exact refl s
  | store name v rest ih => exact trans (store _ _ name v) ih
  | call hd name args rest ih => exact trans (call _ hd name args _ _) ih
  | record stmt rest ih => exact trans (record _ _ stmt) ih

end Trail

/-- What is done at the sites of a tree is a trail on which nothing is recorded. -/
theorem Visits.trail {ev : Evaluator σ} {sites : List Site} {a b : Effects σ}
    (h : Visits ev sites a b) : Trail ev (a.1, a.2.1) [] (b.1, b.2.1) := by
  induction h with
  | done s => exact .done _
  | skip site rest ih => exact ih
  | store tk v rest ih => exact .store tk.lexeme v ih
  | call hd fn args rest ih => exact .call hd fn.lexeme args ih

namespace Evaluator

/-- A trail on which nothing is recorded. -/
def Quiet (ev : Evaluator σ) (w w' : World σ) : Prop := Trail ev w.state [] w'.state

variable (ev : Evaluator σ)

theorem quiet_trans {a b c : World σ} (h : ev.Quiet a b) (h' : ev.Quiet b c) : ev.Quiet a c :=
  Trail.trans h h'

/-- The log leaves no trail. -/
theorem quiet_afterFault (f : Fault) (w : World σ) : ev.Quiet w (ev.afterFault f w) := by
  unfold Quiet World.state
  rw [forest_afterFault, host_afterFault]
  exact .done _

theorem evalExpr_quiet (e : Expr) : Moves ev.Quiet (ev.evalExpr e) :=
  fun w => (ev.evalExpr_visits e w).trail

/-- The record of a statement: the empty one leaves none. -/
def records (stmt : Statement) : List Statement := if stmt.isEmpty then [] else [stmt]

/-- A statement that fails is not recorded; one that completes is, and nothing else. -/
theorem evalStatement_trail (stmt : Statement) (w : World σ) :
    match on (ev.evalStatement stmt) w with
    | (.error _, w') => Trail ev w.state [] w'.state
    | (.ok _, w') => Trail ev w.state (records stmt) w'.state := by
  by_cases hne : stmt = []
  · subst hne
    rw [on_evalStatement_nil]
    exact .done _
  have hexpr := ev.evalExpr_quiet stmt.parse.tree w
  have hends := ev.statement_ends hne w
  generalize on (ev.evalStatement stmt) w = out at hends ⊢
  cases hends with
  | failed tree =>
    rw [tree] at hexpr
    exact hexpr
  | trailing tree behind =>
    rw [tree] at hexpr
    exact ev.quiet_trans hexpr (ev.quiet_afterFault _ _)
  | completed tree behind =>
    rw [tree] at hexpr
    have hrecords : records stmt = [stmt] := by simp [records, hne]
    dsimp only
    rw [hrecords, recorded, World.state_log]
    exact hexpr.trans (.record stmt (.done _))

theorem evalStatements_trail (c : Cursor) (w : World σ) :
    Trail ev w.state (((ev.evalStatements c).run w).1.1.map Result.statement)
      ((ev.evalStatements c).run w).2.state := by
  induction c using Cursor.statement_induction generalizing w with
  | h c ih =>
    rw [run_evalStatements]
    by_cases hnext : c.hasNext = true
    · rw [if_pos hnext, on_nextStatement]
      cases (c.segment []).1 with
      | error f => exact ev.quiet_afterFault f w
      | ok stmt =>
        have hstmt := ev.evalStatement_trail stmt w
        dsimp only
        cases hr : on (ev.evalStatement stmt) w with
        | mk answer w' =>
          rw [hr] at hstmt
          cases answer with
          | error e => exact hstmt
          | ok v =>
            -- An empty statement is neither reported nor recorded.
            have hrest := hstmt.trans (ih hnext w')
            unfold records at hrest
            cases hempty : stmt.isEmpty <;> simpa [hempty] using hrest
    · rw [if_neg hnext]
      exact .done _

/-- **Every run leaves a trail**, and what it records are the statements whose values it reports. -/
theorem evalSource_trail (source : Bytes) (w : World σ) :
    Trail ev w.state (((ev.evalSource source).run w).1.1.map Result.statement)
      ((ev.evalSource source).run w).2.state := by
  unfold evalSource
  cases lex source with
  | error e => exact .done _
  | ok tokens => exact ev.evalStatements_trail (.ofList tokens) w

end Evaluator
end ChartScript
