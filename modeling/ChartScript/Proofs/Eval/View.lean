import ChartScript.Proofs.Eval.Steps
import ChartScript.Proofs.Scope.Confined

/-!
# What evaluation sees of the scopes

All that a script can learn about the scopes is what names read as from its own scope. Two scopes,
of one forest or of two, are `Alike` when every name reads the same from both. Evaluation in alike
scopes gives the same answers and leaves them alike, provided that whoever answers calls does
(`Dispatcher.Blind`): neither other scopes nor the index of its own, neither statements and charts
nor the state of the host can be told apart.
-/

set_option autoImplicit false

namespace ChartScript

open Step Forest

/-! ## Alike scopes -/

namespace Forest

/-- Two scopes from which every name reads the same. -/
structure Alike (f : Forest) (i : Nat) (f' : Forest) (i' : Nat) : Prop where
  lt : i < f.size
  lt' : i' < f'.size
  get? : ∀ field ∈ fields, ∀ name, f.get? field i name = f'.get? field i' name

variable {f f' : Forest} {i i' : Nat}

theorem Alike.symbol? (h : Alike f i f' i') (name : Bytes) :
    f.symbol? i name = f'.symbol? i' name := h.get? symbolField symbolField_mem name

theorem Alike.property? (h : Alike f i f' i') (name : Bytes) :
    f.property? i name = f'.property? i' name := h.get? propertyField propertyField_mem name

/-- The same write to both keeps scopes alike, wherever it ends up. -/
theorem Alike.put (h : Alike f i f' i') {field : Field} (hfield : field ∈ fields) (name : Bytes)
    (v : Value) : Alike (f.put field i name v) i (f'.put field i' name v) i' := by
  refine ⟨(size_modify ..).symm ▸ h.lt, (size_modify ..).symm ▸ h.lt', ?_⟩
  intro field' hfield' other
  -- Both writes may end in different scopes of the two chains; what is read afterwards is the same.
  rcases table_replace hfield hfield' with rfl | hframe
  · have hlawful := lawful_of_mem hfield
    rw [get?_put hlawful h.lt, get?_put hlawful h.lt', h.get? field' hfield' other]
  · rw [Forest.put, Forest.put, get?_modify fun s => hframe s _, get?_modify fun s => hframe s _]
    exact h.get? field' hfield' other

/-- What is recorded on either of them keeps scopes alike. -/
theorem Alike.record (h : Alike f i f' i') {change change' : Scope → Scope}
    (hc : ∀ field ∈ fields, ∀ s, field.table (change s) = field.table s)
    (hc' : ∀ field ∈ fields, ∀ s, field.table (change' s) = field.table s) :
    Alike (f.modify i change) i (f'.modify i' change') i' := by
  refine ⟨(size_modify ..).symm ▸ h.lt, (size_modify ..).symm ▸ h.lt', fun field hfield name => ?_⟩
  rw [get?_modify (hc field hfield), get?_modify (hc' field hfield)]
  exact h.get? field hfield name

end Forest

/-! ## Evaluation in alike scopes -/

variable {σ : Type}

/-- Calls from alike scopes have the same answers and leave the scopes alike, whatever the host. -/
def Dispatcher.Blind (d : Dispatcher σ) : Prop :=
  ∀ name args {f f' : Forest} {i i' : Nat} (h h' : σ), Alike f i f' i' →
    (d.invoke ⟨name, args, some i⟩ f h).1 = (d.invoke ⟨name, args, some i'⟩ f' h').1 ∧
    Alike (d.invoke ⟨name, args, some i⟩ f h).2.1 i (d.invoke ⟨name, args, some i'⟩ f' h').2.1 i'

namespace Evaluator

/-- Two evaluators with the same dispatcher, one that is blind. -/
structure Twins (ev ev' : Evaluator σ) : Prop where
  dispatcher : ev.dispatcher = ev'.dispatcher
  blind : ∀ d, ev.dispatcher = some d → d.Blind

variable {ev ev' : Evaluator σ}

/-- Worlds whose scopes are alike for two evaluators. -/
def Sees (ev ev' : Evaluator σ) (w w' : World σ) : Prop :=
  Alike w.forest ev.scope w'.forest ev'.scope

theorem sees_afterFault {w w' : World σ} (h : ev.Sees ev' w w') (f : Fault) :
    ev.Sees ev' (ev.afterFault f w) (ev'.afterFault f w') := by
  unfold Sees
  rw [forest_afterFault, forest_afterFault]
  exact h

theorem raise_alike {α : Type} (f : Fault) :
    Simulates (ev.Sees ev') (ev.raise f : Eval σ α) (ev'.raise f) := by
  intro w w' h
  rw [on_raise, on_raise]
  exact ⟨rfl, sees_afterFault h f⟩

theorem readSymbol_alike (tk : Token) :
    Simulates (ev.Sees ev') (ev.readSymbol tk) (ev'.readSymbol tk) := by
  intro w w' h
  rw [on_readSymbol, on_readSymbol, h.symbol? tk.lexeme]
  cases w'.forest.symbol? ev'.scope tk.lexeme <;> exact ⟨rfl, h⟩

theorem store_alike (name : Bytes) (v : Value) :
    Simulates (ev.Sees ev')
      (modify fun w => { w with forest := w.forest.putSymbol ev.scope name v } : Eval σ Unit)
      (modify fun w => { w with forest := w.forest.putSymbol ev'.scope name v }) :=
  fun _ _ h => ⟨rfl, h.put symbolField_mem name v⟩

theorem dispatch_alike (hev : ev.Twins ev') (fn : Token) (args : List Value) :
    Simulates (ev.Sees ev') (ev.dispatch fn args) (ev'.dispatch fn args) := by
  intro w w' h
  rw [on_dispatch, on_dispatch, ← hev.dispatcher]
  cases hd : ev.dispatcher with
  | none => exact ⟨rfl, h⟩
  | some d =>
    obtain ⟨hanswer, halike⟩ := hev.blind d hd fn.lexeme args w.host w'.host h
    exact ⟨congrArg (Except.mapError EvalError.call) hanswer, halike⟩

theorem operate_alike (op : Operator) (l r : Value) :
    Simulates (ev.Sees ev')
      (match Value.apply op l r with
        | .ok v => pure v
        | .error e => throw (.operation e) : Eval σ Value)
      (match Value.apply op l r with
        | .ok v => pure v
        | .error e => throw (.operation e)) := by
  cases Value.apply op l r with
  | ok v => exact .pure v
  | error e => exact .throw _

mutual

theorem evalExpr_alike (hev : ev.Twins ev') : (e : Expr) →
    Simulates (ev.Sees ev') (ev.evalExpr e) (ev'.evalExpr e)
  | .literal v => by
    rw [evalExpr, evalExpr]
    exact .pure v
  | .symbol tk => by
    rw [evalExpr, evalExpr]
    exact readSymbol_alike tk
  | .assign tk rhs => by
    rw [evalExpr, evalExpr]
    refine (evalExpr_alike hev rhs).bind fun v => ?_
    exact (store_alike tk.lexeme v).bind fun _ => .pure v
  | .binary op left right => by
    rw [evalExpr, evalExpr]
    refine (evalExpr_alike hev left).bind fun l => ?_
    exact (evalExpr_alike hev right).bind fun r => operate_alike op l r
  | .call fn args => by
    rw [evalExpr, evalExpr]
    exact (evalArgs_alike hev args).bind fun vs => dispatch_alike hev fn vs
  | .fault f => by
    rw [evalExpr, evalExpr]
    exact raise_alike f

theorem evalArgs_alike (hev : ev.Twins ev') : (args : Args) →
    Simulates (ev.Sees ev') (ev.evalArgs args) (ev'.evalArgs args)
  | .nil => by
    rw [evalArgs, evalArgs]
    exact .pure []
  | .cons arg rest => by
    rw [evalArgs, evalArgs]
    refine (evalExpr_alike hev arg).bind fun v => ?_
    exact (evalArgs_alike hev rest).bind fun vs => .pure (v :: vs)

end

theorem evalStatement_alike (hev : ev.Twins ev') (stmt : Statement) :
    Simulates (ev.Sees ev') (ev.evalStatement stmt) (ev'.evalStatement stmt) := by
  intro w w' h
  by_cases hne : stmt = []
  · subst hne
    exact ⟨rfl, h⟩
  rw [ev.on_evalStatement hne, ev'.on_evalStatement hne]
  rcases (evalExpr_alike hev stmt.parse.tree).cases h with
    ⟨e, w₁, w₁', hw, hw', hsees⟩ | ⟨v, w₁, w₁', hw, hw', hsees⟩
  · rw [hw, hw']
    exact ⟨rfl, hsees⟩
  · rw [hw, hw']
    cases stmt.parse.trailing with
    | some tk => exact ⟨rfl, sees_afterFault hsees _⟩
    | none =>
      refine ⟨rfl, ?_⟩
      dsimp only
      rw [Sees, recorded, recorded, World.forest_log, World.forest_log]
      exact Alike.record hsees (fun field hfield s => table_addStatement hfield stmt s)
        (fun field hfield s => table_addStatement hfield stmt s)

theorem evalStatements_alike (hev : ev.Twins ev') (c : Cursor) {w w' : World σ}
    (h : ev.Sees ev' w w') :
    ((ev.evalStatements c).run w).1 = ((ev'.evalStatements c).run w').1 ∧
      ev.Sees ev' ((ev.evalStatements c).run w).2 ((ev'.evalStatements c).run w').2 := by
  induction c using Cursor.statement_induction generalizing w w' with
  | h c ih =>
    rw [run_evalStatements, run_evalStatements]
    by_cases hnext : c.hasNext = true
    · rw [if_pos hnext, if_pos hnext, on_nextStatement, on_nextStatement]
      cases (c.segment []).1 with
      | error f => exact ⟨rfl, sees_afterFault h f⟩
      | ok stmt =>
        dsimp only
        rcases (evalStatement_alike hev stmt).cases h with
          ⟨e, w₁, w₁', hw, hw', hsees⟩ | ⟨v, w₁, w₁', hw, hw', hsees⟩
        · rw [hw, hw']
          exact ⟨rfl, hsees⟩
        · obtain ⟨hrest, hafter⟩ := ih hnext hsees
          rw [hw, hw']
          dsimp only
          rw [hrest]
          exact ⟨rfl, hafter⟩
    · rw [if_neg hnext, if_neg hnext]
      exact ⟨rfl, h⟩

/-- **Evaluation in alike scopes**: the same results, the same error, and scopes that are alike
again. -/
theorem evalSource_alike (hev : ev.Twins ev') (source : Bytes) {w w' : World σ}
    (h : ev.Sees ev' w w') :
    ((ev.evalSource source).run w).1 = ((ev'.evalSource source).run w').1 ∧
      ev.Sees ev' ((ev.evalSource source).run w).2 ((ev'.evalSource source).run w').2 := by
  unfold evalSource
  cases lex source with
  | error e => exact ⟨rfl, h⟩
  | ok tokens =>
    obtain ⟨hrun, hsees⟩ := evalStatements_alike hev (.ofList tokens) h
    exact ⟨congrArg (fun r => (r.1, r.2.map ScriptError.evaluation)) hrun, hsees⟩

end Evaluator
end ChartScript
