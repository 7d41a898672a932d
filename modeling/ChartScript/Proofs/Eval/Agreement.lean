import ChartScript.Proofs.Function.Effects
import ChartScript.Proofs.Grammar.Agreement

/-!
# Evaluation does not see places

A statement that is read twice, from two sources, gives tokens that agree but for their places. All
that evaluation makes of a place is the text of an error, so where one run gives a value the other
gives the same (`Repeats`). Between two such runs the scopes agree in everything that a dump shows:
bindings and charts are equal, and of a recorded statement the text is.
-/

set_option autoImplicit false

namespace ChartScript

open Step

/-! ## Agreeing scopes -/

/-- Two scopes that a dump does not tell apart. -/
structure Scope.Agrees (s s' : Scope) : Prop where
  symbols : s.symbols = s'.symbols
  properties : s.properties = s'.properties
  texts : s.statements.map Statement.text = s'.statements.map Statement.text
  charts : s.charts = s'.charts

namespace Scope.Agrees

theorem refl (s : Scope) : s.Agrees s := ⟨rfl, rfl, rfl, rfl⟩

variable {s s' : Scope}

theorem dump (h : s.Agrees s') : s.dump = s'.dump := by
  unfold Scope.dump
  rw [h.symbols, h.properties, h.texts, h.charts]

theorem table (h : s.Agrees s') {field : Forest.Field} (hfield : field ∈ Forest.fields) :
    field.table s = field.table s' := by
  rcases Forest.mem_fields.1 hfield with rfl | rfl
  · exact h.symbols
  · exact h.properties

theorem replace (h : s.Agrees s') {field : Forest.Field} (hfield : field ∈ Forest.fields)
    (t : Table Value) : (field.replace s t).Agrees (field.replace s' t) := by
  rcases Forest.mem_fields.1 hfield with rfl | rfl
  · exact ⟨rfl, h.properties, h.texts, h.charts⟩
  · exact ⟨h.symbols, rfl, h.texts, h.charts⟩

end Scope.Agrees

namespace Forest

/-- Two forests of the same form with agreeing scopes. -/
structure Agrees (f f' : Forest) : Prop where
  size : f.size = f'.size
  parent? : ∀ i, f.parent? i = f'.parent? i
  scope : ∀ i, (f.scope i).Agrees (f'.scope i)

namespace Agrees

theorem refl (f : Forest) : f.Agrees f := ⟨rfl, fun _ => rfl, fun i => .refl (f.scope i)⟩

variable {f f' : Forest}

theorem holder? (h : f.Agrees f') {field : Field} (hfield : field ∈ fields) (i : Nat)
    (name : Bytes) : f.holder? field i name = f'.holder? field i name := by
  unfold Forest.holder?
  rw [chain_eq_of_parent? h.parent? i]
  refine List.find?_congr fun j _ => ?_
  rw [(h.scope j).table hfield]

theorem get? (h : f.Agrees f') {field : Field} (hfield : field ∈ fields) (i : Nat)
    (name : Bytes) : f.get? field i name = f'.get? field i name := by
  refine get?_congr (chain_eq_of_parent? h.parent? i) fun j _ => ?_
  rw [(h.scope j).table hfield]

theorem modify (h : f.Agrees f') {change change' : Scope → Scope}
    (hc : ∀ s s', s.Agrees s' → (change s).Agrees (change' s')) (i : Nat) :
    (f.modify i change).Agrees (f'.modify i change') := by
  refine ⟨?_, fun j => ?_, fun j => ?_⟩
  · rw [size_modify, size_modify, h.size]
  · rw [parent?_modify, parent?_modify, h.parent? j]
  · rw [scope_modify, scope_modify, h.size]
    split
    · exact hc _ _ (h.scope i)
    · exact h.scope j

theorem put (h : f.Agrees f') {field : Field} (hfield : field ∈ fields) (i : Nat) (name : Bytes)
    (v : Value) : (f.put field i name v).Agrees (f'.put field i name v) := by
  unfold Forest.put
  rw [h.holder? hfield]
  refine h.modify (fun s s' hs => ?_) _
  rw [hs.table hfield]
  exact hs.replace hfield _

theorem addChart (h : f.Agrees f') (i : Nat) (c : Chart) :
    (f.addChart i c).Agrees (f'.addChart i c) := by
  unfold Forest.addChart
  refine h.modify ?_ i
  intro s s' hs
  refine ⟨hs.symbols, hs.properties, hs.texts, ?_⟩
  simp only [hs.charts]

/-- Statements are recorded alike when they have the same text. -/
theorem addStatement (h : f.Agrees f') (i : Nat) {stmt stmt' : Statement}
    (ht : stmt.text = stmt'.text) : (f.addStatement i stmt).Agrees (f'.addStatement i stmt') := by
  unfold Forest.addStatement
  refine h.modify ?_ i
  intro s s' hs
  refine ⟨hs.symbols, hs.properties, ?_, hs.charts⟩
  simp only [List.map_append, List.map_cons, List.map_nil, ht, hs.texts]

end Agrees
end Forest

/-! ## Functions on agreeing scopes -/

/-- What a call answers and leaves behind, on agreeing scopes and from the same host. -/
def SameReply (r r' : Except CallError Value × Forest × Host) : Prop :=
  r.1 = r'.1 ∧ r.2.1.Agrees r'.2.1 ∧ r.2.2 = r'.2.2

namespace Function

/-- A function that does not tell agreeing scopes apart. -/
def Steady (fn : Function) : Prop :=
  ∀ args i {f f' : Forest} (h : Host), f.Agrees f' → SameReply (fn args i f h) (fn args i f' h)

theorem steady_ofPure (g : List Value → Except CallError Value) : (ofPure g).Steady :=
  fun _ _ _ _ _ hf => ⟨rfl, hf, rfl⟩

theorem steady_print : print.Steady := fun _ _ _ _ _ hf => ⟨rfl, hf, rfl⟩

theorem steady_chart : chart.Steady := by
  intro args i f f' h hf
  unfold chart
  split
  · exact ⟨rfl, hf, rfl⟩
  · cases i with
    | none => exact ⟨rfl, hf, rfl⟩
    | some i => exact ⟨rfl, hf.addChart i _, rfl⟩
  · exact ⟨rfl, hf, rfl⟩

theorem steady_property : property.Steady := by
  intro args i f f' h hf
  refine ⟨?_, hf, rfl⟩
  have hfind : ∀ name : Bytes, (i.bind fun i => f.property? i name) =
      i.bind fun i => f'.property? i name := by
    intro name
    cases i with
    | none => rfl
    | some i => exact hf.get? Forest.propertyField_mem i name
  simp only [property, hfind]

theorem steady_setProperty : setProperty.Steady := by
  intro args i f f' h hf
  unfold setProperty
  split
  · cases i with
    | none => exact ⟨rfl, hf, rfl⟩
    | some i => exact ⟨rfl, hf.put Forest.propertyField_mem i _ _, rfl⟩
  · exact ⟨rfl, hf, rfl⟩
  · exact ⟨rfl, hf, rfl⟩

end Function

theorem FunctionTable.steady_invoke (call : Call) {f f' : Forest} (h : Host) (hf : f.Agrees f') :
    SameReply (standard.invoke call f h) (standard.invoke call f' h) := by
  unfold invoke
  cases hget : standard.get? call.name with
  | none => exact ⟨rfl, hf, rfl⟩
  | some fn =>
    have hfn : fn.Steady := standard_forall Function.steady_print Function.steady_chart
      Function.steady_property Function.steady_setProperty Function.steady_ofPure hget
    exact hfn call.args call.scope h hf

/-! ## Evaluation -/

/-- Worlds with agreeing scopes and the same host. -/
structure World.Agrees (w w' : World Host) : Prop where
  forest : w.forest.Agrees w'.forest
  host : w.host = w'.host

theorem World.Agrees.refl (w : World Host) : w.Agrees w := ⟨.refl w.forest, rfl⟩

namespace Evaluator

/-- An evaluator whose calls are answered by the standard functions. -/
def IsStandard (ev : Evaluator Host) : Prop :=
  ev.dispatcher = some FunctionTable.standard.dispatcher

variable {ev : Evaluator Host}

theorem readSymbol_repeats {tk tk' : Token} (h : tk.lexeme = tk'.lexeme) :
    Repeats World.Agrees (ev.readSymbol tk) (ev.readSymbol tk') := by
  intro w w' hw v w₁ hr
  have hsymbol : w.forest.symbol? ev.scope tk.lexeme = w'.forest.symbol? ev.scope tk'.lexeme := by
    rw [h]
    exact hw.forest.get? Forest.symbolField_mem ev.scope tk'.lexeme
  rw [on_readSymbol, hsymbol] at hr
  rw [on_readSymbol]
  cases hs : w'.forest.symbol? ev.scope tk'.lexeme with
  | none =>
    rw [hs] at hr
    cases hr
  | some v' =>
    rw [hs] at hr
    cases hr
    exact ⟨w', rfl, hw⟩

theorem store_repeats {name name' : Bytes} (h : name = name') (v : Value) :
    Repeats World.Agrees
      (modify fun w => { w with forest := w.forest.putSymbol ev.scope name v } : Eval Host Unit)
      (modify fun w => { w with forest := w.forest.putSymbol ev.scope name' v }) := by
  subst h
  intro w w' hw u w₁ hr
  cases hr
  exact ⟨_, rfl, hw.forest.put Forest.symbolField_mem ev.scope name v, hw.host⟩

theorem dispatch_repeats (hev : ev.IsStandard) {fn fn' : Token} (h : fn.lexeme = fn'.lexeme)
    (args : List Value) : Repeats World.Agrees (ev.dispatch fn args) (ev.dispatch fn' args) := by
  intro w w' hw v w₁ hr
  rw [on_dispatch, hev] at hr
  rw [on_dispatch, hev]
  have hreply : SameReply
      (FunctionTable.standard.invoke ⟨fn.lexeme, args, some ev.scope⟩ w.forest w.host)
      (FunctionTable.standard.invoke ⟨fn'.lexeme, args, some ev.scope⟩ w'.forest w'.host) := by
    rw [← h, ← hw.host]
    exact FunctionTable.steady_invoke _ w.host hw.forest
  obtain ⟨hanswer, hforest, hhost⟩ := hreply
  obtain ⟨hv, rfl⟩ := Prod.mk.inj hr
  refine ⟨_, Prod.ext ?_ rfl, hforest, hhost⟩
  rw [← hv]
  exact congrArg (Except.mapError EvalError.call) hanswer.symm

theorem operate_repeats (op : Operator) (l r : Value) :
    Repeats World.Agrees
      (match Value.apply op l r with
        | .ok v => pure v
        | .error e => throw (.operation e) : Eval Host Value)
      (match Value.apply op l r with
        | .ok v => pure v
        | .error e => throw (.operation e)) := by
  cases Value.apply op l r with
  | ok v => exact .pure v
  | error e =>
    intro w w' _ v w₁ hr
    cases hr

mutual

theorem evalExpr_repeats (hev : ev.IsStandard) {e e' : Expr} :
    e.Agrees e' → Repeats World.Agrees (ev.evalExpr e) (ev.evalExpr e')
  | .literal v => by
    rw [evalExpr]
    exact .pure v
  | .symbol name => by
    rw [evalExpr, evalExpr]
    exact readSymbol_repeats name
  | .assign name value => by
    rw [evalExpr, evalExpr]
    refine (evalExpr_repeats hev value).bind fun v => ?_
    exact (store_repeats name v).bind fun _ => .pure v
  | .binary op first second => by
    rw [evalExpr, evalExpr]
    refine (evalExpr_repeats hev first).bind fun l => ?_
    exact (evalExpr_repeats hev second).bind fun r => operate_repeats op l r
  | .call name values => by
    rw [evalExpr, evalExpr]
    exact (evalArgs_repeats hev values).bind fun vs => dispatch_repeats hev name vs

theorem evalArgs_repeats (hev : ev.IsStandard) {args args' : Args} :
    args.Agrees args' → Repeats World.Agrees (ev.evalArgs args) (ev.evalArgs args')
  | .nil => by
    rw [evalArgs]
    exact .pure []
  | .cons first others => by
    rw [evalArgs, evalArgs]
    refine (evalExpr_repeats hev first).bind fun v => ?_
    exact (evalArgs_repeats hev others).bind fun vs => .pure (v :: vs)

end

/-- **A statement read again is evaluated as before.** -/
theorem evalStatement_repeats (hev : ev.IsStandard) {stmt stmt' : Statement}
    (h : List.Forall₂ Token.Agrees stmt stmt') :
    Repeats World.Agrees (ev.evalStatement stmt) (ev.evalStatement stmt') := by
  intro w w' hw v w₁ hr
  by_cases hne : stmt = []
  · subst hne
    cases h
    cases hr
    exact ⟨w', rfl, hw⟩
  -- What has a value has a tree, and the tokens read again are those of a tree like it.
  obtain ⟨t, rfl⟩ := Grammar.exists_tree_of_evalStatement hne hr
  obtain ⟨e, hparse, hagrees⟩ := Grammar.parse_agrees t h
  have hne' : stmt' ≠ [] := by
    rintro rfl
    exact hne (List.forall₂_nil_right_iff.1 h)
  rw [ev.on_evalStatement hne, Grammar.parse_tokens] at hr
  rw [ev.on_evalStatement hne', hparse]
  cases hv : on (ev.evalExpr t.toExpr) w with
  | mk answer w₂ =>
    rw [hv] at hr
    cases answer with
    | error err => cases hr
    | ok v' =>
      cases hr
      obtain ⟨w₃, hv', hw₃⟩ := evalExpr_repeats hev hagrees w w' hw v w₂ hv
      rw [hv']
      refine ⟨_, rfl, ?_, ?_⟩
      · rw [recorded, recorded, World.forest_log, World.forest_log]
        exact hw₃.forest.addStatement ev.scope (Statement.text_agrees h)
      · rw [recorded, recorded, World.host_log, World.host_log]
        exact hw₃.host

end Evaluator
end ChartScript
