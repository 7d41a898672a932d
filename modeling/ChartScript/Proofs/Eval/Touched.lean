import ChartScript.Proofs.Eval.Replay
import ChartScript.Proofs.Grammar.Origin
import ChartScript.Proofs.Scope.Cells

/-!
# What a statement touches

With the standard functions, one can tell from the tokens of a statement what its evaluation may
change anywhere in the scopes, also if it fails half way: symbols that stand before a `=`,
properties if `setProperty` is called, and what its own scope has recorded. `Touches` says so of two
states of the scopes. Each thing that evaluation does at a site of the tree touches no more than the
tokens allow, and a run does nothing else (`Visits.touches`).
-/

set_option autoImplicit false

namespace ChartScript

open Step Forest

/-- What may have become of the scopes `f` by evaluating tokens in the scope `i`, where `stmts` are
the statements that completed. -/
structure Touches (tokens : List Token) (i : Nat) (stmts : List Statement) (f f' : Forest) :
    Prop where
  symbols : ∀ j name, f'.cell? symbolField j name ≠ f.cell? symbolField j name →
    Assigns tokens name
  properties : ∀ j name, f'.cell? propertyField j name ≠ f.cell? propertyField j name →
    Mentions tokens "setProperty"
  statements : (f'.scope i).statements = (f.scope i).statements ++ stmts
  charts : (f.scope i).charts <+: (f'.scope i).charts
  others : ∀ j, j ≠ i → (f'.scope j).statements = (f.scope j).statements ∧
    (f'.scope j).charts = (f.scope j).charts
  size : f'.size = f.size
  parent : ∀ j, f'.parent? j = f.parent? j

namespace Touches

variable {tokens : List Token} {i : Nat} {stmts stmts' : List Statement} {f f' f'' : Forest}

theorem refl (tokens : List Token) (i : Nat) (f : Forest) : Touches tokens i [] f f where
  symbols _ _ h := absurd rfl h
  properties _ _ h := absurd rfl h
  statements := (List.append_nil _).symm
  charts := List.prefix_rfl
  others _ _ := ⟨rfl, rfl⟩
  size := rfl
  parent _ := rfl

theorem trans (h : Touches tokens i stmts f f') (h' : Touches tokens i stmts' f' f'') :
    Touches tokens i (stmts ++ stmts') f f'' where
  symbols j name hne := by
    by_cases heq : f''.cell? symbolField j name = f'.cell? symbolField j name
    · exact h.symbols j name (heq ▸ hne)
    · exact h'.symbols j name heq
  properties j name hne := by
    by_cases heq : f''.cell? propertyField j name = f'.cell? propertyField j name
    · exact h.properties j name (heq ▸ hne)
    · exact h'.properties j name heq
  statements := by rw [h'.statements, h.statements, List.append_assoc]
  charts := h.charts.trans h'.charts
  others j hj :=
    ⟨(h'.others j hj).1.trans (h.others j hj).1, (h'.others j hj).2.trans (h.others j hj).2⟩
  size := h'.size.trans h.size
  parent j := (h'.parent j).trans (h.parent j)

/-! ## Single changes -/

/-- Where a table is the same, so are its cells. -/
theorem cell_eq {field : Field} {j : Nat} (h : field.table (f'.scope j) = field.table (f.scope j))
    (name : Bytes) : f'.cell? field j name = f.cell? field j name :=
  congrArg (·.get? name) h

theorem cell_modify {field : Field} {change : Scope → Scope}
    (h : ∀ s, field.table (change s) = field.table s) (f : Forest) (i j : Nat) (name : Bytes) :
    (f.modify i change).cell? field j name = f.cell? field j name :=
  cell_eq (view_modify h f i j) name

/-- To store something touches the cells of one name. -/
theorem of_stored {field other : Field} {name : Bytes} {v : Value} {c : Nat}
    (h : Stored field other i name v f f' c)
    (symbols : ∀ j m, f'.cell? symbolField j m ≠ f.cell? symbolField j m → Assigns tokens m)
    (properties : ∀ j m, f'.cell? propertyField j m ≠ f.cell? propertyField j m →
      Mentions tokens "setProperty") : Touches tokens i [] f f' where
  symbols := symbols
  properties := properties
  statements := (h.statements i).trans (List.append_nil _).symm
  charts := h.charts i ▸ List.prefix_rfl
  others j _ := ⟨h.statements j, h.charts j⟩
  size := h.size
  parent := h.parent

theorem putSymbol {name : Bytes} (hname : Assigns tokens name) (hi : i < f.size) (v : Value) :
    Touches tokens i [] f (f.putSymbol i name v) := by
  have hstored : Stored symbolField propertyField i name v f (f.putSymbol i name v) _ :=
    put_stored symbolField_mem (fun _ _ => rfl) f hi name v
  refine of_stored hstored (fun j m hne => ?_) fun j m hne => ?_
  · rw [hstored.cells] at hne
    split at hne
    · next h => rwa [h.2]
    · exact absurd rfl hne
  · exact absurd (cell_eq (hstored.other j) m) hne

theorem putProperty (hset : Mentions tokens "setProperty") (hi : i < f.size) (name : Bytes)
    (v : Value) : Touches tokens i [] f (f.putProperty i name v) := by
  have hstored : Stored propertyField symbolField i name v f (f.putProperty i name v) _ :=
    put_stored propertyField_mem (fun _ _ => rfl) f hi name v
  refine of_stored hstored (fun j m hne => ?_) fun _ _ _ => hset
  exact absurd (cell_eq (hstored.other j) m) hne

theorem addChart (hi : i < f.size) (c : Chart) : Touches tokens i [] f (f.addChart i c) where
  symbols j m hne :=
    absurd (cell_modify (table_addChart symbolField_mem c) f i j m) hne
  properties j m hne :=
    absurd (cell_modify (table_addChart propertyField_mem c) f i j m) hne
  statements := (statements_addChart f i c i).trans (List.append_nil _).symm
  charts := by
    rw [Forest.addChart, scope_modify_self hi]
    exact List.prefix_append ..
  others j hj := by
    rw [Forest.addChart, scope_modify_ne hj]
    exact ⟨rfl, rfl⟩
  size := size_modify ..
  parent := parent?_modify f i _

theorem addStatement (hi : i < f.size) (stmt : Statement) :
    Touches tokens i [stmt] f (f.addStatement i stmt) where
  symbols j m hne :=
    absurd (cell_modify (table_addStatement symbolField_mem stmt) f i j m) hne
  properties j m hne :=
    absurd (cell_modify (table_addStatement propertyField_mem stmt) f i j m) hne
  statements := statements_addStatement hi stmt
  charts := by
    have hcharts : ((f.addStatement i stmt).scope i).charts = (f.scope i).charts := by
      rw [Forest.addStatement, scope_modify_self hi]
    exact hcharts ▸ List.prefix_rfl
  others j hj := by
    rw [Forest.addStatement, scope_modify_ne hj]
    exact ⟨rfl, rfl⟩
  size := size_modify ..
  parent := parent?_modify f i _

/-- A standard function that is mentioned touches properties only if it is `setProperty`. -/
theorem invoke {name : Bytes} (hname : Mentions tokens name) (hi : i < f.size) (args : List Value)
    (h : Host) :
    Touches tokens i [] f (FunctionTable.standard.invoke ⟨name, args, some i⟩ f h).2.1 := by
  by_cases hset : name = "setProperty"
  · subst hset
    have hfoot := FunctionTable.footprint_invoke "setProperty" args i f h
    generalize (FunctionTable.standard.invoke _ f h).2.1 = f' at hfoot ⊢
    cases hfoot with
    | none => exact .refl tokens i f
    | property name v => exact putProperty hname hi name v
    | chart c => exact addChart hi c
  · rcases FunctionTable.invoke_sparesNames hset args i f h with heq | ⟨c, heq⟩
    · rw [heq]
      exact .refl tokens i f
    · rw [heq]
      exact addChart hi c

end Touches

/-! ## Runs -/

/-- What is done at sites of the tokens touches no more than the tokens allow. -/
theorem Visits.touches {ev : Evaluator Host} (hev : ev.IsStandard) {tokens : List Token}
    {sites : List Site} {a b : Effects Host} (h : Visits ev sites a b)
    (hsites : ∀ site ∈ sites, site.In tokens) (hi : ev.scope < a.1.size) :
    Touches tokens ev.scope [] a.1 b.1 := by
  induction h with
  | done s => exact .refl tokens ev.scope s.1
  | skip site rest ih => exact ih (List.forall_mem_cons.1 hsites).2 hi
  | store tk v rest ih =>
    obtain ⟨hsite, hrest⟩ := List.forall_mem_cons.1 hsites
    have hstore := Touches.putSymbol hsite hi v
    exact hstore.trans (ih hrest (hstore.size ▸ hi))
  | @call sites f h calls s d hd fn args rest ih =>
    obtain rfl : FunctionTable.standard.dispatcher = d := Option.some.inj (hev.symm.trans hd)
    obtain ⟨hsite, hrest⟩ := List.forall_mem_cons.1 hsites
    have hcall := Touches.invoke hsite hi args h
    exact hcall.trans (ih hrest (hcall.size ▸ hi))

namespace Evaluator

/-- **The tokens of a statement tell what its evaluation touches.** A statement that completes is
recorded unless it is empty, and the empty one changes nothing. Of the calls it makes, those that
are answered with an error have changed nothing either. -/
theorem evalStatement_touches {ev : Evaluator Host} (hev : ev.IsStandard) (stmt : Statement)
    (w : World Host) (hi : ev.scope < w.forest.size) :
    (match on (ev.evalStatement stmt) w with
      | (.error _, w') => Touches stmt ev.scope [] w.forest w'.forest
      | (.ok _, w') => Touches stmt ev.scope (records stmt) w.forest w'.forest) ∧
    on (ev.evalStatement []) w = (.ok .nil, w) ∧
    ∀ call f h e, (FunctionTable.standard.invoke call f h).1 = .error e →
      (FunctionTable.standard.invoke call f h).2 = (f, h) := by
  refine ⟨?_, on_evalStatement_nil ev w, fun _ _ _ _ => FunctionTable.invoke_refuses⟩
  by_cases hne : stmt = []
  · subst hne
    rw [on_evalStatement_nil]
    exact .refl [] ev.scope w.forest
  have hexpr := (ev.evalExpr_visits stmt.parse.tree w).touches hev stmt.sites_in hi
  have hends := ev.statement_ends hne w
  generalize on (ev.evalStatement stmt) w = out at hends ⊢
  cases hends with
  | failed tree => rwa [tree] at hexpr
  | trailing tree behind =>
    rw [tree] at hexpr
    dsimp only
    rwa [forest_afterFault]
  | completed tree behind =>
    rw [tree] at hexpr
    have hrecords : records stmt = [stmt] := by simp [records, hne]
    dsimp only
    rw [hrecords, recorded, World.forest_log]
    exact hexpr.trans (.addStatement (hexpr.size ▸ hi) stmt)

/-- `a = print()` stores `a`, and no other symbol; it is recorded. -/
theorem evalStatement_touches_assigned :
    (standard none).IsStandard ∧ (standard none).scope < Forest.root.size ∧
      (on ((standard none).evalStatement assigned.tokens) (.fresh {})).1 = .ok (.text []) ∧
      ((on ((standard none).evalStatement assigned.tokens)
        (.fresh {})).2.forest.scope 0).statements = [assigned.tokens] ∧
      (on ((standard none).evalStatement assigned.tokens)
        (.fresh {})).2.forest.cell? symbolField 0 "b" = none := by
  have hi : (standard none).scope < Forest.root.size := Nat.lt_succ_self 0
  obtain ⟨htouches, -, -⟩ := evalStatement_touches (standard_isStandard none) assigned.tokens
    (.fresh {}) hi
  rw [on_assigned] at htouches ⊢
  refine ⟨standard_isStandard none, hi, rfl, htouches.statements, ?_⟩
  by_contra hb
  obtain ⟨before, tk, sign, after, hsplit, hkind, hname, -⟩ := htouches.symbols 0 "b" hb
  have hsymbols : ∀ tk ∈ assigned.tokens, tk.kind = .symbol → tk.lexeme ≠ "b" := by decide
  exact hsymbols tk (by rw [hsplit]; simp) hkind hname

/-- The empty statement completes, and no statement is recorded. -/
theorem evalStatement_nil_unrecorded :
    (on ((standard none).evalStatement []) (.fresh {})).1 = .ok .nil ∧
      ((on ((standard none).evalStatement []) (.fresh {})).2.forest.scope 0).statements ≠
        (Forest.root.scope 0).statements ++ [[]] := by
  rw [on_evalStatement_nil]
  exact ⟨rfl, nofun⟩

end Evaluator
end ChartScript
