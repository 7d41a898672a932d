import ChartScript.Proofs.Eval.OnePass
import ChartScript.Proofs.Eval.Trail
import ChartScript.Proofs.Grammar.Reference
import ChartScript.Proofs.Grammar.Soundness
import ChartScript.Proofs.Grammar.Uniqueness

/-!
# Evaluation follows the grammar

A list of tokens is a statement of the grammar when it is the tokens of a tree, and then of one tree
only. `evalStatement_follows_grammar` says that evaluating a list of tokens, be it in one pass or
after it was read, is walking over its tree, in value or error, scopes, host and calls; and that a
list without a tree never yields a value, even though evaluation begins before it is known that there
is none.
-/

set_option autoImplicit false

namespace ChartScript

open Step ChartScript.Expr

variable {σ : Type}

/-! ## Trees with a fault -/

mutual

/-- A tree that breaks off has no value: on the way from left to right the fault is met, if nothing
fails before. -/
theorem evalExpr_of_hasFault (ev : Evaluator σ) :
    (e : Expr) → e.hasFault = true → Fails (ev.evalExpr e)
  | .literal _, h => by simp [hasFault] at h
  | .symbol _, h => by simp [hasFault] at h
  | .assign tk rhs, h => by
    rw [Evaluator.evalExpr]
    rw [hasFault] at h
    exact (evalExpr_of_hasFault ev rhs h).bind_left _
  | .binary op left right, h => by
    rw [Evaluator.evalExpr]
    rw [hasFault, Bool.or_eq_true] at h
    rcases h with h | h
    · exact (evalExpr_of_hasFault ev left h).bind_left _
    · exact .bind_right _ fun _ => (evalExpr_of_hasFault ev right h).bind_left _
  | .call fn args, h => by
    rw [Evaluator.evalExpr]
    rw [hasFault] at h
    exact (evalArgs_of_hasFault ev args h).bind_left _
  | .fault f, _ => fun w => ⟨.fault f, ev.afterFault f w, ev.on_raise f w⟩

theorem evalArgs_of_hasFault (ev : Evaluator σ) :
    (args : Args) → args.hasFault = true → Fails (ev.evalArgs args)
  | .nil, h => by simp [Args.hasFault] at h
  | .cons arg rest, h => by
    rw [Evaluator.evalArgs]
    rw [Args.hasFault, Bool.or_eq_true] at h
    rcases h with h | h
    · exact (evalExpr_of_hasFault ev arg h).bind_left _
    · exact .bind_right _ fun _ => (evalArgs_of_hasFault ev rest h).bind_left _

end

/-! ## What is parsed -/

namespace Grammar

theorem parse_tokens (t : Expression .last) :
    Statement.parse t.tokens = ⟨t.toExpr, none⟩ := by
  have hr := readExpression_last t [] [] (.nil _)
  rw [List.append_nil] at hr
  rw [parse_eq, show Cursor.ofList t.tokens = ⟨[], t.tokens⟩ from rfl, hr]
  rfl

/-- Without a tree, a list of tokens parses to a tree with a fault, or something is left behind the
tree. -/
theorem parse_of_no_tree {stmt : Statement} (h : ∀ t : Expression .last, t.tokens ≠ stmt) :
    stmt.parse.tree.hasFault = true ∨ ∃ tk, stmt.parse.trailing = some tk := by
  have hs := readExpression_sound (.ofList stmt)
  rw [parse_eq]
  cases hr : plain (readExpression (.ofList stmt)) with
  | error cut => rw [hr] at hs; exact .inl hs
  | ok r =>
    obtain ⟨e, c⟩ := r
    rw [hr] at hs
    obtain ⟨t, -, heq, -⟩ := hs
    cases hc : c.ahead with
    | nil =>
      rw [hc, List.append_nil] at heq
      exact absurd heq.symm (h t)
    | cons tk rest => exact .inr ⟨tk, by simp [hc]⟩

/-- A list of tokens without a tree never yields a value. -/
theorem evalStatement_of_no_tree (ev : Evaluator σ) {stmt : Statement} (hne : stmt ≠ [])
    (h : ∀ t : Expression .last, t.tokens ≠ stmt) : Fails (ev.evalStatement stmt) := by
  intro w
  rw [ev.on_evalStatement hne]
  rcases parse_of_no_tree h with hf | ⟨tk, ht⟩
  · obtain ⟨err, w', hr⟩ := evalExpr_of_hasFault ev _ hf w
    rw [hr]
    exact ⟨err, w', rfl⟩
  · -- The tree may well have a value; the token behind it is the error then.
    rw [ht]
    cases on (ev.evalExpr stmt.parse.tree) w with
    | mk answer w' => cases answer <;> exact ⟨_, _, rfl⟩

/-- What was evaluated to the end has a tree. -/
theorem exists_tree_of_evalStatement {ev : Evaluator σ} {stmt : Statement} {w w' : World σ}
    {v : Value} (hne : stmt ≠ []) (h : on (ev.evalStatement stmt) w = (.ok v, w')) :
    ∃ t : Expression .last, t.tokens = stmt := by
  refine Classical.byContradiction fun hno => ?_
  obtain ⟨err, w'', hr⟩ := evalStatement_of_no_tree ev hne (fun t ht => hno ⟨t, ht⟩) w
  rw [h] at hr
  cases hr

/-! ## Walking over the tree -/

theorem course_recorded (ev : Evaluator σ) (stmt : Statement) (v : Value) (w : World σ) :
    (ev.recorded stmt v w).course =
      { w.course with forest := w.forest.addStatement ev.scope stmt } := by
  unfold Evaluator.recorded World.course
  simp only [World.forest_log, World.host_log, World.calls_log]
  rfl

theorem evalStatement_tokens (ev : Evaluator σ) (t : Expression .last) :
    Simulates HasCourse (ev.evalStatement t.tokens) (t.run ev) := by
  intro w c h
  rw [ev.on_evalStatement t.startsOperand.ne_nil, parse_tokens]
  unfold Expression.run
  rcases (t.eval_simulates ev).cases h with
    ⟨err, w', c', hw, hc, hcourse⟩ | ⟨v, w', c', hw, hc, hcourse⟩
  · rw [hw, on_bind_error hc]
    exact ⟨rfl, hcourse⟩
  · rw [hw, on_bind_ok hc, on_bind, on_modify]
    refine ⟨rfl, ?_⟩
    have hcourse : w'.course = c' := hcourse
    show (ev.recorded t.tokens v w').course = _
    rw [course_recorded, ← hcourse]
    rfl

/-- **Evaluation follows the grammar.** Evaluation in one pass is evaluation of what was read. Tokens
that are those of a tree, and then of no other tree, are evaluated as the tree is: same value or error,
same scopes, same host, same calls. Tokens that are those of no tree yield an error, and nothing is
recorded. -/
theorem evalStatement_follows_grammar (ev : Evaluator σ) (stmt : Statement) (hne : stmt ≠ [])
    (w : World σ) :
    ev.takeStatement stmt = ev.evalStatement stmt ∧
    (∀ t : Expression .last, t.tokens = stmt →
      (∀ t' : Expression .last, t'.tokens = stmt → t' = t) ∧
      (on (ev.evalStatement stmt) w).1 = (on (t.run ev) w.course).1 ∧
      (on (ev.evalStatement stmt) w).2.course = (on (t.run ev) w.course).2) ∧
    ((∀ t : Expression .last, t.tokens ≠ stmt) →
      ∃ err w', on (ev.evalStatement stmt) w = (.error err, w') ∧
        Trail ev w.state [] w'.state) := by
  refine ⟨ev.takeStatement_eq stmt, fun t ht => ⟨fun t' ht' => ?_, ?_⟩, fun h => ?_⟩
  · exact tokens_injective (ht'.trans ht.symm)
  · rw [← ht]
    exact evalStatement_tokens ev t w w.course rfl
  · obtain ⟨err, w', hr⟩ := evalStatement_of_no_tree ev hne h w
    have htrail := ev.evalStatement_trail stmt w
    rw [hr] at htrail
    exact ⟨err, w', hr, htrail⟩

/-- The tree of `2 * a = 1 + 2`: the assignment is the last operand and takes the sum. -/
def productOfAssignment : Expression .last :=
  .single (.binary (.single (.literal ⟨⟨.int, "2", .integer 2, ⟨1, 1, 0⟩⟩, rfl⟩))
    ⟨⟨.times, "*", .nil, ⟨1, 3, 2⟩⟩, .inl rfl⟩
    (.assign ⟨⟨.symbol, "a", .nil, ⟨1, 5, 4⟩⟩, rfl⟩ ⟨⟨.assign, "=", .nil, ⟨1, 7, 6⟩⟩, rfl⟩
      (.binary (.single (.single (.literal ⟨⟨.int, "1", .integer 1, ⟨1, 9, 8⟩⟩, rfl⟩)))
        ⟨⟨.plus, "+", .nil, ⟨1, 11, 10⟩⟩, .inl rfl⟩
        (.single (.literal ⟨⟨.int, "2", .integer 2, ⟨1, 13, 12⟩⟩, rfl⟩)))))

/-- `2 * a = 1 + 2` is 6, as a walk over its tree says. -/
theorem evalStatement_productOfAssignment :
    productOfAssignment.tokens ≠ [] ∧
      (on (Evaluator.evalStatement (σ := Unit) ⟨0, none, none⟩ productOfAssignment.tokens)
        ⟨.root, (), []⟩).1 = .ok (.integer 6) := by
  have hne : productOfAssignment.tokens ≠ [] := productOfAssignment.startsOperand.ne_nil
  refine ⟨hne, ?_⟩
  rw [((evalStatement_follows_grammar _ _ hne _).2.1 productOfAssignment rfl).2.1]
  rfl

end Grammar
end ChartScript
