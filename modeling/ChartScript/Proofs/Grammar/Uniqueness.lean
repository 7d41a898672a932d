import ChartScript.Proofs.Grammar.Reading

/-!
# One tree for each list of tokens

Two trees with the same tokens are the same tree. Reading settles most of it: both trees are what
the readers return for these tokens (`readExpression_last`), so `toExpr` cannot tell them apart. It
remains that the tokens which `toExpr` forgets are in the same places too, and for that it is enough
that `toExpr` knows how many tokens each part takes (`width`).
-/

set_option autoImplicit false

namespace ChartScript

mutual

/-- The number of tokens that a tree is read from, if it has no fault. -/
def Expr.width : Expr → Nat
  | .literal _ | .symbol _ => 1
  | .assign _ rhs => rhs.width + 2
  | .binary _ left right => left.width + right.width + 1
  | .call _ args => args.width + 3
  | .fault _ => 0

/-- The number of tokens of arguments, with the commas between them. -/
def Args.width : Args → Nat
  | .nil => 0
  | .cons arg .nil => arg.width
  | .cons arg rest => arg.width + 1 + rest.width

end

namespace Grammar

mutual

theorem Primary.length_tokens {p : Place} : (t : Primary p) → t.tokens.length = t.toExpr.width
  | .literal tk => by simp [Primary.tokens, Primary.toExpr, Expr.width]
  | .symbol tk => by simp [Primary.tokens, Primary.toExpr, Expr.width]
  | .assign tk sign rhs => by
    simp [Primary.tokens, Primary.toExpr, Expr.width, rhs.length_tokens]
  | .call fn left args right => by
    simp [Primary.tokens, Primary.toExpr, Expr.width, args.length_tokens]

theorem Term.length_tokens {p : Place} : (t : Term p) → t.tokens.length = t.toExpr.width
  | .single operand => by simp [Term.tokens, Term.toExpr, operand.length_tokens]
  | .binary left op right => by
    simp [Term.tokens, Term.toExpr, Expr.width, left.length_tokens, right.length_tokens,
      Nat.add_assoc]

theorem Expression.length_tokens {p : Place} : (e : Expression p) →
    e.tokens.length = e.toExpr.width
  | .single term => by simp [Expression.tokens, Expression.toExpr, term.length_tokens]
  | .binary left op right => by
    simp [Expression.tokens, Expression.toExpr, Expr.width, left.length_tokens,
      right.length_tokens, Nat.add_assoc]

theorem Arguments.length_tokens : (args : Arguments) → args.tokens.length = args.toArgs.width
  | .none => by simp [Arguments.tokens, Arguments.toArgs, Args.width]
  | .some items => by simp [Arguments.tokens, Arguments.toArgs, items.length_tokens]

theorem Items.length_tokens : (items : Items) → items.tokens.length = items.toArgs.width
  | .one arg => by simp [Items.tokens, Items.toArgs, Args.width, arg.length_tokens]
  | .more arg comma rest => by
    have hr := rest.length_tokens
    cases rest <;>
      simp [Items.tokens, Items.toArgs, Args.width, arg.length_tokens] at hr ⊢ <;> omega

end

/-- Two parts with a sign between them are in the same places when the left parts take equally
many tokens. -/
theorem split_at_sign {l l' r r' : List Token} {sign sign' : Token} (hw : l.length = l'.length)
    (h : l ++ sign :: r = l' ++ sign' :: r') : l = l' ∧ sign = sign' ∧ r = r' := by
  obtain ⟨hl, hr⟩ := List.append_inj h hw
  exact ⟨hl, (List.cons.inj hr).1, (List.cons.inj hr).2⟩

theorem multiplicativeOperator_ne (a : AdditiveToken) (m : MultiplicativeToken) :
    multiplicativeOperator m ≠ additiveOperator a := by
  unfold multiplicativeOperator additiveOperator
  split <;> split <;> simp

/-- An operand is no operation. -/
theorem Primary.toExpr_ne_binary {p : Place} (t : Primary p) (op : Operator) (l r : Expr) :
    t.toExpr ≠ .binary op l r := by
  cases t <;> simp [Primary.toExpr]

/-- A term is no sum or difference. -/
theorem Term.toExpr_ne_additive {p : Place} (t : Term p) (a : AdditiveToken) (l r : Expr) :
    t.toExpr ≠ .binary (additiveOperator a) l r := by
  cases t with
  | single operand =>
    rw [Term.toExpr]
    exact operand.toExpr_ne_binary _ l r
  | binary left op right =>
    rw [Term.toExpr]
    intro h
    exact multiplicativeOperator_ne a op (Expr.binary.inj h).1

-- The induction is on the first tree. Equal widths put the signs of both trees in the same places.
mutual

theorem Primary.eq_of_toExpr {p : Place} : (t t' : Primary p) → t.toExpr = t'.toExpr →
    t.tokens = t'.tokens → t = t'
  | .literal tk, .literal tk', he, ht => by
    simp only [Primary.tokens, List.cons.injEq, and_true] at ht
    rw [Subtype.ext ht]
  | .symbol tk, .symbol tk', he, ht => by
    simp only [Primary.tokens, List.cons.injEq, and_true] at ht
    rw [Subtype.ext ht]
  | .assign tk sign rhs, .assign tk' sign' rhs', he, ht => by
    simp only [Primary.tokens, List.cons.injEq] at ht
    simp only [Primary.toExpr, Expr.assign.injEq] at he
    rw [Subtype.ext ht.1, Subtype.ext ht.2.1, rhs.eq_of_toExpr rhs' he.2 ht.2.2]
  | .call fn left args right, .call fn' left' args' right', he, ht => by
    simp only [Primary.tokens, List.cons.injEq] at ht
    simp only [Primary.toExpr, Expr.call.injEq] at he
    obtain ⟨hfn, hleft, hrest⟩ := ht
    obtain ⟨hargs, hright⟩ := List.append_inj' hrest rfl
    rw [Subtype.ext hfn, Subtype.ext hleft, args.eq_of_toExpr args' he.2 hargs,
      Subtype.ext (List.cons.inj hright).1]
  | .literal _, .symbol _, he, _ => by simp [Primary.toExpr] at he
  | .literal _, .assign .., he, _ => by simp [Primary.toExpr] at he
  | .literal _, .call .., he, _ => by simp [Primary.toExpr] at he
  | .symbol _, .literal _, he, _ => by simp [Primary.toExpr] at he
  | .symbol _, .assign .., he, _ => by simp [Primary.toExpr] at he
  | .symbol _, .call .., he, _ => by simp [Primary.toExpr] at he
  | .assign .., .literal _, he, _ => by simp [Primary.toExpr] at he
  | .assign .., .symbol _, he, _ => by simp [Primary.toExpr] at he
  | .assign .., .call .., he, _ => by simp [Primary.toExpr] at he
  | .call .., .literal _, he, _ => by simp [Primary.toExpr] at he
  | .call .., .symbol _, he, _ => by simp [Primary.toExpr] at he
  | .call .., .assign .., he, _ => by simp [Primary.toExpr] at he
termination_by structural t => t

theorem Term.eq_of_toExpr {p : Place} : (t t' : Term p) → t.toExpr = t'.toExpr →
    t.tokens = t'.tokens → t = t'
  | .single operand, .single operand', he, ht => by
    simp only [Term.toExpr, Term.tokens] at he ht
    rw [operand.eq_of_toExpr operand' he ht]
  | .binary left op right, .binary left' op' right', he, ht => by
    simp only [Term.toExpr, Term.tokens, Expr.binary.injEq] at he ht
    have hw : left.tokens.length = left'.tokens.length := by
      rw [left.length_tokens, left'.length_tokens, he.2.1]
    obtain ⟨hl, hop, hr⟩ := split_at_sign hw ht
    rw [left.eq_of_toExpr left' he.2.1 hl, Subtype.ext hop, right.eq_of_toExpr right' he.2.2 hr]
  | .single operand, .binary .., he, _ => by
    rw [Term.toExpr, Term.toExpr] at he
    exact absurd he (operand.toExpr_ne_binary _ _ _)
  | .binary .., .single operand, he, _ => by
    rw [Term.toExpr, Term.toExpr] at he
    exact absurd he.symm (operand.toExpr_ne_binary _ _ _)
termination_by structural t => t

theorem Expression.eq_of_toExpr {p : Place} : (e e' : Expression p) → e.toExpr = e'.toExpr →
    e.tokens = e'.tokens → e = e'
  | .single term, .single term', he, ht => by
    simp only [Expression.toExpr, Expression.tokens] at he ht
    rw [term.eq_of_toExpr term' he ht]
  | .binary left op right, .binary left' op' right', he, ht => by
    simp only [Expression.toExpr, Expression.tokens, Expr.binary.injEq] at he ht
    have hw : left.tokens.length = left'.tokens.length := by
      rw [left.length_tokens, left'.length_tokens, he.2.1]
    obtain ⟨hl, hop, hr⟩ := split_at_sign hw ht
    rw [left.eq_of_toExpr left' he.2.1 hl, Subtype.ext hop, right.eq_of_toExpr right' he.2.2 hr]
  | .single term, .binary .., he, _ => by
    rw [Expression.toExpr, Expression.toExpr] at he
    exact absurd he (term.toExpr_ne_additive _ _ _)
  | .binary .., .single term, he, _ => by
    rw [Expression.toExpr, Expression.toExpr] at he
    exact absurd he.symm (term.toExpr_ne_additive _ _ _)
termination_by structural e => e

theorem Arguments.eq_of_toExpr : (args args' : Arguments) → args.toArgs = args'.toArgs →
    args.tokens = args'.tokens → args = args'
  | .none, .none, _, _ => rfl
  | .some items, .some items', he, ht => by
    simp only [Arguments.toArgs, Arguments.tokens] at he ht
    rw [items.eq_of_toExpr items' he ht]
  | .none, .some items, _, ht => by
    simp only [Arguments.tokens] at ht
    exact absurd ht.symm items.startsOperand.ne_nil
  | .some items, .none, _, ht => by
    simp only [Arguments.tokens] at ht
    exact absurd ht items.startsOperand.ne_nil
termination_by structural args => args

theorem Items.eq_of_toExpr : (items items' : Items) → items.toArgs = items'.toArgs →
    items.tokens = items'.tokens → items = items'
  | .one arg, .one arg', he, ht => by
    simp only [Items.toArgs, Items.tokens, Args.cons.injEq, and_true] at he ht
    rw [arg.eq_of_toExpr arg' he ht]
  | .more arg comma rest, .more arg' comma' rest', he, ht => by
    simp only [Items.toArgs, Items.tokens, Args.cons.injEq] at he ht
    have hw : arg.tokens.length = arg'.tokens.length := by
      rw [arg.length_tokens, arg'.length_tokens, he.1]
    obtain ⟨ha, hc, hr⟩ := split_at_sign hw ht
    rw [arg.eq_of_toExpr arg' he.1 ha, Subtype.ext hc, rest.eq_of_toExpr rest' he.2 hr]
  | .one arg, .more arg' comma rest, he, _ => by
    cases rest <;> simp [Items.toArgs] at he
  | .more arg' comma rest, .one arg, he, _ => by
    cases rest <;> simp [Items.toArgs] at he
termination_by structural items => items

end

/-- **The grammar is unambiguous**: a list of tokens has at most one tree. -/
theorem tokens_injective {e e' : Expression .last} (h : e.tokens = e'.tokens) : e = e' := by
  have hr := readExpression_last e [] [] (.nil _)
  rw [h, readExpression_last e' [] [] (.nil _)] at hr
  exact e.eq_of_toExpr e' (Prod.mk.inj (Except.ok.inj hr)).1.symm h

end Grammar
end ChartScript
