import ChartScript.Proofs.Grammar.Reader

/-!
# Reading gives the tree back

If the tokens ahead are those of a tree, and what follows them cannot belong to it, the readers
return that tree and stop right behind it. What cannot belong to a part depends on its place
(`Follows`): behind an inner part everything may stand but `=`, which would turn a symbol into an
assignment; behind a last part no operator may stand either, because an assignment would take it.

The tails of the readers are loops with the tree read so far in hand, while trees grow to the left.
So the statements for terms and expressions do not say that reading ends: reading the tokens of
`left` *is* going on with `left` in hand, whatever comes next.
-/

set_option autoImplicit false

namespace ChartScript
namespace Grammar

open ChartScript.Expr

/-- Whether a kind of token is a sign of an operation. -/
def isOperator : Kind → Bool
  | .plus | .minus | .times | .divide => true
  | _ => false

/-- What may stand behind a part of an expression. -/
def Follows (p : Place) (rest : List Token) : Prop :=
  ∀ tk ∈ rest.head?, tk.kind ≠ .assign ∧ (p = .last → isOperator tk.kind = false)

theorem Follows.nil (p : Place) : Follows p [] := by
  intro tk h
  cases h

theorem follows_cons {p : Place} {tk : Token} {rest : List Token} (ha : tk.kind ≠ .assign)
    (ho : p = .last → isOperator tk.kind = false) : Follows p (tk :: rest) := by
  intro t h
  cases h
  exact ⟨ha, ho⟩

theorem Follows.head_ne_assign {p : Place} {rest : List Token} (h : Follows p rest) :
    rest.head?.map Token.kind ≠ some .assign := by
  cases rest with
  | nil => simp
  | cons tk rest => simpa using (h tk rfl).1

theorem Follows.additive?_eq_none {rest : List Token} (h : Follows .last rest) :
    additive? rest.head? = none := by
  cases rest with
  | nil => rfl
  | cons tk rest =>
    have ho := (h tk rfl).2 rfl
    unfold additive?
    cases hk : tk.kind with
    | plus | minus => rw [hk] at ho; cases ho
    | _ => simp [hk]

theorem Follows.multiplicative?_eq_none {rest : List Token} (h : Follows .last rest) :
    multiplicative? rest.head? = none := by
  cases rest with
  | nil => rfl
  | cons tk rest =>
    have ho := (h tk rfl).2 rfl
    unfold multiplicative?
    cases hk : tk.kind with
    | times | divide => rw [hk] at ho; cases ho
    | _ => simp [hk]

/-! ## Signs -/

theorem additive?_val (tk : AdditiveToken) :
    additive? (some tk.val) = some (additiveOperator tk) := by
  unfold additive? additiveOperator
  rcases tk.property with h | h <;> simp [h]

theorem multiplicative?_val (tk : MultiplicativeToken) :
    multiplicative? (some tk.val) = some (multiplicativeOperator tk) := by
  unfold multiplicative? multiplicativeOperator
  rcases tk.property with h | h <;> simp [h]

theorem multiplicative?_of_additive (tk : AdditiveToken) :
    multiplicative? (some tk.val) = none := by
  unfold multiplicative?
  rcases tk.property with h | h <;> simp [h]

theorem follows_additive (tk : AdditiveToken) (rest : List Token) :
    Follows .inner (tk.val :: rest) :=
  follows_cons (by rcases tk.property with h | h <;> simp [h]) (by simp)

theorem follows_multiplicative (tk : MultiplicativeToken) (rest : List Token) :
    Follows .inner (tk.val :: rest) :=
  follows_cons (by rcases tk.property with h | h <;> simp [h]) (by simp)

theorem follows_rightParen (tk : TokenOf .rightParen) (rest : List Token) :
    Follows .last (tk.val :: rest) :=
  follows_cons (by simp [tk.property]) (by simp [tk.property, isOperator])

theorem follows_comma (tk : TokenOf .comma) (rest : List Token) :
    Follows .last (tk.val :: rest) :=
  follows_cons (by simp [tk.property]) (by simp [tk.property, isOperator])

theorem head_ne_comma {tokens : List Token} (h : StartsOperand tokens) (rest : List Token) :
    (tokens ++ rest).head?.map Token.kind ≠ some .comma := by
  obtain ⟨tk, more, rfl, hk⟩ := h
  intro hc
  simp only [List.cons_append, List.head?_cons, Option.map_some, Option.some.injEq] at hc
  simp [hc, isOperandStart] at hk

/-! ## Reading the tokens of a tree -/

/-- What has been seen after two parts and the sign between them. -/
theorem seen_binary (left : List Token) (sign : Token) (right seen : List Token) :
    (left ++ sign :: right).reverse ++ seen =
      right.reverse ++ sign :: (left.reverse ++ seen) := by
  simp

/-- Going on with a whole expression in hand ends at what cannot belong to it. -/
theorem readExpression_ends {start c : Cursor} {e : Expr}
    (h : plain (readExpression start) = plain (readExpressionTail e c))
    (hf : Follows .last c.ahead) : plain (readExpression start) = .ok (e, c) := by
  rw [h, plain_readExpressionTail_stop e hf.additive?_eq_none]

mutual

theorem readPrimary_tokens {p : Place} : (t : Primary p) → (seen rest : List Token) →
    Follows p rest →
    plain (readPrimary ⟨seen, t.tokens ++ rest⟩) =
      .ok (t.toExpr, ⟨t.tokens.reverse ++ seen, rest⟩)
  | .literal tk, seen, rest, _ => plain_readPrimary_literal tk.property seen rest
  | .symbol tk, seen, rest, h => plain_readPrimary_symbol tk.property seen rest h.head_ne_assign
  | .assign tk sign rhs, seen, rest, h => by
    -- An assignment is a last part, so what follows it cannot belong to its right-hand side.
    have hr := readExpression_ends (readExpression_tokens rhs (sign.val :: tk.val :: seen) rest h
      h.multiplicative?_eq_none) h
    simp only [Primary.tokens, List.cons_append]
    rw [plain_readPrimary_assign tk.property sign.property, hr]
    simp [Primary.toExpr]
  | .call fn left .none right, seen, rest, _ => by
    simp only [Primary.tokens, Arguments.tokens, List.nil_append, List.cons_append]
    rw [plain_readPrimary_func fn.property,
      plain_readCall_empty fn.val left.property right.property]
    simp [Primary.toExpr, Arguments.toArgs]
  | .call fn left (.some items) right, seen, rest, _ => by
    have hr := readArguments_tokens fn.val items (left.val :: fn.val :: seen) rest right
    -- The reader looks for `)` first: an argument does not begin with it.
    obtain ⟨tk, more, heq, hk⟩ := items.startsOperand
    have ht : (Primary.call (p := p) fn left (.some items) right).tokens ++ rest =
        fn.val :: left.val :: tk :: (more ++ right.val :: rest) := by
      simp [Primary.tokens, Arguments.tokens, heq]
    rw [heq, List.cons_append] at hr
    rw [ht, plain_readPrimary_func fn.property,
      plain_readCall_arguments fn.val left.property (by intro hc; simp [hc, isOperandStart] at hk),
      hr]
    simp [Primary.toExpr, Arguments.toArgs, Primary.tokens, Arguments.tokens, heq]

theorem readTerm_tokens {p : Place} : (t : Term p) → (seen rest : List Token) →
    Follows p rest →
    plain (readTerm ⟨seen, t.tokens ++ rest⟩) =
      plain (readTermTail t.toExpr ⟨t.tokens.reverse ++ seen, rest⟩)
  | .single operand, seen, rest, h => by
    rw [Term.tokens, plain_readTerm, readPrimary_tokens operand seen rest h, Term.toExpr]
  | .binary left op right, seen, rest, h => by
    -- With `left` in hand the loop finds the operator and takes `right` as its next operand.
    have hl := readTerm_tokens left seen (op.val :: right.tokens ++ rest)
      (follows_multiplicative op _)
    rw [List.cons_append] at hl
    rw [Term.tokens, List.append_assoc, List.cons_append, hl,
      plain_readTermTail_go _ (multiplicative?_val op), readPrimary_tokens right _ rest h,
      Term.toExpr, seen_binary]

theorem readExpression_tokens {p : Place} : (e : Expression p) → (seen rest : List Token) →
    Follows p rest → multiplicative? rest.head? = none →
    plain (readExpression ⟨seen, e.tokens ++ rest⟩) =
      plain (readExpressionTail e.toExpr ⟨e.tokens.reverse ++ seen, rest⟩)
  | .single term, seen, rest, h, hm => by
    rw [Expression.tokens, plain_readExpression, readTerm_tokens term seen rest h,
      plain_readTermTail_stop _ hm, Expression.toExpr]
  | .binary left op right, seen, rest, h, hm => by
    have hl := readExpression_tokens left seen (op.val :: right.tokens ++ rest)
      (follows_additive op _) (multiplicative?_of_additive op)
    rw [List.cons_append] at hl
    rw [Expression.tokens, List.append_assoc, List.cons_append, hl,
      plain_readExpressionTail_go _ (additive?_val op), readTerm_tokens right _ rest h,
      plain_readTermTail_stop _ hm, Expression.toExpr, seen_binary]

theorem readArguments_tokens (fn : Token) : (items : Items) → (seen rest : List Token) →
    (close : TokenOf .rightParen) →
    plain (readArguments fn ⟨seen, items.tokens ++ close.val :: rest⟩) =
      .ok (items.toArgs, ⟨close.val :: (items.tokens.reverse ++ seen), rest⟩)
  | .one arg, seen, rest, close => by
    have hf := follows_rightParen close rest
    have hr := readExpression_ends (readExpression_tokens arg seen (close.val :: rest) hf
      hf.multiplicative?_eq_none) hf
    rw [Items.tokens, plain_readArguments fn (head_ne_comma arg.startsOperand _), hr]
    simp [afterArgument, close.property, Items.toArgs]
  | .more arg comma items, seen, rest, close => by
    have hf := follows_comma comma (items.tokens ++ close.val :: rest)
    have hr := readExpression_ends (readExpression_tokens arg seen _ hf
      hf.multiplicative?_eq_none) hf
    have hi := readArguments_tokens fn items (comma.val :: (arg.tokens.reverse ++ seen)) rest close
    obtain ⟨tk, more, heq, hk⟩ := items.startsOperand
    have hp : tk.kind ≠ .rightParen := by
      intro hc
      simp [hc, isOperandStart] at hk
    rw [Items.tokens, List.append_assoc, List.cons_append,
      plain_readArguments fn (head_ne_comma arg.startsOperand _), hr]
    rw [heq, List.cons_append] at hi ⊢
    simp [afterArgument, comma.property, hp, hi, Items.toArgs]

end

/-- **Reading the tokens of an expression gives it back**, with the cursor right behind it. -/
theorem readExpression_last (e : Expression .last) (seen rest : List Token)
    (h : Follows .last rest) :
    plain (readExpression ⟨seen, e.tokens ++ rest⟩) =
      .ok (e.toExpr, ⟨e.tokens.reverse ++ seen, rest⟩) :=
  readExpression_ends (readExpression_tokens e seen rest h h.multiplicative?_eq_none) h

end Grammar
end ChartScript
