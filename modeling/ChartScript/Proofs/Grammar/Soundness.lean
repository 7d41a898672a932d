import ChartScript.Proofs.Grammar.Reading

/-!
# Only trees are read

The other direction: what a reader returns comes from a tree whose tokens it has passed, and a
reader that returns none leaves a tree with a fault in it (`hasFault`). Together with
`ChartScript.Proofs.Grammar.Reading` this makes the readers a decision of the grammar.

A part that is read may turn out to end in an assignment. That it is then the last part of its
expression is not checked anywhere: it follows from the assignment having taken all operators that
came, which is what `Ends` keeps track of.
-/

set_option autoImplicit false

namespace ChartScript

mutual

/-- Whether a tree breaks off somewhere. -/
def Expr.hasFault : Expr → Bool
  | .literal _ | .symbol _ => false
  | .assign _ rhs => rhs.hasFault
  | .binary _ left right => left.hasFault || right.hasFault
  | .call _ args => args.hasFault
  | .fault _ => true

/-- Whether a list of arguments breaks off somewhere. -/
def Args.hasFault : Args → Bool
  | .nil => false
  | .cons arg rest => arg.hasFault || rest.hasFault

end

namespace Grammar

open ChartScript.Expr

/-- Behind a last part no operator stands. -/
def Ends (p : Place) (rest : List Token) : Prop :=
  p = .last → ∀ tk ∈ rest.head?, isOperator tk.kind = false

/-- What comes of reading: a tree that breaks off, or what `good` says of tree and cursor. -/
def Outcome (good : Expr → Cursor → Prop) : Except Expr (Expr × Cursor) → Prop
  | .error cut => cut.hasFault = true
  | .ok (e, c) => good e c

def PrimaryRead (c : Cursor) (e : Expr) (c' : Cursor) : Prop :=
  ∃ (p : Place) (t : Primary p), t.toExpr = e ∧ c.ahead = t.tokens ++ c'.ahead ∧ Ends p c'.ahead

def TermRead (c : Cursor) (e : Expr) (c' : Cursor) : Prop :=
  ∃ (p : Place) (t : Term p), t.toExpr = e ∧ c.ahead = t.tokens ++ c'.ahead ∧ Ends p c'.ahead ∧
    multiplicative? c'.ahead.head? = none

/-- A whole expression is at its end: no operator follows. -/
def ExpressionRead (c : Cursor) (e : Expr) (c' : Cursor) : Prop :=
  ∃ t : Expression .last, t.toExpr = e ∧ c.ahead = t.tokens ++ c'.ahead ∧ Ends .last c'.ahead

def ArgumentsRead (c : Cursor) : Except Args (Args × Cursor) → Prop
  | .error cut => cut.hasFault = true
  | .ok (args, c') => ∃ (items : Items) (close : TokenOf .rightParen),
      items.toArgs = args ∧ c.ahead = items.tokens ++ close.val :: c'.ahead

/-! ## Signs ahead -/

theorem ends_of_none {p : Place} {rest : List Token} (ha : additive? rest.head? = none)
    (hm : multiplicative? rest.head? = none) : Ends p rest := by
  intro _ tk htk
  rw [Option.mem_def] at htk
  rw [htk] at ha hm
  cases hk : tk.kind with
  | plus | minus => simp [additive?, hk] at ha
  | times | divide => simp [multiplicative?, hk] at hm
  | _ => rfl

theorem exists_additive {tokens : List Token} {op : Operator}
    (h : additive? tokens.head? = some op) :
    ∃ (sign : AdditiveToken) (rest : List Token), tokens = sign.val :: rest ∧
      additiveOperator sign = op := by
  cases tokens with
  | nil => cases h
  | cons tk rest =>
    have hk : tk.kind = .plus ∨ tk.kind = .minus := by
      cases hk : tk.kind <;> simp [additive?, hk] at h ⊢
    exact ⟨⟨tk, hk⟩, rest, rfl, Option.some.inj ((additive?_val ⟨tk, hk⟩).symm.trans h)⟩

theorem exists_multiplicative {tokens : List Token} {op : Operator}
    (h : multiplicative? tokens.head? = some op) :
    ∃ (sign : MultiplicativeToken) (rest : List Token), tokens = sign.val :: rest ∧
      multiplicativeOperator sign = op := by
  cases tokens with
  | nil => cases h
  | cons tk rest =>
    have hk : tk.kind = .times ∨ tk.kind = .divide := by
      cases hk : tk.kind <;> simp [multiplicative?, hk] at h ⊢
    exact ⟨⟨tk, hk⟩, rest, rfl, Option.some.inj ((multiplicative?_val ⟨tk, hk⟩).symm.trans h)⟩

/-- A part with an operator behind it is an inner one. -/
theorem Ends.inner_of_operator {p : Place} {tk : Token} {rest : List Token}
    (h : Ends p (tk :: rest)) (ho : isOperator tk.kind = true) : p = .inner := by
  cases p with
  | inner => rfl
  | last =>
    have hn := h rfl tk rfl
    rw [ho] at hn
    cases hn

theorem additive_isOperator (sign : AdditiveToken) : isOperator sign.val.kind = true := by
  rcases sign.property with h | h <;> rw [h] <;> rfl

theorem multiplicative_isOperator (sign : MultiplicativeToken) :
    isOperator sign.val.kind = true := by
  rcases sign.property with h | h <;> rw [h] <;> rfl

/-! ## Each reader -/

theorem Outcome.imp {good good' : Expr → Cursor → Prop} {r : Except Expr (Expr × Cursor)}
    (h : Outcome good r) (hi : ∀ e c, good e c → good' e c) : Outcome good' r := by
  cases r with
  | error cut => exact h
  | ok p => exact hi p.1 p.2 h

theorem Outcome.cases {good : Expr → Cursor → Prop} {r : Except Expr (Expr × Cursor)}
    (h : Outcome good r) :
    (∃ cut, r = .error cut ∧ cut.hasFault = true) ∨ ∃ e c, r = .ok (e, c) ∧ good e c := by
  cases r with
  | error cut => exact .inl ⟨cut, rfl, h⟩
  | ok p => exact .inr ⟨p.1, p.2, rfl, h⟩

theorem ArgumentsRead.cases {c : Cursor} {r : Except Args (Args × Cursor)}
    (h : ArgumentsRead c r) :
    (∃ cut, r = .error cut ∧ cut.hasFault = true) ∨
      ∃ (items : Items) (close : TokenOf .rightParen) (c' : Cursor),
        r = .ok (items.toArgs, c') ∧ c.ahead = items.tokens ++ close.val :: c'.ahead := by
  cases r with
  | error cut => exact .inl ⟨cut, rfl, h⟩
  | ok p =>
    obtain ⟨args, c'⟩ := p
    obtain ⟨items, close, rfl, heq⟩ := h
    exact .inr ⟨items, close, c', rfl, heq⟩

theorem remaining_lt {c c' : Cursor} {tokens : List Token} (h : c.ahead = tokens ++ c'.ahead)
    (hn : tokens ≠ []) : c'.ahead.length < c.ahead.length := by
  have hp := List.length_pos_iff.mpr hn
  rw [h, List.length_append]
  omega

theorem cursor_eq {c : Cursor} {tokens : List Token} (h : c.ahead = tokens) :
    c = ⟨c.seen, tokens⟩ := by
  rw [← h]

theorem exists_head {tokens : List Token} {k : Kind}
    (h : tokens.head?.map Token.kind = some k) :
    ∃ tk rest, tokens = tk :: rest ∧ tk.kind = k := by
  cases tokens with
  | nil => cases h
  | cons tk rest => exact ⟨tk, rest, rfl, Option.some.inj h⟩

/-- Behind an argument the list is closed, or it goes on with arguments that are read as they are
from any cursor further on. -/
theorem afterArgument_sound (fn : Token) {arg : Expression .last} {c c1 : Cursor}
    (heq : c.ahead = arg.tokens ++ c1.ahead)
    (ih : ∀ c', c'.ahead.length < c1.ahead.length →
      ArgumentsRead c' (plain (readArguments fn c'))) :
    ArgumentsRead c (afterArgument fn arg.toExpr c1) := by
  obtain ⟨seen, ahead⟩ := c1
  cases ahead with
  | nil => simp [afterArgument, ArgumentsRead, Args.hasFault, cutAt, hasFault]
  | cons sep rest =>
    by_cases hclose : sep.kind = .rightParen
    · simp only [afterArgument, if_pos hclose]
      exact ⟨.one arg, ⟨sep, hclose⟩, by simp [Items.toArgs], by simp [Items.tokens, heq]⟩
    · by_cases hsep : sep.kind = .comma
      · cases rest with
        | nil => simp [afterArgument, hsep, ArgumentsRead, Args.hasFault, cutAt, hasFault]
        | cons tk more =>
          by_cases hk : tk.kind = .rightParen
          · simp [afterArgument, hsep, hk, ArgumentsRead, Args.hasFault, cutAt, hasFault]
          · simp only [afterArgument, if_neg hclose, if_pos hsep, if_neg hk]
            rcases (ih ⟨sep :: seen, tk :: more⟩ (Nat.lt_succ_self _)).cases with
              ⟨cut, hr, hf⟩ | ⟨items, close, c2, hr, hmore⟩
            · simp [hr, ArgumentsRead, Args.hasFault, hf]
            · rw [hr]
              refine ⟨.more arg ⟨sep, hsep⟩ items, close, by simp [Items.toArgs], ?_⟩
              simp [Items.tokens, heq, show tk :: more = _ from hmore]
      · simp [afterArgument, hclose, hsep, ArgumentsRead, Args.hasFault, cutAt, hasFault]

-- Each reader is shown sound for the tokens it has ahead. The second number orders the readers that
-- call each other without taking a token.
mutual

theorem readExpression_sound (c : Cursor) :
    Outcome (ExpressionRead c) (plain (readExpression c)) := by
  rw [plain_readExpression]
  rcases (readTerm_sound c).cases with ⟨cut, hr, hf⟩ | ⟨_, c1, hr, p, t, rfl, heq, he, hm⟩
  · rw [hr]
    exact hf
  · rw [hr]
    have hlt := remaining_lt heq t.startsOperand.ne_nil
    have htail := readExpressionTail_sound (.single t) c1 he hm
    refine htail.imp fun e' c' h => ?_
    obtain ⟨t', rfl, heq', he'⟩ := h
    refine ⟨t', rfl, ?_, he'⟩
    rw [heq, ← heq', Expression.tokens]
termination_by (c.ahead.length, 3)

theorem readExpressionTail_sound {p : Place} (left : Expression p) (c : Cursor)
    (he : Ends p c.ahead) (hm : multiplicative? c.ahead.head? = none) :
    Outcome (fun e c' => ∃ t : Expression .last, t.toExpr = e ∧
      left.tokens ++ c.ahead = t.tokens ++ c'.ahead ∧ Ends .last c'.ahead)
      (plain (readExpressionTail left.toExpr c)) := by
  cases ha : additive? c.ahead.head? with
  | none =>
    rw [plain_readExpressionTail_stop _ ha]
    exact ⟨left.toLast, by simp, by simp, ends_of_none ha hm⟩
  | some op =>
    obtain ⟨sign, rest, hc, rfl⟩ := exists_additive ha
    rw [hc] at he
    obtain rfl := he.inner_of_operator (additive_isOperator sign)
    have hlt : rest.length < c.ahead.length := by simp [hc]
    rw [cursor_eq hc, plain_readExpressionTail_go _ (additive?_val sign)]
    rcases (readTerm_sound ⟨sign.val :: c.seen, rest⟩).cases with
      ⟨cut, hr, hf⟩ | ⟨_, c1, hr, p', t, rfl, heq, he1, hm1⟩
    · simp [hr, Outcome, hasFault, hf]
    · rw [hr]
      have hlt1 := Nat.lt_trans (remaining_lt heq t.startsOperand.ne_nil) hlt
      have htail := readExpressionTail_sound (.binary left sign t) c1 he1 hm1
      refine htail.imp fun e' c' h => ?_
      obtain ⟨t', rfl, heq', he'⟩ := h
      refine ⟨t', rfl, ?_, he'⟩
      rw [← heq', Expression.tokens]
      simp [show rest = t.tokens ++ c1.ahead from heq]
termination_by (c.ahead.length, 0)

theorem readTerm_sound (c : Cursor) : Outcome (TermRead c) (plain (readTerm c)) := by
  rw [plain_readTerm]
  rcases (readPrimary_sound c).cases with ⟨cut, hr, hf⟩ | ⟨_, c1, hr, p, t, rfl, heq, he⟩
  · rw [hr]
    exact hf
  · rw [hr]
    have hlt := remaining_lt heq t.startsOperand.ne_nil
    have htail := readTermTail_sound (.single t) c1 he
    refine htail.imp fun e' c' h => ?_
    obtain ⟨p', t', rfl, heq', he', hm'⟩ := h
    refine ⟨p', t', rfl, ?_, he', hm'⟩
    rw [heq, ← heq', Term.tokens]
termination_by (c.ahead.length, 2)

theorem readTermTail_sound {p : Place} (left : Term p) (c : Cursor) (he : Ends p c.ahead) :
    Outcome (fun e c' => ∃ (p' : Place) (t : Term p'), t.toExpr = e ∧
      left.tokens ++ c.ahead = t.tokens ++ c'.ahead ∧ Ends p' c'.ahead ∧
      multiplicative? c'.ahead.head? = none)
      (plain (readTermTail left.toExpr c)) := by
  cases hm : multiplicative? c.ahead.head? with
  | none =>
    rw [plain_readTermTail_stop _ hm]
    exact ⟨p, left, rfl, rfl, he, hm⟩
  | some op =>
    obtain ⟨sign, rest, hc, rfl⟩ := exists_multiplicative hm
    rw [hc] at he
    obtain rfl := he.inner_of_operator (multiplicative_isOperator sign)
    have hlt : rest.length < c.ahead.length := by simp [hc]
    rw [cursor_eq hc, plain_readTermTail_go _ (multiplicative?_val sign)]
    rcases (readPrimary_sound ⟨sign.val :: c.seen, rest⟩).cases with
      ⟨cut, hr, hf⟩ | ⟨_, c1, hr, p', t, rfl, heq, he1⟩
    · simp [hr, Outcome, hasFault, hf]
    · rw [hr]
      have hlt1 := Nat.lt_trans (remaining_lt heq t.startsOperand.ne_nil) hlt
      have htail := readTermTail_sound (.binary left sign t) c1 he1
      refine htail.imp fun e' c' h => ?_
      obtain ⟨p'', t', rfl, heq', he', hm'⟩ := h
      refine ⟨p'', t', rfl, ?_, he', hm'⟩
      rw [← heq', Term.tokens]
      simp [show rest = t.tokens ++ c1.ahead from heq]
termination_by (c.ahead.length, 0)

theorem readPrimary_sound (c : Cursor) : Outcome (PrimaryRead c) (plain (readPrimary c)) := by
  cases hc : c.ahead with
  | nil => rw [cursor_eq hc, plain_readPrimary_nil]; rfl
  | cons tk rest =>
    have hlt : rest.length < c.ahead.length := by simp [hc]
    rw [cursor_eq hc]
    cases hk : tk.kind with
    | int | real | string =>
      have hl : tk.kind.isLiteral = true := by rw [hk]; rfl
      rw [plain_readPrimary_literal hl]
      exact ⟨.inner, .literal ⟨tk, hl⟩, by simp [Primary.toExpr], by simp [Primary.tokens], nofun⟩
    | symbol =>
      by_cases ha : rest.head?.map Token.kind = some .assign
      · obtain ⟨sign, more, hrest, hs⟩ := exists_head ha
        have hlt1 : more.length < c.ahead.length := by
          simp only [hc, hrest, List.length_cons]
          omega
        rw [hrest, plain_readPrimary_assign hk hs]
        rcases (readExpression_sound ⟨sign :: tk :: c.seen, more⟩).cases with
          ⟨cut, hr, hf⟩ | ⟨_, c1, hr, rhs, rfl, heq, he⟩
        · simp [hr, Outcome, hasFault, hf]
        · rw [hr]
          refine ⟨.last, .assign ⟨tk, hk⟩ ⟨sign, hs⟩ rhs, by simp [Primary.toExpr], ?_, he⟩
          simp [Primary.tokens, show more = rhs.tokens ++ c1.ahead from heq]
      · rw [plain_readPrimary_symbol hk c.seen rest ha]
        exact ⟨.inner, .symbol ⟨tk, hk⟩, by simp [Primary.toExpr], by simp [Primary.tokens], nofun⟩
    | func =>
      rw [plain_readPrimary_func hk]
      refine (readCall_sound ⟨tk, hk⟩ ⟨tk :: c.seen, rest⟩).imp fun e c' h => ?_
      obtain ⟨left, args, right, rfl, heq⟩ := h
      refine ⟨.inner, .call ⟨tk, hk⟩ left args right, by simp [Primary.toExpr], ?_, nofun⟩
      simp [Primary.tokens, show rest = _ from heq]
    | _ =>
      rw [plain_readPrimary_other (by rw [hk]; rfl)]
      rfl
termination_by (c.ahead.length, 1)

theorem readCall_sound (fn : TokenOf .func) (c : Cursor) :
    Outcome (fun e c' => ∃ (left : TokenOf .leftParen) (args : Arguments)
      (right : TokenOf .rightParen), .call fn.val args.toArgs = e ∧
      c.ahead = left.val :: (args.tokens ++ right.val :: c'.ahead))
      (plain (readCall fn.val c)) := by
  cases hc : c.ahead with
  | nil => rw [cursor_eq hc, plain_readCall_nil]; rfl
  | cons paren rest =>
    have hlt : rest.length < c.ahead.length := by simp [hc]
    rw [cursor_eq hc]
    by_cases hp : paren.kind = .leftParen
    · cases hrest : rest with
      | nil => rw [plain_readCall_open _ hp]; rfl
      | cons tk more =>
        by_cases hclose : tk.kind = .rightParen
        · rw [plain_readCall_empty _ hp hclose]
          exact ⟨⟨paren, hp⟩, .none, ⟨tk, hclose⟩, by simp [Arguments.toArgs],
            by simp [Arguments.tokens]⟩
        · rw [hrest] at hlt
          rw [plain_readCall_arguments _ hp hclose]
          rcases (readArguments_sound fn.val ⟨paren :: c.seen, tk :: more⟩).cases with
            ⟨cut, hr, hf⟩ | ⟨items, close, c1, hr, heq⟩
          · simp [hr, Outcome, hasFault, hf]
          · rw [hr]
            refine ⟨⟨paren, hp⟩, .some items, close, by simp [Arguments.toArgs], ?_⟩
            simp [Arguments.tokens, show tk :: more = _ from heq]
    · rw [plain_readCall_noParen _ hp]
      rfl
termination_by (c.ahead.length, 0)

theorem readArguments_sound (fn : Token) (c : Cursor) :
    ArgumentsRead c (plain (readArguments fn c)) := by
  by_cases hcomma : c.ahead.head?.map Token.kind = some .comma
  · obtain ⟨tk, more, hc, hk⟩ := exists_head hcomma
    rw [cursor_eq hc, plain_readArguments_comma fn hk]
    rfl
  · rw [plain_readArguments fn hcomma]
    rcases (readExpression_sound c).cases with ⟨cut, hr, hf⟩ | ⟨_, c1, hr, arg, rfl, heq, -⟩
    · simp [hr, ArgumentsRead, Args.hasFault, hf]
    · rw [hr]
      have hlt := remaining_lt heq arg.startsOperand.ne_nil
      refine afterArgument_sound fn heq fun c' hc' => ?_
      have hlt1 := Nat.lt_trans hc' hlt
      exact readArguments_sound fn c'
termination_by (c.ahead.length, 4)

end

end Grammar
end ChartScript
