import ChartScript.Proofs.Grammar.Evaluation
import ChartScript.Proofs.Token.Lines

/-!
# Trees of agreeing tokens

Tokens that agree, place by place, with those of a tree are those of a tree of the same form. What
evaluation sees of the two trees is the same: names, values and operators (`Expr.Agrees`).
-/

set_option autoImplicit false

namespace ChartScript

mutual

/-- Two trees without a fault that differ in the places of their tokens only. -/
inductive Expr.Agrees : Expr → Expr → Prop where
  | literal (v : Value) : Expr.Agrees (.literal v) (.literal v)
  | symbol {tk tk' : Token} (name : tk.lexeme = tk'.lexeme) :
      Expr.Agrees (.symbol tk) (.symbol tk')
  | assign {tk tk' : Token} {rhs rhs' : Expr} (name : tk.lexeme = tk'.lexeme)
      (value : Expr.Agrees rhs rhs') : Expr.Agrees (.assign tk rhs) (.assign tk' rhs')
  | binary (op : Operator) {left left' right right' : Expr} (first : Expr.Agrees left left')
      (second : Expr.Agrees right right') :
      Expr.Agrees (.binary op left right) (.binary op left' right')
  | call {fn fn' : Token} {args args' : Args} (name : fn.lexeme = fn'.lexeme)
      (values : Args.Agrees args args') : Expr.Agrees (.call fn args) (.call fn' args')

inductive Args.Agrees : Args → Args → Prop where
  | nil : Args.Agrees .nil .nil
  | cons {arg arg' : Expr} {rest rest' : Args} (first : Expr.Agrees arg arg')
      (others : Args.Agrees rest rest') : Args.Agrees (.cons arg rest) (.cons arg' rest')

end

/-- What agrees with two lists one behind the other is two such lists. -/
theorem agrees_append {a b tokens : List Token} (h : List.Forall₂ Token.Agrees (a ++ b) tokens) :
    ∃ a' b', tokens = a' ++ b' ∧ List.Forall₂ Token.Agrees a a' ∧
      List.Forall₂ Token.Agrees b b' := by
  induction a generalizing tokens with
  | nil => exact ⟨[], tokens, rfl, .nil, h⟩
  | cons tk a ih =>
    cases h with
    | @cons _ tk' _ rest htk hrest =>
      obtain ⟨a', b', rfl, ha, hb⟩ := ih hrest
      exact ⟨tk' :: a', b', rfl, .cons htk ha, hb⟩

theorem agrees_singleton {tk : Token} {tokens : List Token}
    (h : List.Forall₂ Token.Agrees [tk] tokens) : ∃ tk', tokens = [tk'] ∧ tk.Agrees tk' := by
  cases h with
  | @cons _ tk' _ _ htk hrest =>
    cases hrest
    exact ⟨tk', rfl, htk⟩

namespace Grammar

/-- A token that agrees with one of a kind is of that kind. -/
def TokenOf.copy {k : Kind} (tk : TokenOf k) {tk' : Token} (h : tk.val.Agrees tk') : TokenOf k :=
  ⟨tk', h.kind ▸ tk.property⟩

def LiteralToken.copy (tk : LiteralToken) {tk' : Token} (h : tk.val.Agrees tk') : LiteralToken :=
  ⟨tk', h.kind ▸ tk.property⟩

def AdditiveToken.copy (tk : AdditiveToken) {tk' : Token} (h : tk.val.Agrees tk') :
    AdditiveToken :=
  ⟨tk', h.kind ▸ tk.property⟩

def MultiplicativeToken.copy (tk : MultiplicativeToken) {tk' : Token} (h : tk.val.Agrees tk') :
    MultiplicativeToken :=
  ⟨tk', h.kind ▸ tk.property⟩

theorem lexeme_symbol (tk : TokenOf .symbol) {tk' : Token} (h : tk.val.Agrees tk') :
    tk.val.lexeme = tk'.lexeme :=
  h.lexeme (.inr (.inr (.inl tk.property)))

theorem lexeme_func (tk : TokenOf .func) {tk' : Token} (h : tk.val.Agrees tk') :
    tk.val.lexeme = tk'.lexeme :=
  h.lexeme (.inr (.inr (.inr tk.property)))

mutual

theorem Primary.exists_agreeing {p : Place} : (t : Primary p) → (tokens : List Token) →
    List.Forall₂ Token.Agrees t.tokens tokens →
    ∃ t' : Primary p, t'.tokens = tokens ∧ t.toExpr.Agrees t'.toExpr
  | .literal tk, tokens, h => by
    rw [Primary.tokens] at h
    obtain ⟨tk', rfl, htk⟩ := agrees_singleton h
    refine ⟨.literal (tk.copy htk), by rw [Primary.tokens]; rfl, ?_⟩
    rw [Primary.toExpr, Primary.toExpr, htk.value tk.property]
    exact .literal tk'.value
  | .symbol tk, tokens, h => by
    rw [Primary.tokens] at h
    obtain ⟨tk', rfl, htk⟩ := agrees_singleton h
    refine ⟨.symbol (tk.copy htk), by rw [Primary.tokens]; rfl, ?_⟩
    rw [Primary.toExpr, Primary.toExpr]
    exact .symbol (lexeme_symbol tk htk)
  | .assign tk sign rhs, tokens, h => by
    rw [Primary.tokens] at h
    cases h with
    | @cons _ tk' _ _ htk h =>
      cases h with
      | @cons _ sign' _ rest hsign hrest =>
        obtain ⟨rhs', rfl, hrhs⟩ := rhs.exists_agreeing rest hrest
        refine ⟨.assign (tk.copy htk) (sign.copy hsign) rhs', by rw [Primary.tokens]; rfl, ?_⟩
        rw [Primary.toExpr, Primary.toExpr]
        exact .assign (lexeme_symbol tk htk) hrhs
  | .call fn left args right, tokens, h => by
    rw [Primary.tokens] at h
    cases h with
    | @cons _ fn' _ _ hfn h =>
      cases h with
      | @cons _ left' _ rest hleft hrest =>
        obtain ⟨inside, close, rfl, hinside, hclose⟩ := agrees_append hrest
        obtain ⟨right', rfl, hright⟩ := agrees_singleton hclose
        obtain ⟨args', rfl, hargs⟩ := args.exists_agreeing inside hinside
        refine ⟨.call (fn.copy hfn) (left.copy hleft) args' (right.copy hright),
          by rw [Primary.tokens]; rfl, ?_⟩
        rw [Primary.toExpr, Primary.toExpr]
        exact .call (lexeme_func fn hfn) hargs

theorem Term.exists_agreeing {p : Place} : (t : Term p) → (tokens : List Token) →
    List.Forall₂ Token.Agrees t.tokens tokens →
    ∃ t' : Term p, t'.tokens = tokens ∧ t.toExpr.Agrees t'.toExpr
  | .single operand, tokens, h => by
    rw [Term.tokens] at h
    obtain ⟨operand', rfl, hoperand⟩ := operand.exists_agreeing tokens h
    refine ⟨.single operand', by rw [Term.tokens], ?_⟩
    rwa [Term.toExpr, Term.toExpr]
  | .binary left op right, tokens, h => by
    rw [Term.tokens] at h
    obtain ⟨first, rest, rfl, hfirst, hrest⟩ := agrees_append h
    cases hrest with
    | @cons _ op' _ second hop hsecond =>
      obtain ⟨left', rfl, hleft⟩ := left.exists_agreeing first hfirst
      obtain ⟨right', rfl, hright⟩ := right.exists_agreeing second hsecond
      refine ⟨.binary left' (op.copy hop) right', by rw [Term.tokens]; rfl, ?_⟩
      have hsame : multiplicativeOperator (op.copy hop) = multiplicativeOperator op := by
        rw [multiplicativeOperator, multiplicativeOperator, hop.kind]
        rfl
      rw [Term.toExpr, Term.toExpr, hsame]
      exact .binary _ hleft hright

theorem Expression.exists_agreeing {p : Place} : (e : Expression p) → (tokens : List Token) →
    List.Forall₂ Token.Agrees e.tokens tokens →
    ∃ e' : Expression p, e'.tokens = tokens ∧ e.toExpr.Agrees e'.toExpr
  | .single term, tokens, h => by
    rw [Expression.tokens] at h
    obtain ⟨term', rfl, hterm⟩ := term.exists_agreeing tokens h
    refine ⟨.single term', by rw [Expression.tokens], ?_⟩
    rwa [Expression.toExpr, Expression.toExpr]
  | .binary left op right, tokens, h => by
    rw [Expression.tokens] at h
    obtain ⟨first, rest, rfl, hfirst, hrest⟩ := agrees_append h
    cases hrest with
    | @cons _ op' _ second hop hsecond =>
      obtain ⟨left', rfl, hleft⟩ := left.exists_agreeing first hfirst
      obtain ⟨right', rfl, hright⟩ := right.exists_agreeing second hsecond
      refine ⟨.binary left' (op.copy hop) right', by rw [Expression.tokens]; rfl, ?_⟩
      have hsame : additiveOperator (op.copy hop) = additiveOperator op := by
        rw [additiveOperator, additiveOperator, hop.kind]
        rfl
      rw [Expression.toExpr, Expression.toExpr, hsame]
      exact .binary _ hleft hright

theorem Arguments.exists_agreeing : (args : Arguments) → (tokens : List Token) →
    List.Forall₂ Token.Agrees args.tokens tokens →
    ∃ args' : Arguments, args'.tokens = tokens ∧ args.toArgs.Agrees args'.toArgs
  | .none, tokens, h => by
    rw [Arguments.tokens] at h
    cases h
    refine ⟨.none, by rw [Arguments.tokens], ?_⟩
    rw [Arguments.toArgs]
    exact .nil
  | .some items, tokens, h => by
    rw [Arguments.tokens] at h
    obtain ⟨items', rfl, hitems⟩ := items.exists_agreeing tokens h
    refine ⟨.some items', by rw [Arguments.tokens], ?_⟩
    rwa [Arguments.toArgs, Arguments.toArgs]

theorem Items.exists_agreeing : (items : Items) → (tokens : List Token) →
    List.Forall₂ Token.Agrees items.tokens tokens →
    ∃ items' : Items, items'.tokens = tokens ∧ items.toArgs.Agrees items'.toArgs
  | .one arg, tokens, h => by
    rw [Items.tokens] at h
    obtain ⟨arg', rfl, harg⟩ := arg.exists_agreeing tokens h
    refine ⟨.one arg', by rw [Items.tokens], ?_⟩
    rw [Items.toArgs, Items.toArgs]
    exact .cons harg .nil
  | .more arg comma more, tokens, h => by
    rw [Items.tokens] at h
    obtain ⟨first, rest, rfl, hfirst, hrest⟩ := agrees_append h
    cases hrest with
    | @cons _ comma' _ others hcomma hothers =>
      obtain ⟨arg', rfl, harg⟩ := arg.exists_agreeing first hfirst
      obtain ⟨more', rfl, hmore⟩ := more.exists_agreeing others hothers
      refine ⟨.more arg' (comma.copy hcomma) more', by rw [Items.tokens]; rfl, ?_⟩
      rw [Items.toArgs, Items.toArgs]
      exact .cons harg hmore

end

/-- Tokens that agree with those of a tree are parsed to an agreeing one. -/
theorem parse_agrees (t : Expression .last) {tokens : List Token}
    (h : List.Forall₂ Token.Agrees t.tokens tokens) :
    ∃ e, Statement.parse tokens = ⟨e, none⟩ ∧ t.toExpr.Agrees e := by
  obtain ⟨t', rfl, hagrees⟩ := t.exists_agreeing tokens h
  exact ⟨t'.toExpr, parse_tokens t', hagrees⟩

end Grammar
end ChartScript
