import ChartScript.Eval.Expr

/-!
# Syntax trees

The grammar of statements as a family of types, one for each of its rules:

    expression := term (('+'|'-') term)*
    term       := primary (('*'|'/') primary)*
    primary    := literal | symbol | symbol '=' expression
                | func '(' [expression (',' expression)*] ')'

A tree keeps every token it stands for, so `tokens` writes it back as it was read. Repetition is
to the left (`left op right`), which is how the operators associate.

Read without care, the rule for assignments makes the grammar ambiguous: `a = 1 + 2` could be
`(a = 1) + 2`. What rules that out is a matter of *place*: an assignment takes everything to its
right, so it can only be the last operand of the last term of its expression. `Place` is an index of
the types, and a tree that breaks the rule cannot be built.
-/

set_option autoImplicit false

namespace ChartScript
namespace Grammar

/-- A token of one kind. -/
abbrev TokenOf (k : Kind) : Type := { tk : Token // tk.kind = k }

/-- A token that carries its value. -/
abbrev LiteralToken : Type := { tk : Token // tk.kind.isLiteral = true }

/-- A sign between two terms. -/
abbrev AdditiveToken : Type := { tk : Token // tk.kind = .plus ∨ tk.kind = .minus }

/-- A sign between two operands of a term. -/
abbrev MultiplicativeToken : Type := { tk : Token // tk.kind = .times ∨ tk.kind = .divide }

/-- The operator of a sign between two terms. -/
def additiveOperator (tk : AdditiveToken) : Operator :=
  if tk.val.kind = .plus then .add else .sub

/-- The operator of a sign between two operands of a term. -/
def multiplicativeOperator (tk : MultiplicativeToken) : Operator :=
  if tk.val.kind = .times then .mul else .div

/-- Where a part of an expression stands: before a further operator, or at the end. -/
inductive Place where
  | inner
  | last
  deriving DecidableEq

mutual

/-- An operand. Only at the end of its expression can it be an assignment. -/
inductive Primary : Place → Type where
  | literal {p : Place} (tk : LiteralToken) : Primary p
  | symbol {p : Place} (tk : TokenOf .symbol) : Primary p
  | assign (tk : TokenOf .symbol) (sign : TokenOf .assign) (rhs : Expression .last) : Primary .last
  | call {p : Place} (fn : TokenOf .func) (left : TokenOf .leftParen) (args : Arguments)
      (right : TokenOf .rightParen) : Primary p

/-- Operands with `*` and `/` between them. -/
inductive Term : Place → Type where
  | single {p : Place} (operand : Primary p) : Term p
  | binary {p : Place} (left : Term .inner) (op : MultiplicativeToken) (right : Primary p) : Term p

/-- Terms with `+` and `-` between them. -/
inductive Expression : Place → Type where
  | single {p : Place} (term : Term p) : Expression p
  | binary {p : Place} (left : Expression .inner) (op : AdditiveToken) (right : Term p) :
      Expression p

/-- What stands between the parentheses of a call. -/
inductive Arguments : Type where
  | none
  | some (items : Items)

/-- Expressions with commas between them. -/
inductive Items : Type where
  | one (arg : Expression .last)
  | more (arg : Expression .last) (comma : TokenOf .comma) (rest : Items)

end

/-! ## Writing a tree back -/

mutual

def Primary.tokens {p : Place} : Primary p → List Token
  | .literal tk => [tk.val]
  | .symbol tk => [tk.val]
  | .assign tk sign rhs => tk.val :: sign.val :: rhs.tokens
  | .call fn left args right => fn.val :: left.val :: (args.tokens ++ [right.val])

def Term.tokens {p : Place} : Term p → List Token
  | .single operand => operand.tokens
  | .binary left op right => left.tokens ++ op.val :: right.tokens

def Expression.tokens {p : Place} : Expression p → List Token
  | .single term => term.tokens
  | .binary left op right => left.tokens ++ op.val :: right.tokens

def Arguments.tokens : Arguments → List Token
  | .none => []
  | .some items => items.tokens

def Items.tokens : Items → List Token
  | .one arg => arg.tokens
  | .more arg comma rest => arg.tokens ++ comma.val :: rest.tokens

end

/-! ## What a tree means to the evaluator

`toExpr` forgets the tokens that only hold a tree together (signs, parentheses, commas). -/

mutual

def Primary.toExpr {p : Place} : Primary p → Expr
  | .literal tk => .literal tk.val.value
  | .symbol tk => .symbol tk.val
  | .assign tk _ rhs => .assign tk.val rhs.toExpr
  | .call fn _ args _ => .call fn.val args.toArgs

def Term.toExpr {p : Place} : Term p → Expr
  | .single operand => operand.toExpr
  | .binary left op right => .binary (multiplicativeOperator op) left.toExpr right.toExpr

def Expression.toExpr {p : Place} : Expression p → Expr
  | .single term => term.toExpr
  | .binary left op right => .binary (additiveOperator op) left.toExpr right.toExpr

def Arguments.toArgs : Arguments → Args
  | .none => .nil
  | .some items => items.toArgs

def Items.toArgs : Items → Args
  | .one arg => .cons arg.toExpr .nil
  | .more arg _ rest => .cons arg.toExpr rest.toArgs

end

/-! ## Moving a part to the end

What can stand before an operator can stand at the end as well. -/

def Primary.toLast {p : Place} : Primary p → Primary .last
  | .literal tk => .literal tk
  | .symbol tk => .symbol tk
  | .assign tk sign rhs => .assign tk sign rhs
  | .call fn left args right => .call fn left args right

def Term.toLast {p : Place} : Term p → Term .last
  | .single operand => .single operand.toLast
  | .binary left op right => .binary left op right.toLast

def Expression.toLast {p : Place} : Expression p → Expression .last
  | .single term => .single term.toLast
  | .binary left op right => .binary left op right.toLast

@[simp] theorem Primary.tokens_toLast {p : Place} (t : Primary p) : t.toLast.tokens = t.tokens := by
  cases t <;> simp [Primary.toLast, Primary.tokens]

@[simp] theorem Primary.toExpr_toLast {p : Place} (t : Primary p) : t.toLast.toExpr = t.toExpr := by
  cases t <;> simp [Primary.toLast, Primary.toExpr]

@[simp] theorem Term.tokens_toLast {p : Place} (t : Term p) : t.toLast.tokens = t.tokens := by
  cases t <;> simp [Term.toLast, Term.tokens]

@[simp] theorem Term.toExpr_toLast {p : Place} (t : Term p) : t.toLast.toExpr = t.toExpr := by
  cases t <;> simp [Term.toLast, Term.toExpr]

@[simp] theorem Expression.tokens_toLast {p : Place} (e : Expression p) :
    e.toLast.tokens = e.tokens := by
  cases e <;> simp [Expression.toLast, Expression.tokens]

@[simp] theorem Expression.toExpr_toLast {p : Place} (e : Expression p) :
    e.toLast.toExpr = e.toExpr := by
  cases e <;> simp [Expression.toLast, Expression.toExpr]

/-! ## The first token

An expression begins with a token that can begin an operand: in particular with no sign that
separates or closes arguments. -/

/-- Kinds of tokens that begin an operand. -/
def isOperandStart : Kind → Bool
  | .int | .real | .string | .symbol | .func => true
  | _ => false

/-- The first token begins an operand. -/
def StartsOperand (tokens : List Token) : Prop :=
  ∃ tk rest, tokens = tk :: rest ∧ isOperandStart tk.kind = true

theorem StartsOperand.append {a : List Token} (h : StartsOperand a) (b : List Token) :
    StartsOperand (a ++ b) := by
  obtain ⟨tk, rest, rfl, hk⟩ := h
  exact ⟨tk, rest ++ b, rfl, hk⟩

theorem Primary.startsOperand {p : Place} (t : Primary p) : StartsOperand t.tokens := by
  cases t with
  | literal tk =>
    refine ⟨tk.val, [], by simp [Primary.tokens], ?_⟩
    have hk := tk.property
    revert hk
    cases tk.val.kind <;> simp [Kind.isLiteral, isOperandStart]
  | symbol tk => exact ⟨tk.val, [], by simp [Primary.tokens], by rw [tk.property]; rfl⟩
  | assign tk sign rhs =>
    exact ⟨tk.val, sign.val :: rhs.tokens, by simp [Primary.tokens], by rw [tk.property]; rfl⟩
  | call fn left args right =>
    exact ⟨fn.val, left.val :: (args.tokens ++ [right.val]), by simp [Primary.tokens],
      by rw [fn.property]; rfl⟩

theorem Term.startsOperand {p : Place} : (t : Term p) → StartsOperand t.tokens
  | .single operand => by simpa [Term.tokens] using operand.startsOperand
  | .binary left op right => by simpa [Term.tokens] using left.startsOperand.append _

theorem Expression.startsOperand {p : Place} : (e : Expression p) → StartsOperand e.tokens
  | .single term => by simpa [Expression.tokens] using term.startsOperand
  | .binary left op right => by simpa [Expression.tokens] using left.startsOperand.append _

theorem Items.startsOperand (items : Items) : StartsOperand items.tokens := by
  cases items with
  | one arg => simpa [Items.tokens] using arg.startsOperand
  | more arg comma rest => simpa [Items.tokens] using arg.startsOperand.append _

theorem StartsOperand.ne_nil {tokens : List Token} (h : StartsOperand tokens) : tokens ≠ [] := by
  obtain ⟨tk, rest, rfl, -⟩ := h
  exact List.cons_ne_nil tk rest

end Grammar
end ChartScript
