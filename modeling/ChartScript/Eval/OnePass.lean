import ChartScript.Eval.Machine

/-!
# Evaluating in one pass

A statement can be evaluated while it is read: the value of an operand is known as soon as its last
token is, an operator is applied when its second operand is known, and no tree is kept. What is read
of a statement that breaks the grammar has then had its effects when the fault is met.
`ChartScript.Proofs.Eval.OnePass` says that this comes to the same as reading the tree first.
-/

set_option autoImplicit false

namespace ChartScript

/-- A value, and the cursor behind the tokens that it is the value of: it has come forward. -/
abbrev Cursor.Taken (c : Cursor) : Type := { p : Value × Cursor // p.2.remaining < c.remaining }

/-- A tail may take nothing. -/
abbrev Cursor.TailTaken (c : Cursor) : Type := { p : Value × Cursor // p.2.remaining ≤ c.remaining }

namespace Evaluator

variable {σ : Type}

/-- Steps over the next token. -/
def advance (ev : Evaluator σ) (c : Cursor) :
    Eval σ { p : Token × Cursor // p.2.remaining < c.remaining } :=
  match c.step with
  | .ok p => pure p
  | .error f => ev.raise f

/-- The next token, if one is left. -/
def lookAhead (ev : Evaluator σ) (c : Cursor) : Eval σ (Option Token) :=
  match c.ahead? with
  | .ok tk => pure tk
  | .error f => ev.raise f

/-- Applies an operator. -/
def operate (op : Operator) (left right : Value) : Eval σ Value :=
  match Value.apply op left right with
  | .ok v => pure v
  | .error e => throw (.operation e)

mutual

/-- Takes an expression. -/
def takeExpression (ev : Evaluator σ) (c : Cursor) : Eval σ c.Taken := do
  let ⟨(left, c1), h1⟩ ← ev.takeTerm c
  let ⟨p, h2⟩ ← ev.takeExpressionTail left c1
  pure ⟨p, Nat.lt_of_le_of_lt h2 h1⟩
termination_by (c.remaining, 3)

/-- Takes the further terms of an expression; `left` is the value so far. -/
def takeExpressionTail (ev : Evaluator σ) (left : Value) (c : Cursor) : Eval σ c.TailTaken := do
  match Expr.additive? (← ev.lookAhead c) with
  | none => pure ⟨(left, c), Nat.le_refl _⟩
  | some op =>
    let ⟨(_, c1), h1⟩ ← ev.advance c
    let ⟨(right, c2), h2⟩ ← ev.takeTerm c1
    have forward : c2.remaining < c.remaining := Nat.lt_trans h2 h1
    let left ← operate op left right
    let ⟨p, h3⟩ ← ev.takeExpressionTail left c2
    pure ⟨p, Nat.le_trans h3 (Nat.le_of_lt forward)⟩
termination_by (c.remaining, 0)

/-- Takes a term. -/
def takeTerm (ev : Evaluator σ) (c : Cursor) : Eval σ c.Taken := do
  let ⟨(left, c1), h1⟩ ← ev.takePrimary c
  let ⟨p, h2⟩ ← ev.takeTermTail left c1
  pure ⟨p, Nat.lt_of_le_of_lt h2 h1⟩
termination_by (c.remaining, 2)

/-- Takes the further operands of a term; `left` is the value so far. -/
def takeTermTail (ev : Evaluator σ) (left : Value) (c : Cursor) : Eval σ c.TailTaken := do
  match Expr.multiplicative? (← ev.lookAhead c) with
  | none => pure ⟨(left, c), Nat.le_refl _⟩
  | some op =>
    let ⟨(_, c1), h1⟩ ← ev.advance c
    let ⟨(right, c2), h2⟩ ← ev.takePrimary c1
    have forward : c2.remaining < c.remaining := Nat.lt_trans h2 h1
    let left ← operate op left right
    let ⟨p, h3⟩ ← ev.takeTermTail left c2
    pure ⟨p, Nat.le_trans h3 (Nat.le_of_lt forward)⟩
termination_by (c.remaining, 0)

/-- Takes an operand. A symbol before an equals sign is stored once what is to its right is known. -/
def takePrimary (ev : Evaluator σ) (c : Cursor) : Eval σ c.Taken := do
  if c.hasNext then
    let ⟨(tk, c1), h1⟩ ← ev.advance c
    match tk.kind with
    | .int | .real | .string => pure ⟨(tk.value, c1), h1⟩
    | .symbol =>
      if (← ev.lookAhead c1).map Token.kind = some .assign then
        let ⟨(_, c2), h2⟩ ← ev.advance c1
        have forward : c2.remaining < c.remaining := Nat.lt_trans h2 h1
        let ⟨(v, c3), h3⟩ ← ev.takeExpression c2
        modify fun w => { w with forest := w.forest.putSymbol ev.scope tk.lexeme v }
        pure ⟨(v, c3), Nat.lt_trans h3 forward⟩
      else
        let v ← ev.readSymbol tk
        pure ⟨(v, c1), h1⟩
    | .func =>
      let ⟨p, h2⟩ ← ev.takeCall tk c1
      pure ⟨p, Nat.lt_trans h2 h1⟩
    | _ => ev.raise (.unsupportedPrimary tk)
  else ev.raise (Expr.endOfInput c [])
termination_by (c.remaining, 1)

/-- Takes the parentheses and arguments behind a function name and makes the call. -/
def takeCall (ev : Evaluator σ) (fn : Token) (c : Cursor) : Eval σ c.Taken := do
  if c.hasNext then
    let ⟨(paren, c1), h1⟩ ← ev.advance c
    if paren.kind = .leftParen then
      match ← ev.lookAhead c1 with
      | none => ev.raise (Expr.endOfInput c1 fn.lexeme)
      | some tk =>
        if tk.kind = .rightParen then
          let ⟨(_, c2), h2⟩ ← ev.advance c1
          let v ← ev.dispatch fn []
          pure ⟨(v, c2), Nat.lt_trans h2 h1⟩
        else
          let ⟨p, h2⟩ ← ev.takeArguments fn [] c1
          pure ⟨p, Nat.lt_trans h2 h1⟩
    else ev.raise (.malformed ⟨paren.pos, .noLeftParen, fn.lexeme⟩)
  else ev.raise (Expr.endOfInput c fn.lexeme)
termination_by (c.remaining, 0)

/-- Takes one argument or more behind those given and the closing parenthesis, and makes the call. -/
def takeArguments (ev : Evaluator σ) (fn : Token) (args : List Value) (c : Cursor) :
    Eval σ c.Taken := do
  let tk ← ev.lookAhead c
  if tk.map Token.kind = some .comma then
    ev.raise (.malformed ⟨(tk.map Token.pos).getD .none, .unexpectedComma, fn.lexeme⟩)
  else
    let ⟨(arg, c1), h1⟩ ← ev.takeExpression c
    if c1.hasNext then
      let ⟨(sep, c2), h2⟩ ← ev.advance c1
      have forward : c2.remaining < c.remaining := Nat.lt_trans h2 h1
      match sep.kind with
      | .rightParen =>
        let v ← ev.dispatch fn (args ++ [arg])
        pure ⟨(v, c2), forward⟩
      | .comma =>
        match ← ev.lookAhead c2 with
        | none => ev.raise (Expr.endOfInput c2 fn.lexeme)
        | some after =>
          if after.kind = .rightParen then
            ev.raise (.malformed ⟨sep.pos, .unexpectedComma, fn.lexeme⟩)
          else
            let ⟨p, h3⟩ ← ev.takeArguments fn (args ++ [arg]) c2
            pure ⟨p, Nat.lt_trans h3 forward⟩
      | _ => ev.raise (.malformed ⟨sep.pos, .noSeparator, fn.lexeme⟩)
    else ev.raise (Expr.endOfInput c1 fn.lexeme)
termination_by (c.remaining, 4)

end

/-- Ends a statement behind its expression: no token may be left, and it is recorded on the scope. -/
def endStatement (ev : Evaluator σ) (stmt : Statement) (v : Value) (c : Cursor) : Eval σ Value := do
  match ← ev.lookAhead c with
  | some tk => ev.raise (.malformed ⟨tk.pos, .trailingSymbol, []⟩)
  | none =>
    modify fun w => { w with forest := w.forest.addStatement ev.scope stmt }
    modify (·.log ev.logger (statementEntry stmt v))
    pure v

/-- Evaluates a statement in one pass. -/
def takeStatement (ev : Evaluator σ) (stmt : Statement) : Eval σ Value := do
  if stmt.isEmpty then pure .nil
  else
    let ⟨(v, c), _⟩ ← ev.takeExpression (.ofList stmt)
    ev.endStatement stmt v c

end Evaluator

end ChartScript
