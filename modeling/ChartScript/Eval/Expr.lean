import ChartScript.Eval.Error

/-!
# Expressions

The tree of a statement, read off its tokens by this grammar:

    expression := term (('+'|'-') term)*
    term       := primary (('*'|'/') primary)*
    primary    := literal | symbol ['=' expression] | func '(' [expression (',' expression)*] ')'

Operators associate to the left, and an assignment takes everything to its right. Where the tokens
break the grammar, the tree has a `fault` leaf at that place and ends there: what stands to its
left is in the tree, what stands to its right has not been read. Evaluating a tree from left to
right (`ChartScript.Eval.Machine`) therefore meets the fault after every effect that comes before
it in the text.
-/

set_option autoImplicit false

namespace ChartScript

mutual

/-- The tree of an expression as far as it could be read. -/
inductive Expr where
  | literal (v : Value)
  | symbol (tk : Token)
  | assign (tk : Token) (rhs : Expr)
  | binary (op : Operator) (left right : Expr)
  | call (fn : Token) (args : Args)
  | fault (f : Fault)

/-- The arguments of a call, in order. -/
inductive Args where
  | nil
  | cons (arg : Expr) (rest : Args)

end

namespace Cursor

/-- Steps over the next token, and knows that fewer are left. -/
def step (c : Cursor) : Except Fault { p : Token × Cursor // p.2.remaining < c.remaining } :=
  match h : c.next with
  | .ok p => .ok ⟨p, remaining_of_next h⟩
  | .error e => .error (.pastEnd e)

/-- The next token, if one is left. -/
def ahead? (c : Cursor) : Except Fault (Option Token) :=
  if c.hasNext then
    match c.peek with
    | .ok tk => .ok (some tk)
    | .error e => .error (.pastEnd e)
  else .ok none

end Cursor

namespace Expr

/-- The additive operator that a token is. -/
def additive? (tk : Option Token) : Option Operator :=
  match tk.map Token.kind with
  | some .plus => some .add
  | some .minus => some .sub
  | _ => none

/-- The multiplicative operator that a token is. -/
def multiplicative? (tk : Option Token) : Option Operator :=
  match tk.map Token.kind with
  | some .times => some .mul
  | some .divide => some .div
  | _ => none

/-- The input ends behind the last token read, inside the arguments of `func` or of none. -/
def endOfInput (c : Cursor) (func : Bytes) : Fault :=
  .malformed ⟨(c.last?.map Token.pos).getD .none, .endOfInput, func⟩

/-- What a reader returns: the tree read and the cursor behind it, which has come forward; or the
tree up to the fault where reading ended. -/
abbrev Reading (Cut Tree : Type) (c : Cursor) : Type :=
  Except Cut { p : Tree × Cursor // p.2.remaining < c.remaining }

/-- A tail may read nothing. -/
abbrev TailReading (Cut Tree : Type) (c : Cursor) : Type :=
  Except Cut { p : Tree × Cursor // p.2.remaining ≤ c.remaining }

mutual

/-- Reads an expression. -/
def readExpression (c : Cursor) : Reading Expr Expr c :=
  match readTerm c with
  | .error cut => .error cut
  | .ok ⟨(left, c1), h1⟩ =>
    match readExpressionTail left c1 with
    | .error cut => .error cut
    | .ok ⟨p, h2⟩ => .ok ⟨p, Nat.lt_of_le_of_lt h2 h1⟩
termination_by (c.remaining, 3)

/-- Reads the further terms of an expression that begins with `left`. -/
def readExpressionTail (left : Expr) (c : Cursor) : TailReading Expr Expr c :=
  match c.ahead? with
  | .error f => .error (.fault f)
  | .ok tk =>
    match additive? tk with
    | none => .ok ⟨(left, c), Nat.le_refl _⟩
    | some op =>
      match c.step with
      | .error f => .error (.fault f)
      | .ok ⟨(_, c1), h1⟩ =>
        match readTerm c1 with
        | .error cut => .error (.binary op left cut)
        | .ok ⟨(right, c2), h2⟩ =>
          have forward : c2.remaining < c.remaining := Nat.lt_trans h2 h1
          match readExpressionTail (.binary op left right) c2 with
          | .error cut => .error cut
          | .ok ⟨p, h3⟩ => .ok ⟨p, Nat.le_trans h3 (Nat.le_of_lt forward)⟩
termination_by (c.remaining, 0)

/-- Reads a term. -/
def readTerm (c : Cursor) : Reading Expr Expr c :=
  match readPrimary c with
  | .error cut => .error cut
  | .ok ⟨(left, c1), h1⟩ =>
    match readTermTail left c1 with
    | .error cut => .error cut
    | .ok ⟨p, h2⟩ => .ok ⟨p, Nat.lt_of_le_of_lt h2 h1⟩
termination_by (c.remaining, 2)

/-- Reads the further operands of a term that begins with `left`. -/
def readTermTail (left : Expr) (c : Cursor) : TailReading Expr Expr c :=
  match c.ahead? with
  | .error f => .error (.fault f)
  | .ok tk =>
    match multiplicative? tk with
    | none => .ok ⟨(left, c), Nat.le_refl _⟩
    | some op =>
      match c.step with
      | .error f => .error (.fault f)
      | .ok ⟨(_, c1), h1⟩ =>
        match readPrimary c1 with
        | .error cut => .error (.binary op left cut)
        | .ok ⟨(right, c2), h2⟩ =>
          have forward : c2.remaining < c.remaining := Nat.lt_trans h2 h1
          match readTermTail (.binary op left right) c2 with
          | .error cut => .error cut
          | .ok ⟨p, h3⟩ => .ok ⟨p, Nat.le_trans h3 (Nat.le_of_lt forward)⟩
termination_by (c.remaining, 0)

/-- Reads an operand. -/
def readPrimary (c : Cursor) : Reading Expr Expr c :=
  if c.hasNext then
    match c.step with
    | .error f => .error (.fault f)
    | .ok ⟨(tk, c1), h1⟩ =>
      match tk.kind with
      | .int | .real | .string => .ok ⟨(.literal tk.value, c1), h1⟩
      | .symbol =>
        match c1.ahead? with
        | .error f => .error (.fault f)
        | .ok tk' =>
          if tk'.map Token.kind = some .assign then
            match c1.step with
            | .error f => .error (.fault f)
            | .ok ⟨(_, c2), h2⟩ =>
              have forward : c2.remaining < c.remaining := Nat.lt_trans h2 h1
              match readExpression c2 with
              | .error cut => .error (.assign tk cut)
              | .ok ⟨(rhs, c3), h3⟩ => .ok ⟨(.assign tk rhs, c3), Nat.lt_trans h3 forward⟩
          else .ok ⟨(.symbol tk, c1), h1⟩
      | .func =>
        match readCall tk c1 with
        | .error cut => .error cut
        | .ok ⟨p, h2⟩ => .ok ⟨p, Nat.lt_trans h2 h1⟩
      | _ => .error (.fault (.unsupportedPrimary tk))
  else .error (.fault (endOfInput c []))
termination_by (c.remaining, 1)

/-- Reads the parentheses and arguments behind a function name. -/
def readCall (fn : Token) (c : Cursor) : Reading Expr Expr c :=
  if c.hasNext then
    match c.step with
    | .error f => .error (.fault f)
    | .ok ⟨(paren, c1), h1⟩ =>
      if paren.kind = .leftParen then
        match c1.ahead? with
        | .error f => .error (.fault f)
        | .ok none => .error (.fault (endOfInput c1 fn.lexeme))
        | .ok (some tk) =>
          if tk.kind = .rightParen then
            match c1.step with
            | .error f => .error (.fault f)
            | .ok ⟨(_, c2), h2⟩ => .ok ⟨(.call fn .nil, c2), Nat.lt_trans h2 h1⟩
          else
            match readArguments fn c1 with
            | .error cut => .error (.call fn cut)
            | .ok ⟨(args, c2), h2⟩ => .ok ⟨(.call fn args, c2), Nat.lt_trans h2 h1⟩
      else .error (.fault (.malformed ⟨paren.pos, .noLeftParen, fn.lexeme⟩))
  else .error (.fault (endOfInput c fn.lexeme))
termination_by (c.remaining, 0)

/-- Reads one argument or more and the closing parenthesis. -/
def readArguments (fn : Token) (c : Cursor) : Reading Args Args c :=
  let cutAt := fun (f : Fault) => Args.cons (.fault f) .nil
  match c.ahead? with
  | .error f => .error (cutAt f)
  | .ok tk =>
    if tk.map Token.kind = some .comma then
      .error (cutAt (.malformed ⟨(tk.map Token.pos).getD .none, .unexpectedComma, fn.lexeme⟩))
    else
      match readExpression c with
      | .error cut => .error (.cons cut .nil)
      | .ok ⟨(arg, c1), h1⟩ =>
        if c1.hasNext then
          match c1.step with
          | .error f => .error (.cons arg (cutAt f))
          | .ok ⟨(sep, c2), h2⟩ =>
            have forward : c2.remaining < c.remaining := Nat.lt_trans h2 h1
            match sep.kind with
            | .rightParen => .ok ⟨(.cons arg .nil, c2), forward⟩
            | .comma =>
              match c2.ahead? with
              | .error f => .error (.cons arg (cutAt f))
              | .ok none => .error (.cons arg (cutAt (endOfInput c2 fn.lexeme)))
              | .ok (some after) =>
                if after.kind = .rightParen then
                  .error (.cons arg
                    (cutAt (.malformed ⟨sep.pos, .unexpectedComma, fn.lexeme⟩)))
                else
                  match readArguments fn c2 with
                  | .error cut => .error (.cons arg cut)
                  | .ok ⟨(rest, c3), h3⟩ =>
                    .ok ⟨(.cons arg rest, c3), Nat.lt_trans h3 forward⟩
            | _ => .error (.cons arg (cutAt (.malformed ⟨sep.pos, .noSeparator, fn.lexeme⟩)))
        else .error (.cons arg (cutAt (endOfInput c1 fn.lexeme)))
termination_by (c.remaining, 4)

end

end Expr

/-- A statement as far as it could be read, and the token behind it if the statement goes on. -/
structure Parsed where
  tree : Expr
  trailing : Option Token

/-- Reads a statement. -/
def Statement.parse (stmt : Statement) : Parsed :=
  match Expr.readExpression (.ofList stmt) with
  | .error cut => ⟨cut, none⟩
  | .ok ⟨(tree, c), _⟩ =>
    match c.ahead? with
    | .error f => ⟨.fault f, none⟩
    | .ok tk => ⟨tree, tk⟩

end ChartScript
