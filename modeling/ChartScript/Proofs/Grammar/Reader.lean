import ChartScript.Proofs.Grammar.Tree

/-!
# The readers, one equation for each thing they can meet

The readers of `ChartScript.Eval.Expr` return, with what they read, the proof that they came
forward; that is what makes them total, and it is in the way of every statement about *what* they
read. `plain` drops the proof. The equations below say what each reader does by the tokens ahead,
and nothing after this module unfolds a reader.
-/

set_option autoImplicit false

namespace ChartScript
namespace Expr

/-- A reading without the proof that it came forward. -/
def plain {α β : Type} {q : β → Prop} (r : Except α { b : β // q b }) : Except α β :=
  r.map Subtype.val

@[simp] theorem plain_ok {α β : Type} {q : β → Prop} (b : { b : β // q b }) :
    plain (.ok b : Except α { b : β // q b }) = .ok b.val := rfl

theorem step_cons (seen : List Token) (tk : Token) (rest : List Token) :
    (Cursor.mk seen (tk :: rest)).step =
      .ok ⟨(tk, ⟨tk :: seen, rest⟩), Nat.lt_succ_self rest.length⟩ := rfl

theorem ahead?_eq (c : Cursor) : c.ahead? = .ok c.ahead.head? := by
  obtain ⟨seen, ahead⟩ := c
  cases ahead <;> rfl

theorem hasNext_cons (seen : List Token) (tk : Token) (rest : List Token) :
    (Cursor.mk seen (tk :: rest)).hasNext = true := rfl

theorem hasNext_nil (seen : List Token) : (Cursor.mk seen []).hasNext = false := rfl

/-! ## Expressions and terms -/

theorem plain_readExpression (c : Cursor) :
    plain (readExpression c) =
      match plain (readTerm c) with
      | .error cut => .error cut
      | .ok (left, c1) => plain (readExpressionTail left c1) := by
  rw [readExpression]
  cases readTerm c with
  | error cut => rfl
  | ok r =>
    obtain ⟨⟨left, c1⟩, h1⟩ := r
    dsimp only [plain_ok]
    cases readExpressionTail left c1 <;> rfl

theorem plain_readTerm (c : Cursor) :
    plain (readTerm c) =
      match plain (readPrimary c) with
      | .error cut => .error cut
      | .ok (left, c1) => plain (readTermTail left c1) := by
  rw [readTerm]
  cases readPrimary c with
  | error cut => rfl
  | ok r =>
    obtain ⟨⟨left, c1⟩, h1⟩ := r
    dsimp only [plain_ok]
    cases readTermTail left c1 <;> rfl

theorem plain_readExpressionTail_stop (left : Expr) {c : Cursor}
    (h : additive? c.ahead.head? = none) : plain (readExpressionTail left c) = .ok (left, c) := by
  rw [readExpressionTail, ahead?_eq]
  dsimp only
  rw [h]
  rfl

theorem plain_readExpressionTail_go (left : Expr) {seen : List Token} {tk : Token}
    {rest : List Token} {op : Operator} (h : additive? (some tk) = some op) :
    plain (readExpressionTail left ⟨seen, tk :: rest⟩) =
      match plain (readTerm ⟨tk :: seen, rest⟩) with
      | .error cut => .error (.binary op left cut)
      | .ok (right, c) => plain (readExpressionTail (.binary op left right) c) := by
  rw [readExpressionTail, ahead?_eq]
  dsimp only [List.head?_cons]
  rw [h, step_cons]
  dsimp only
  cases readTerm ⟨tk :: seen, rest⟩ with
  | error cut => rfl
  | ok r =>
    obtain ⟨⟨right, c⟩, hr⟩ := r
    dsimp only [plain_ok]
    cases readExpressionTail (.binary op left right) c <;> rfl

theorem plain_readTermTail_stop (left : Expr) {c : Cursor}
    (h : multiplicative? c.ahead.head? = none) : plain (readTermTail left c) = .ok (left, c) := by
  rw [readTermTail, ahead?_eq]
  dsimp only
  rw [h]
  rfl

theorem plain_readTermTail_go (left : Expr) {seen : List Token} {tk : Token}
    {rest : List Token} {op : Operator} (h : multiplicative? (some tk) = some op) :
    plain (readTermTail left ⟨seen, tk :: rest⟩) =
      match plain (readPrimary ⟨tk :: seen, rest⟩) with
      | .error cut => .error (.binary op left cut)
      | .ok (right, c) => plain (readTermTail (.binary op left right) c) := by
  rw [readTermTail, ahead?_eq]
  dsimp only [List.head?_cons]
  rw [h, step_cons]
  dsimp only
  cases readPrimary ⟨tk :: seen, rest⟩ with
  | error cut => rfl
  | ok r =>
    obtain ⟨⟨right, c⟩, hr⟩ := r
    dsimp only [plain_ok]
    cases readTermTail (.binary op left right) c <;> rfl

/-! ## Operands -/

theorem plain_readPrimary_nil (seen : List Token) :
    plain (readPrimary ⟨seen, []⟩) = .error (.fault (endOfInput ⟨seen, []⟩ [])) := by
  rw [readPrimary, hasNext_nil]
  rfl

theorem plain_readPrimary_literal {tk : Token} (h : tk.kind.isLiteral = true)
    (seen rest : List Token) :
    plain (readPrimary ⟨seen, tk :: rest⟩) = .ok (.literal tk.value, ⟨tk :: seen, rest⟩) := by
  rw [readPrimary, hasNext_cons, if_pos rfl, step_cons]
  dsimp only
  cases hk : tk.kind with
  | int | real | string => rfl
  | _ => rw [hk] at h; cases h

theorem plain_readPrimary_symbol {tk : Token} (h : tk.kind = .symbol) (seen rest : List Token)
    (hr : rest.head?.map Token.kind ≠ some .assign) :
    plain (readPrimary ⟨seen, tk :: rest⟩) = .ok (.symbol tk, ⟨tk :: seen, rest⟩) := by
  rw [readPrimary, hasNext_cons, if_pos rfl, step_cons]
  dsimp only
  rw [h]
  dsimp only
  rw [ahead?_eq]
  dsimp only
  rw [if_neg hr]
  rfl

theorem plain_readPrimary_assign {tk sign : Token} (h : tk.kind = .symbol)
    (hs : sign.kind = .assign) (seen rest : List Token) :
    plain (readPrimary ⟨seen, tk :: sign :: rest⟩) =
      match plain (readExpression ⟨sign :: tk :: seen, rest⟩) with
      | .error cut => .error (.assign tk cut)
      | .ok (rhs, c) => .ok (.assign tk rhs, c) := by
  rw [readPrimary, hasNext_cons, if_pos rfl, step_cons]
  dsimp only
  rw [h]
  dsimp only
  rw [ahead?_eq]
  dsimp only [List.head?_cons, Option.map_some]
  rw [if_pos (congrArg some hs), step_cons]
  dsimp only
  cases readExpression ⟨sign :: tk :: seen, rest⟩ <;> rfl

theorem plain_readPrimary_func {tk : Token} (h : tk.kind = .func) (seen rest : List Token) :
    plain (readPrimary ⟨seen, tk :: rest⟩) = plain (readCall tk ⟨tk :: seen, rest⟩) := by
  rw [readPrimary, hasNext_cons, if_pos rfl, step_cons]
  dsimp only
  rw [h]
  dsimp only
  cases readCall tk ⟨tk :: seen, rest⟩ <;> rfl

theorem plain_readPrimary_other {tk : Token} (h : Grammar.isOperandStart tk.kind = false)
    (seen rest : List Token) :
    plain (readPrimary ⟨seen, tk :: rest⟩) = .error (.fault (.unsupportedPrimary tk)) := by
  rw [readPrimary, hasNext_cons, if_pos rfl, step_cons]
  dsimp only
  cases hk : tk.kind with
  | int | real | string | symbol | func => rw [hk] at h; cases h
  | _ => rfl

/-! ## Calls -/

theorem plain_readCall_nil (fn : Token) (seen : List Token) :
    plain (readCall fn ⟨seen, []⟩) = .error (.fault (endOfInput ⟨seen, []⟩ fn.lexeme)) := by
  rw [readCall, hasNext_nil]
  rfl

theorem plain_readCall_noParen (fn : Token) {paren : Token} (h : paren.kind ≠ .leftParen)
    (seen rest : List Token) :
    plain (readCall fn ⟨seen, paren :: rest⟩) =
      .error (.fault (.malformed ⟨paren.pos, .noLeftParen, fn.lexeme⟩)) := by
  rw [readCall, hasNext_cons, if_pos rfl, step_cons]
  dsimp only
  rw [if_neg h]
  rfl

theorem plain_readCall_open (fn : Token) {paren : Token} (h : paren.kind = .leftParen)
    (seen : List Token) :
    plain (readCall fn ⟨seen, [paren]⟩) =
      .error (.fault (endOfInput ⟨paren :: seen, []⟩ fn.lexeme)) := by
  rw [readCall, hasNext_cons, if_pos rfl, step_cons]
  dsimp only
  rw [if_pos h]
  rfl

theorem plain_readCall_empty (fn : Token) {paren close : Token} (h : paren.kind = .leftParen)
    (hc : close.kind = .rightParen) (seen rest : List Token) :
    plain (readCall fn ⟨seen, paren :: close :: rest⟩) =
      .ok (.call fn .nil, ⟨close :: paren :: seen, rest⟩) := by
  rw [readCall, hasNext_cons, if_pos rfl, step_cons]
  dsimp only
  rw [if_pos h, ahead?_eq]
  dsimp only [List.head?_cons]
  rw [if_pos hc, step_cons]
  rfl

theorem plain_readCall_arguments (fn : Token) {paren tk : Token} (h : paren.kind = .leftParen)
    (ht : tk.kind ≠ .rightParen) (seen rest : List Token) :
    plain (readCall fn ⟨seen, paren :: tk :: rest⟩) =
      match plain (readArguments fn ⟨paren :: seen, tk :: rest⟩) with
      | .error cut => .error (.call fn cut)
      | .ok (args, c) => .ok (.call fn args, c) := by
  rw [readCall, hasNext_cons, if_pos rfl, step_cons]
  dsimp only
  rw [if_pos h, ahead?_eq]
  dsimp only [List.head?_cons]
  rw [if_neg ht]
  cases readArguments fn ⟨paren :: seen, tk :: rest⟩ <;> rfl

/-! ## Arguments -/

/-- The place where the arguments of `fn` break off, as the last of the arguments read. -/
def cutAt (f : Fault) : Args := .cons (.fault f) .nil

theorem plain_readArguments_comma (fn : Token) {tk : Token} (h : tk.kind = .comma)
    (seen rest : List Token) :
    plain (readArguments fn ⟨seen, tk :: rest⟩) =
      .error (cutAt (.malformed ⟨tk.pos, .unexpectedComma, fn.lexeme⟩)) := by
  rw [readArguments, ahead?_eq]
  dsimp only [List.head?_cons, Option.map_some]
  rw [if_pos (congrArg some h)]
  rfl

/-- What follows an argument that was read. -/
def afterArgument (fn : Token) (arg : Expr) (c : Cursor) : Except Args (Args × Cursor) :=
  match c.ahead with
  | [] => .error (.cons arg (cutAt (endOfInput c fn.lexeme)))
  | sep :: rest =>
    if sep.kind = .rightParen then .ok (.cons arg .nil, ⟨sep :: c.seen, rest⟩)
    else if sep.kind = .comma then
      match rest with
      | [] => .error (.cons arg (cutAt (endOfInput ⟨sep :: c.seen, []⟩ fn.lexeme)))
      | tk :: _ =>
        if tk.kind = .rightParen then
          .error (.cons arg (cutAt (.malformed ⟨sep.pos, .unexpectedComma, fn.lexeme⟩)))
        else
          match plain (readArguments fn ⟨sep :: c.seen, rest⟩) with
          | .error cut => .error (.cons arg cut)
          | .ok (args, c) => .ok (.cons arg args, c)
    else .error (.cons arg (cutAt (.malformed ⟨sep.pos, .noSeparator, fn.lexeme⟩)))

theorem plain_readArguments (fn : Token) {c : Cursor}
    (h : c.ahead.head?.map Token.kind ≠ some .comma) :
    plain (readArguments fn c) =
      match plain (readExpression c) with
      | .error cut => .error (.cons cut .nil)
      | .ok (arg, c1) => afterArgument fn arg c1 := by
  rw [readArguments, ahead?_eq]
  dsimp only
  rw [if_neg h]
  cases readExpression c with
  | error cut => rfl
  | ok r =>
    obtain ⟨⟨arg, ⟨seen, ahead⟩⟩, h1⟩ := r
    dsimp only [plain_ok]
    cases ahead with
    | nil => rfl
    | cons sep rest =>
      rw [hasNext_cons, if_pos rfl, step_cons]
      dsimp only [afterArgument]
      split
      · next hk => rw [if_pos hk]; rfl
      · next hk =>
        rw [if_neg (by simp [hk]), if_pos hk, ahead?_eq]
        cases rest with
        | nil => rfl
        | cons tk rest =>
          dsimp only [List.head?_cons]
          split
          · rfl
          · cases readArguments fn ⟨sep :: seen, tk :: rest⟩ <;> rfl
      · next hr hc => rw [if_neg hr, if_neg hc]; rfl

end Expr

/-! ## Statements -/

theorem parse_eq (stmt : Statement) :
    stmt.parse =
      match Expr.plain (Expr.readExpression (.ofList stmt)) with
      | .error cut => ⟨cut, none⟩
      | .ok (tree, c) => ⟨tree, c.ahead.head?⟩ := by
  unfold Statement.parse
  cases Expr.readExpression (.ofList stmt) with
  | error cut => rfl
  | ok r =>
    obtain ⟨⟨tree, c⟩, h⟩ := r
    dsimp only [Expr.plain_ok]
    rw [Expr.ahead?_eq]

end ChartScript
