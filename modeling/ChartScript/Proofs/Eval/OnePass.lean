import ChartScript.Eval.OnePass
import ChartScript.Proofs.Eval.Steps
import ChartScript.Proofs.Grammar.Reader

/-!
# One pass comes to the same

Reading a statement to its end and then evaluating the tree is evaluating it while it is read
(`Evaluator.takeStatement_eq`). A reader and the pass beside it meet the same tokens in the same
order. Where the reader has a tree, the pass does what evaluating the tree does and ends at the same
cursor; where the reader is cut short, the pass stops with the error, and in the world, in which
evaluating the cut tree does. A tail begins with a tree that was read before it: it is compared behind
the evaluation of that tree.
-/

set_option autoImplicit false

namespace ChartScript

/-! ## Stopping alike -/

namespace Step

variable {S E α β γ : Type}

/-- Two steps that stop with the same error in the same state, wherever they begin. -/
def StopAlike (x : Step S E α) (y : Step S E β) : Prop :=
  ∀ s, ∃ e s', on x s = (.error e, s') ∧ on y s = (.error e, s')

theorem StopAlike.bind_left {x : Step S E α} {y : Step S E β} (h : StopAlike x y)
    (f : α → Step S E γ) : StopAlike (x >>= f) y := by
  intro s
  obtain ⟨e, s', hx, hy⟩ := h s
  exact ⟨e, s', on_bind_error hx f, hy⟩

theorem StopAlike.bind_right {x : Step S E α} {y : Step S E β} (h : StopAlike x y)
    (g : β → Step S E γ) : StopAlike x (y >>= g) := by
  intro s
  obtain ⟨e, s', hx, hy⟩ := h s
  exact ⟨e, s', hx, on_bind_error hy g⟩

/-- Whatever comes behind steps that stop alike is not reached. -/
theorem StopAlike.bind_eq {x : Step S E α} {y : Step S E β} (h : StopAlike x y)
    (f : α → Step S E γ) (g : β → Step S E γ) : x >>= f = y >>= g := by
  funext s
  obtain ⟨e, s', hx, hy⟩ := h s
  exact (on_bind_error hx f).trans (on_bind_error hy g).symm

/-- Behind the same step, which may itself have no value. -/
theorem StopAlike.behind (x : Step S E α) {f : α → Step S E β} {g : α → Step S E γ}
    (h : ∀ a, StopAlike (f a) (g a)) : StopAlike (x >>= f) (x >>= g) := by
  intro s
  cases hx : on x s with
  | mk answer s' =>
    cases answer with
    | error e => exact ⟨e, s', on_bind_error hx f, on_bind_error hx g⟩
    | ok a =>
      rw [on_bind_ok hx, on_bind_ok hx]
      exact h a s'

end Step

namespace Evaluator

open Step ChartScript.Expr

variable {σ : Type} (ev : Evaluator σ)

/-! ## The pass, one equation for each thing it can meet -/

/-- What is taken, without the proof that the cursor came forward. -/
def plainly {β : Type} {q : β → Prop} (x : Eval σ { b : β // q b }) : Eval σ β :=
  x >>= fun p => pure p.val

theorem plainly_bind {α β : Type} {q : β → Prop} (x : Eval σ α)
    (f : α → Eval σ { b : β // q b }) : plainly (x >>= f) = x >>= fun a => plainly (f a) :=
  bind_assoc ..

theorem plainly_bind_left {β γ : Type} {q : β → Prop} (x : Eval σ { b : β // q b })
    (k : β → Eval σ γ) : plainly x >>= k = x >>= fun p => k p.val := by
  rw [plainly, bind_assoc]
  exact bind_congr fun p => pure_bind ..

/-- Of a cursor that came forward no more is asked behind it. -/
theorem plainly_widen {β : Type} {q q' : β → Prop} (x : Eval σ { b : β // q b })
    (h : ∀ b, q b → q' b) :
    plainly (x >>= fun p => pure (⟨p.val, h _ p.property⟩ : { b : β // q' b })) = plainly x := by
  rw [plainly_bind]
  exact bind_congr fun p => pure_bind ..

theorem plainly_pure {β : Type} {q : β → Prop} (p : { b : β // q b }) :
    plainly (pure p : Eval σ { b : β // q b }) = pure p.val := pure_bind ..

theorem raise_bind {α β : Type} (f : Fault) (k : α → Eval σ β) :
    (ev.raise f >>= k) = ev.raise f := by
  unfold raise
  cases f <;> rfl

theorem plainly_raise {β : Type} {q : β → Prop} (f : Fault) :
    plainly (ev.raise f : Eval σ { b : β // q b }) = ev.raise f := ev.raise_bind f _

theorem advance_cons (seen : List Token) (tk : Token) (rest : List Token) :
    ev.advance ⟨seen, tk :: rest⟩ =
      pure ⟨(tk, ⟨tk :: seen, rest⟩), Nat.lt_succ_self rest.length⟩ := rfl

theorem lookAhead_eq (c : Cursor) : ev.lookAhead c = pure c.ahead.head? := by
  rw [lookAhead, ahead?_eq]

theorem plainly_takeExpression (c : Cursor) :
    plainly (ev.takeExpression c) =
      plainly (ev.takeTerm c) >>= fun p => plainly (ev.takeExpressionTail p.1 p.2) := by
  rw [takeExpression, plainly_bind, plainly_bind_left]
  exact bind_congr fun p => plainly_widen ..

theorem plainly_takeTerm (c : Cursor) :
    plainly (ev.takeTerm c) =
      plainly (ev.takePrimary c) >>= fun p => plainly (ev.takeTermTail p.1 p.2) := by
  rw [takeTerm, plainly_bind, plainly_bind_left]
  exact bind_congr fun p => plainly_widen ..

theorem plainly_takeExpressionTail_stop (left : Value) {c : Cursor}
    (h : additive? c.ahead.head? = none) :
    plainly (ev.takeExpressionTail left c) = pure (left, c) := by
  rw [takeExpressionTail, lookAhead_eq, pure_bind, h]
  exact plainly_pure _

theorem plainly_takeExpressionTail_go (left : Value) {seen : List Token} {tk : Token}
    {rest : List Token} {op : Operator} (h : additive? (some tk) = some op) :
    plainly (ev.takeExpressionTail left ⟨seen, tk :: rest⟩) =
      plainly (ev.takeTerm ⟨tk :: seen, rest⟩) >>= fun p =>
        operate op left p.1 >>= fun v => plainly (ev.takeExpressionTail v p.2) := by
  rw [takeExpressionTail, lookAhead_eq, pure_bind, List.head?_cons, h]
  dsimp only
  rw [advance_cons, pure_bind, plainly_bind, plainly_bind_left]
  refine bind_congr fun p => ?_
  rw [plainly_bind]
  exact bind_congr fun v => plainly_widen ..

theorem plainly_takeTermTail_stop (left : Value) {c : Cursor}
    (h : multiplicative? c.ahead.head? = none) :
    plainly (ev.takeTermTail left c) = pure (left, c) := by
  rw [takeTermTail, lookAhead_eq, pure_bind, h]
  exact plainly_pure _

theorem plainly_takeTermTail_go (left : Value) {seen : List Token} {tk : Token}
    {rest : List Token} {op : Operator} (h : multiplicative? (some tk) = some op) :
    plainly (ev.takeTermTail left ⟨seen, tk :: rest⟩) =
      plainly (ev.takePrimary ⟨tk :: seen, rest⟩) >>= fun p =>
        operate op left p.1 >>= fun v => plainly (ev.takeTermTail v p.2) := by
  rw [takeTermTail, lookAhead_eq, pure_bind, List.head?_cons, h]
  dsimp only
  rw [advance_cons, pure_bind, plainly_bind, plainly_bind_left]
  refine bind_congr fun p => ?_
  rw [plainly_bind]
  exact bind_congr fun v => plainly_widen ..

/-! ### Operands -/

theorem plainly_takePrimary_nil (seen : List Token) :
    plainly (ev.takePrimary ⟨seen, []⟩) = ev.raise (endOfInput ⟨seen, []⟩ []) := by
  rw [takePrimary, hasNext_nil, if_neg Bool.false_ne_true]
  exact ev.plainly_raise _

theorem plainly_takePrimary_literal {tk : Token} (h : tk.kind.isLiteral = true)
    (seen rest : List Token) :
    plainly (ev.takePrimary ⟨seen, tk :: rest⟩) = pure (tk.value, ⟨tk :: seen, rest⟩) := by
  rw [takePrimary, hasNext_cons, if_pos rfl, advance_cons, pure_bind]
  dsimp only
  cases hk : tk.kind with
  | int | real | string => exact plainly_pure _
  | _ => rw [hk] at h; cases h

theorem plainly_takePrimary_symbol {tk : Token} (h : tk.kind = .symbol) (seen rest : List Token)
    (hr : rest.head?.map Token.kind ≠ some .assign) :
    plainly (ev.takePrimary ⟨seen, tk :: rest⟩) =
      ev.readSymbol tk >>= fun v => pure (v, ⟨tk :: seen, rest⟩) := by
  rw [takePrimary, hasNext_cons, if_pos rfl, advance_cons, pure_bind]
  dsimp only
  rw [h]
  dsimp only
  rw [lookAhead_eq, pure_bind, if_neg hr, plainly_bind]
  exact bind_congr fun v => plainly_pure _

theorem plainly_takePrimary_assign {tk sign : Token} (h : tk.kind = .symbol)
    (hs : sign.kind = .assign) (seen rest : List Token) :
    plainly (ev.takePrimary ⟨seen, tk :: sign :: rest⟩) =
      plainly (ev.takeExpression ⟨sign :: tk :: seen, rest⟩) >>= fun p =>
        modify (fun w => { w with forest := w.forest.putSymbol ev.scope tk.lexeme p.1 }) >>=
          fun _ => pure p := by
  rw [takePrimary, hasNext_cons, if_pos rfl, advance_cons, pure_bind]
  dsimp only
  rw [h]
  dsimp only
  rw [lookAhead_eq, pure_bind, List.head?_cons, Option.map_some, if_pos (congrArg some hs),
    advance_cons, pure_bind, plainly_bind, plainly_bind_left]
  refine bind_congr fun p => ?_
  rw [plainly_bind]
  exact bind_congr fun _ => plainly_pure _

theorem plainly_takePrimary_func {tk : Token} (h : tk.kind = .func) (seen rest : List Token) :
    plainly (ev.takePrimary ⟨seen, tk :: rest⟩) =
      plainly (ev.takeCall tk ⟨tk :: seen, rest⟩) := by
  rw [takePrimary, hasNext_cons, if_pos rfl, advance_cons, pure_bind]
  dsimp only
  rw [h]
  exact plainly_widen ..

theorem plainly_takePrimary_other {tk : Token} (h : Grammar.isOperandStart tk.kind = false)
    (seen rest : List Token) :
    plainly (ev.takePrimary ⟨seen, tk :: rest⟩) = ev.raise (.unsupportedPrimary tk) := by
  rw [takePrimary, hasNext_cons, if_pos rfl, advance_cons, pure_bind]
  dsimp only
  cases hk : tk.kind with
  | int | real | string | symbol | func => rw [hk] at h; cases h
  | _ => exact ev.plainly_raise _

/-! ### Calls -/

theorem plainly_takeCall_nil (fn : Token) (seen : List Token) :
    plainly (ev.takeCall fn ⟨seen, []⟩) = ev.raise (endOfInput ⟨seen, []⟩ fn.lexeme) := by
  rw [takeCall, hasNext_nil, if_neg Bool.false_ne_true]
  exact ev.plainly_raise _

theorem plainly_takeCall_noParen (fn : Token) {paren : Token} (h : paren.kind ≠ .leftParen)
    (seen rest : List Token) :
    plainly (ev.takeCall fn ⟨seen, paren :: rest⟩) =
      ev.raise (.malformed ⟨paren.pos, .noLeftParen, fn.lexeme⟩) := by
  rw [takeCall, hasNext_cons, if_pos rfl, advance_cons, pure_bind]
  dsimp only
  rw [if_neg h]
  exact ev.plainly_raise _

theorem plainly_takeCall_open (fn : Token) {paren : Token} (h : paren.kind = .leftParen)
    (seen : List Token) :
    plainly (ev.takeCall fn ⟨seen, [paren]⟩) =
      ev.raise (endOfInput ⟨paren :: seen, []⟩ fn.lexeme) := by
  rw [takeCall, hasNext_cons, if_pos rfl, advance_cons, pure_bind]
  dsimp only
  rw [if_pos h, lookAhead_eq, pure_bind]
  exact ev.plainly_raise _

theorem plainly_takeCall_empty (fn : Token) {paren close : Token} (h : paren.kind = .leftParen)
    (hc : close.kind = .rightParen) (seen rest : List Token) :
    plainly (ev.takeCall fn ⟨seen, paren :: close :: rest⟩) =
      ev.dispatch fn [] >>= fun v => pure (v, ⟨close :: paren :: seen, rest⟩) := by
  rw [takeCall, hasNext_cons, if_pos rfl, advance_cons, pure_bind]
  dsimp only
  rw [if_pos h, lookAhead_eq, pure_bind]
  dsimp only [List.head?_cons]
  rw [if_pos hc, advance_cons, pure_bind, plainly_bind]
  exact bind_congr fun v => plainly_pure _

theorem plainly_takeCall_arguments (fn : Token) {paren tk : Token} (h : paren.kind = .leftParen)
    (ht : tk.kind ≠ .rightParen) (seen rest : List Token) :
    plainly (ev.takeCall fn ⟨seen, paren :: tk :: rest⟩) =
      plainly (ev.takeArguments fn [] ⟨paren :: seen, tk :: rest⟩) := by
  rw [takeCall, hasNext_cons, if_pos rfl, advance_cons, pure_bind]
  dsimp only
  rw [if_pos h, lookAhead_eq, pure_bind]
  dsimp only [List.head?_cons]
  rw [if_neg ht]
  exact plainly_widen ..

/-! ### Arguments -/

theorem plainly_takeArguments_comma (fn : Token) (args : List Value) {tk : Token}
    (h : tk.kind = .comma) (seen rest : List Token) :
    plainly (ev.takeArguments fn args ⟨seen, tk :: rest⟩) =
      ev.raise (.malformed ⟨tk.pos, .unexpectedComma, fn.lexeme⟩) := by
  rw [takeArguments, lookAhead_eq, pure_bind, List.head?_cons, Option.map_some,
    if_pos (congrArg some h)]
  exact ev.plainly_raise _

/-- What follows an argument that was taken, the last one of those given. -/
def takeAfter (fn : Token) (args : List Value) (c : Cursor) : Eval σ (Value × Cursor) :=
  match c.ahead with
  | [] => ev.raise (endOfInput c fn.lexeme)
  | sep :: rest =>
    if sep.kind = .rightParen then
      ev.dispatch fn args >>= fun v => pure (v, ⟨sep :: c.seen, rest⟩)
    else if sep.kind = .comma then
      match rest with
      | [] => ev.raise (endOfInput ⟨sep :: c.seen, []⟩ fn.lexeme)
      | tk :: _ =>
        if tk.kind = .rightParen then ev.raise (.malformed ⟨sep.pos, .unexpectedComma, fn.lexeme⟩)
        else plainly (ev.takeArguments fn args ⟨sep :: c.seen, rest⟩)
    else ev.raise (.malformed ⟨sep.pos, .noSeparator, fn.lexeme⟩)

theorem plainly_takeArguments (fn : Token) (args : List Value) {c : Cursor}
    (h : c.ahead.head?.map Token.kind ≠ some .comma) :
    plainly (ev.takeArguments fn args c) =
      plainly (ev.takeExpression c) >>= fun p => ev.takeAfter fn (args ++ [p.1]) p.2 := by
  rw [takeArguments, lookAhead_eq, pure_bind, if_neg h, plainly_bind, plainly_bind_left]
  refine bind_congr fun p => ?_
  obtain ⟨⟨arg, ⟨seen, ahead⟩⟩, h1⟩ := p
  dsimp only
  cases ahead with
  | nil =>
    rw [hasNext_nil, if_neg Bool.false_ne_true]
    exact ev.plainly_raise _
  | cons sep rest =>
    rw [hasNext_cons, if_pos rfl, advance_cons, pure_bind]
    dsimp only [takeAfter]
    split
    · next hk =>
      rw [if_pos hk, plainly_bind]
      exact bind_congr fun v => plainly_pure _
    · next hk =>
      rw [if_neg (by simp [hk]), if_pos hk, lookAhead_eq, pure_bind]
      cases rest with
      | nil => exact ev.plainly_raise _
      | cons tk rest =>
        dsimp only [List.head?_cons]
        split
        · exact ev.plainly_raise _
        · exact plainly_widen ..
    · next hr hc =>
      rw [if_neg hr, if_neg hc]
      exact ev.plainly_raise _

/-! ## The pass and the reader -/

/-- A pass follows a reading: it does what evaluating the tree does and ends at the same cursor, or
it stops as evaluating the cut tree does. -/
inductive Follows : Eval σ (Value × Cursor) → Except Expr (Expr × Cursor) → Prop where
  | whole {x : Eval σ (Value × Cursor)} {tree : Expr} {c : Cursor}
      (same : x = ev.evalExpr tree >>= fun v => pure (v, c)) : Follows x (.ok (tree, c))
  | broken {x : Eval σ (Value × Cursor)} {tree : Expr} (stop : StopAlike x (ev.evalExpr tree)) :
      Follows x (.error tree)

/-- A pass over arguments follows a reading of them, behind those that it has. -/
inductive FollowsCall (fn : Token) (args : List Value) :
    Eval σ (Value × Cursor) → Except Args (Args × Cursor) → Prop where
  | whole {x : Eval σ (Value × Cursor)} {more : Args} {c : Cursor}
      (same : x = ev.evalArgs more >>= fun vs =>
        ev.dispatch fn (args ++ vs) >>= fun v => pure (v, c)) :
      FollowsCall fn args x (.ok (more, c))
  | broken {x : Eval σ (Value × Cursor)} {more : Args} (stop : StopAlike x (ev.evalArgs more)) :
      FollowsCall fn args x (.error more)

variable {ev}

theorem stopAlike_raise (ev : Evaluator σ) {α β : Type} (f : Fault) :
    StopAlike (ev.raise f : Eval σ α) (ev.raise f : Eval σ β) :=
  fun s => ⟨_, _, ev.on_raise f s, ev.on_raise f s⟩

theorem Follows.raise (ev : Evaluator σ) (f : Fault) :
    ev.Follows (ev.raise f) (.error (.fault f)) :=
  .broken (by rw [evalExpr]; exact ev.stopAlike_raise f)

theorem FollowsCall.raise (ev : Evaluator σ) (fn : Token) (args : List Value) (f : Fault) :
    ev.FollowsCall fn args (ev.raise f) (.error (cutAt f)) := by
  refine .broken ?_
  rw [cutAt, evalArgs, evalExpr]
  exact (ev.stopAlike_raise f).bind_right _

/-- What was read before a tail, and the tail. -/
theorem Follows.tail {x : Eval σ (Value × Cursor)} {r : Except Expr (Expr × Cursor)}
    (k : Value → Cursor → Eval σ (Value × Cursor))
    (read : Expr → Cursor → Except Expr (Expr × Cursor)) :
    ev.Follows x r →
    (∀ left c, r = .ok (left, c) →
      ev.Follows (ev.evalExpr left >>= fun v => k v c) (read left c)) →
    ev.Follows (x >>= fun p => k p.1 p.2)
      (match r with
        | .error cut => .error cut
        | .ok (left, c) => read left c) := by
  intro h hk
  cases h with
  | broken stop => exact .broken (stop.bind_left _)
  | @whole left c same =>
    subst same
    simp only [bind_assoc, pure_bind]
    exact hk left c rfl

/-- A further operand behind `left`, and the tail. -/
theorem Follows.operand {op : Operator} {left : Expr} {x : Eval σ (Value × Cursor)}
    {r : Except Expr (Expr × Cursor)} (k : Value → Cursor → Eval σ (Value × Cursor))
    (read : Expr → Cursor → Except Expr (Expr × Cursor)) :
    ev.Follows x r →
    (∀ right c, r = .ok (right, c) →
      ev.Follows (ev.evalExpr (.binary op left right) >>= fun v => k v c)
        (read (.binary op left right) c)) →
    ev.Follows
      (ev.evalExpr left >>= fun l => x >>= fun p => operate op l p.1 >>= fun v => k v p.2)
      (match r with
        | .error cut => .error (.binary op left cut)
        | .ok (right, c) => read (.binary op left right) c) := by
  intro h hk
  cases h with
  | broken stop =>
    refine .broken ?_
    rw [evalExpr]
    exact .behind _ fun l => (stop.bind_left _).bind_right _
  | @whole right c same =>
    subst same
    have hrest := hk right c rfl
    rw [evalExpr] at hrest
    simp only [bind_assoc] at hrest
    simp only [bind_assoc, pure_bind]
    exact hrest

/-- A value that is stored. -/
theorem Follows.store {tk : Token} {x : Eval σ (Value × Cursor)}
    {r : Except Expr (Expr × Cursor)} :
    ev.Follows x r →
    ev.Follows
      (x >>= fun p =>
        modify (fun w => { w with forest := w.forest.putSymbol ev.scope tk.lexeme p.1 }) >>=
          fun _ => pure p)
      (match r with
        | .error cut => .error (.assign tk cut)
        | .ok (rhs, c) => .ok (.assign tk rhs, c)) := by
  intro h
  cases h with
  | broken stop =>
    refine .broken ?_
    rw [evalExpr]
    exact (stop.bind_left _).bind_right _
  | whole same =>
    refine .whole ?_
    rw [same, evalExpr]
    simp only [bind_assoc, pure_bind]

/-- The arguments of a call, and the call. -/
theorem FollowsCall.call {fn : Token} {x : Eval σ (Value × Cursor)}
    {r : Except Args (Args × Cursor)} :
    ev.FollowsCall fn [] x r →
    ev.Follows x
      (match r with
        | .error cut => .error (.call fn cut)
        | .ok (args, c) => .ok (.call fn args, c)) := by
  intro h
  cases h with
  | broken stop =>
    refine .broken ?_
    rw [evalExpr]
    exact stop.bind_right _
  | whole same =>
    refine .whole ?_
    rw [same, evalExpr]
    simp only [bind_assoc, List.nil_append]

/-- An argument, and what follows it. -/
theorem FollowsCall.argument {fn : Token} {args : List Value} {x : Eval σ (Value × Cursor)}
    {r : Except Expr (Expr × Cursor)} (k : Value → Cursor → Eval σ (Value × Cursor))
    (read : Expr → Cursor → Except Args (Args × Cursor)) :
    ev.Follows x r →
    (∀ arg c, r = .ok (arg, c) →
      ev.FollowsCall fn args (ev.evalExpr arg >>= fun v => k v c) (read arg c)) →
    ev.FollowsCall fn args (x >>= fun p => k p.1 p.2)
      (match r with
        | .error cut => .error (.cons cut .nil)
        | .ok (arg, c) => read arg c) := by
  intro h hk
  cases h with
  | broken stop =>
    refine .broken ?_
    rw [evalArgs]
    exact (stop.bind_left _).bind_right _
  | @whole arg c same =>
    subst same
    simp only [bind_assoc, pure_bind]
    exact hk arg c rfl

/-- A fault behind an argument. -/
theorem FollowsCall.raise_behind (fn : Token) (args : List Value) (arg : Expr) (f : Fault) :
    ev.FollowsCall fn args (ev.evalExpr arg >>= fun _ => ev.raise f)
      (.error (.cons arg (cutAt f))) := by
  cases FollowsCall.raise ev fn args f with
  | broken stop =>
    refine .broken ?_
    rw [evalArgs]
    exact .behind _ fun v => stop.bind_right _

/-- Further arguments behind an argument. -/
theorem FollowsCall.behind {fn : Token} {args : List Value} {arg : Expr}
    {x : List Value → Eval σ (Value × Cursor)} {r : Except Args (Args × Cursor)} :
    (∀ args, ev.FollowsCall fn args (x args) r) →
    ev.FollowsCall fn args (ev.evalExpr arg >>= fun v => x (args ++ [v]))
      (match r with
        | .error cut => .error (.cons arg cut)
        | .ok (more, c) => .ok (.cons arg more, c)) := by
  intro h
  cases r with
  | error cut =>
    refine .broken ?_
    rw [evalArgs]
    refine .behind _ fun v => ?_
    cases h (args ++ [v]) with
    | broken stop => exact stop.bind_right _
  | ok p =>
    refine .whole ?_
    simp only [evalArgs, bind_assoc, pure_bind]
    refine bind_congr fun v => ?_
    cases h (args ++ [v]) with
    | whole same => simpa only [List.append_assoc, List.singleton_append] using same

/-- A cursor that a reader reached came forward. -/
theorem forward {α β : Type} {c c' : Cursor} {b : β}
    {r : Except α { p : β × Cursor // p.2.remaining < c.remaining }}
    (h : plain r = .ok (b, c')) : c'.remaining < c.remaining := by
  cases r with
  | error cut => cases h
  | ok p =>
    obtain ⟨p, hp⟩ := p
    cases h
    exact hp

/-- Each pass follows the reading beside it at a cursor. -/
structure FollowsAt (ev : Evaluator σ) (c : Cursor) : Prop where
  expression : ev.Follows (plainly (ev.takeExpression c)) (plain (readExpression c))
  expressionTail : ∀ left,
    ev.Follows (ev.evalExpr left >>= fun v => plainly (ev.takeExpressionTail v c))
      (plain (readExpressionTail left c))
  term : ev.Follows (plainly (ev.takeTerm c)) (plain (readTerm c))
  termTail : ∀ left,
    ev.Follows (ev.evalExpr left >>= fun v => plainly (ev.takeTermTail v c))
      (plain (readTermTail left c))
  primary : ev.Follows (plainly (ev.takePrimary c)) (plain (readPrimary c))
  call : ∀ fn, ev.Follows (plainly (ev.takeCall fn c)) (plain (readCall fn c))
  arguments : ∀ fn args,
    ev.FollowsCall fn args (plainly (ev.takeArguments fn args c)) (plain (readArguments fn c))

section Passes

/-! ### One pass at a time

At a cursor, each pass follows its reading if all of them do behind it. -/

variable {c : Cursor} (ih : ∀ c' : Cursor, c'.remaining < c.remaining → ev.FollowsAt c')

include ih

theorem takeExpression_follows (hterm : ev.Follows (plainly (ev.takeTerm c)) (plain (readTerm c))) :
    ev.Follows (plainly (ev.takeExpression c)) (plain (readExpression c)) := by
  rw [plainly_takeExpression, plain_readExpression]
  exact Follows.tail (fun v c => plainly (ev.takeExpressionTail v c))
    (fun left c => plain (readExpressionTail left c)) hterm
    fun left c1 h => (ih c1 (forward h)).expressionTail left

theorem takeExpressionTail_follows (left : Expr) :
    ev.Follows (ev.evalExpr left >>= fun v => plainly (ev.takeExpressionTail v c))
      (plain (readExpressionTail left c)) := by
  cases hop : additive? c.ahead.head? with
  | none =>
    rw [plain_readExpressionTail_stop left hop]
    exact .whole (bind_congr fun v => ev.plainly_takeExpressionTail_stop v hop)
  | some op =>
    obtain ⟨seen, ahead⟩ := c
    cases ahead with
    | nil => cases hop
    | cons tk rest =>
      rw [plain_readExpressionTail_go left hop]
      simp only [ev.plainly_takeExpressionTail_go _ hop]
      refine Follows.operand (fun v c => plainly (ev.takeExpressionTail v c))
        (fun left c => plain (readExpressionTail left c))
        (ih ⟨tk :: seen, rest⟩ (Nat.lt_succ_self _)).term fun right c1 h => ?_
      exact (ih c1 (Nat.lt_succ_of_lt (forward h))).expressionTail (.binary op left right)

theorem takeTerm_follows
    (hprimary : ev.Follows (plainly (ev.takePrimary c)) (plain (readPrimary c))) :
    ev.Follows (plainly (ev.takeTerm c)) (plain (readTerm c)) := by
  rw [plainly_takeTerm, plain_readTerm]
  exact Follows.tail (fun v c => plainly (ev.takeTermTail v c))
    (fun left c => plain (readTermTail left c)) hprimary
    fun left c1 h => (ih c1 (forward h)).termTail left

theorem takeTermTail_follows (left : Expr) :
    ev.Follows (ev.evalExpr left >>= fun v => plainly (ev.takeTermTail v c))
      (plain (readTermTail left c)) := by
  cases hop : multiplicative? c.ahead.head? with
  | none =>
    rw [plain_readTermTail_stop left hop]
    exact .whole (bind_congr fun v => ev.plainly_takeTermTail_stop v hop)
  | some op =>
    obtain ⟨seen, ahead⟩ := c
    cases ahead with
    | nil => cases hop
    | cons tk rest =>
      rw [plain_readTermTail_go left hop]
      simp only [ev.plainly_takeTermTail_go _ hop]
      refine Follows.operand (fun v c => plainly (ev.takeTermTail v c))
        (fun left c => plain (readTermTail left c))
        (ih ⟨tk :: seen, rest⟩ (Nat.lt_succ_self _)).primary fun right c1 h => ?_
      exact (ih c1 (Nat.lt_succ_of_lt (forward h))).termTail (.binary op left right)

theorem takePrimary_follows :
    ev.Follows (plainly (ev.takePrimary c)) (plain (readPrimary c)) := by
  obtain ⟨seen, ahead⟩ := c
  cases ahead with
  | nil =>
    rw [plainly_takePrimary_nil, plain_readPrimary_nil]
    exact .raise ev _
  | cons tk rest =>
    cases hstart : Grammar.isOperandStart tk.kind with
    | false =>
      rw [ev.plainly_takePrimary_other hstart, plain_readPrimary_other hstart]
      exact .raise ev _
    | true =>
      cases hk : tk.kind with
      | int | real | string =>
        have hliteral : tk.kind.isLiteral = true := by rw [hk]; rfl
        rw [ev.plainly_takePrimary_literal hliteral, plain_readPrimary_literal hliteral]
        refine .whole ?_
        rw [evalExpr, pure_bind]
      | symbol =>
        by_cases hsign : rest.head?.map Token.kind = some .assign
        · obtain ⟨sign, hhead, hassign⟩ := Option.map_eq_some_iff.1 hsign
          obtain ⟨rest, rfl⟩ := List.head?_eq_some_iff.1 hhead
          rw [ev.plainly_takePrimary_assign hk hassign, plain_readPrimary_assign hk hassign]
          have hsteps := Nat.lt_trans (Nat.lt_succ_self rest.length) (Nat.lt_succ_self _)
          exact (ih ⟨sign :: tk :: seen, rest⟩ hsteps).expression.store
        · rw [ev.plainly_takePrimary_symbol hk _ _ hsign, plain_readPrimary_symbol hk _ _ hsign]
          refine .whole ?_
          rw [evalExpr]
      | func =>
        rw [ev.plainly_takePrimary_func hk, plain_readPrimary_func hk]
        exact (ih ⟨tk :: seen, rest⟩ (Nat.lt_succ_self _)).call tk
      | _ => rw [hk] at hstart; cases hstart

theorem takeCall_follows (fn : Token) :
    ev.Follows (plainly (ev.takeCall fn c)) (plain (readCall fn c)) := by
  obtain ⟨seen, ahead⟩ := c
  cases ahead with
  | nil =>
    rw [plainly_takeCall_nil, plain_readCall_nil]
    exact .raise ev _
  | cons paren rest =>
    by_cases hparen : paren.kind = .leftParen
    · cases rest with
      | nil =>
        rw [ev.plainly_takeCall_open fn hparen, plain_readCall_open fn hparen]
        exact .raise ev _
      | cons tk rest =>
        by_cases hclose : tk.kind = .rightParen
        · rw [ev.plainly_takeCall_empty fn hparen hclose, plain_readCall_empty fn hparen hclose]
          refine .whole ?_
          rw [evalExpr, evalArgs, pure_bind]
        · rw [ev.plainly_takeCall_arguments fn hparen hclose,
            plain_readCall_arguments fn hparen hclose]
          have harguments := ih ⟨paren :: seen, tk :: rest⟩ (Nat.lt_succ_self _)
          exact (harguments.arguments fn []).call
    · rw [ev.plainly_takeCall_noParen fn hparen, plain_readCall_noParen fn hparen]
      exact .raise ev _

/-- What follows an argument. -/
theorem takeAfter_follows (fn : Token) (args : List Value) (arg : Expr) :
    ev.FollowsCall fn args (ev.evalExpr arg >>= fun v => ev.takeAfter fn (args ++ [v]) c)
      (afterArgument fn arg c) := by
  obtain ⟨seen, ahead⟩ := c
  unfold takeAfter afterArgument
  cases ahead with
  | nil => exact .raise_behind fn args arg _
  | cons sep rest =>
    dsimp only
    by_cases hclose : sep.kind = .rightParen
    · simp only [if_pos hclose]
      refine .whole ?_
      simp only [evalArgs, bind_assoc, pure_bind]
    simp only [if_neg hclose]
    by_cases hcomma : sep.kind = .comma
    · simp only [if_pos hcomma]
      cases rest with
      | nil => exact .raise_behind fn args arg _
      | cons tk rest =>
        dsimp only
        by_cases hend : tk.kind = .rightParen
        · simp only [if_pos hend]
          exact .raise_behind fn args arg _
        · simp only [if_neg hend]
          have hmore := (ih ⟨sep :: seen, tk :: rest⟩ (Nat.lt_succ_self _)).arguments fn
          exact .behind hmore
    · simp only [if_neg hcomma]
      exact .raise_behind fn args arg _

theorem takeArguments_follows (fn : Token) (args : List Value)
    (hexpression : ev.Follows (plainly (ev.takeExpression c)) (plain (readExpression c))) :
    ev.FollowsCall fn args (plainly (ev.takeArguments fn args c))
      (plain (readArguments fn c)) := by
  by_cases hcomma : c.ahead.head?.map Token.kind = some .comma
  · obtain ⟨seen, ahead⟩ := c
    obtain ⟨tk, hhead, hkind⟩ := Option.map_eq_some_iff.1 hcomma
    obtain ⟨rest, rfl⟩ := List.head?_eq_some_iff.1 hhead
    rw [ev.plainly_takeArguments_comma fn args hkind, plain_readArguments_comma fn hkind]
    exact .raise ev fn args _
  · rw [ev.plainly_takeArguments fn args hcomma, plain_readArguments fn hcomma]
    refine FollowsCall.argument (fun v c => ev.takeAfter fn (args ++ [v]) c) (afterArgument fn)
      hexpression fun arg c1 h => ?_
    exact takeAfter_follows (fun c2 hbehind => ih c2 (Nat.lt_trans hbehind (forward h))) fn args arg

end Passes

theorem follows (ev : Evaluator σ) (c : Cursor) : ev.FollowsAt c := by
  induction hn : c.remaining using Nat.strongRecOn generalizing c with
  | ind n ih =>
    subst hn
    have ih : ∀ c' : Cursor, c'.remaining < c.remaining → ev.FollowsAt c' :=
      fun c' hlt => ih _ hlt c' rfl
    -- What a pass begins with begins at the same cursor, and so comes first.
    have hprimary := takePrimary_follows ih
    have hterm := takeTerm_follows ih hprimary
    have hexpression := takeExpression_follows ih hterm
    exact ⟨hexpression, takeExpressionTail_follows ih, hterm, takeTermTail_follows ih, hprimary,
      takeCall_follows ih, fun fn args => takeArguments_follows ih fn args hexpression⟩

/-! ## Statements -/

/-- **Evaluating a statement while it is read comes to the same as reading it first.** -/
theorem takeStatement_eq (ev : Evaluator σ) (stmt : Statement) :
    ev.takeStatement stmt = ev.evalStatement stmt := by
  unfold takeStatement evalStatement
  by_cases hempty : stmt.isEmpty = true
  · rw [if_pos hempty, if_pos hempty]
  rw [if_neg hempty, if_neg hempty, parse_eq]
  have htake := plainly_bind_left (ev.takeExpression (.ofList stmt))
    fun p => ev.endStatement stmt p.1 p.2
  refine htake.symm.trans ?_
  have hfollows := (follows ev (.ofList stmt)).expression
  cases hread : plain (readExpression (.ofList stmt)) with
  | error cut =>
    rw [hread] at hfollows
    cases hfollows with
    | broken stop => exact stop.bind_eq _ _
  | ok p =>
    obtain ⟨tree, c⟩ := p
    rw [hread] at hfollows
    cases hfollows with
    | whole same =>
      rw [same, bind_assoc]
      refine bind_congr fun v => ?_
      rw [pure_bind, endStatement, lookAhead_eq]
      exact pure_bind ..

end Evaluator
end ChartScript
