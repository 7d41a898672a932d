import ChartScript.Proofs.Grammar.Evaluation
import ChartScript.Proofs.Grammar.Viability

/-!
# What a structural error says

A statement that breaks the grammar ends with a fault, unless an error of another kind comes first.
`evalStatement_fault_viable` reads off the fault what is wrong with the tokens. An end of input says
that they are viable: more tokens could complete them. Every other fault says that they are not,
that nothing behind the token at fault was looked at, and it names the first token that could not
stand where it stands.

A tree has at most one fault, and evaluation raises no fault that its tree does not have; so what
the reader says of a list of tokens (`parse_headway`) is what an evaluation says.
-/

set_option autoImplicit false

namespace ChartScript

open Step ChartScript.Expr

variable {σ α β : Type}

/-! ## Faults that are raised -/

/-- The faults that a step can end with are among `fs`. -/
def RaisesOnly (fs : List Fault) (x : Eval σ α) : Prop :=
  ∀ w f w', on x w = (.error (.fault f), w') → f ∈ fs

namespace RaisesOnly

theorem pure (fs : List Fault) (a : α) : RaisesOnly fs (Pure.pure a : Eval σ α) := by
  intro w f w' h
  cases h

theorem bind {fs fs' : List Fault} {x : Eval σ α} {k : α → Eval σ β} (hx : RaisesOnly fs x)
    (hk : ∀ a, RaisesOnly fs' (k a)) : RaisesOnly (fs ++ fs') (x >>= k) := by
  intro w f w' h
  cases hr : on x w with
  | mk answer w₁ =>
    cases answer with
    | error e =>
      rw [on_bind_error hr] at h
      cases h
      exact List.mem_append_left _ (hx w f w' hr)
    | ok a =>
      rw [on_bind_ok hr] at h
      exact List.mem_append_right _ (hk a w₁ f w' h)

theorem readSymbol (ev : Evaluator σ) (tk : Token) : RaisesOnly [] (ev.readSymbol tk) := by
  intro w f w' h
  rw [ev.on_readSymbol] at h
  cases hs : w.forest.symbol? ev.scope tk.lexeme <;> rw [hs] at h <;> cases h

theorem dispatch (ev : Evaluator σ) (fn : Token) (args : List Value) :
    RaisesOnly [] (ev.dispatch fn args) := by
  intro w f w' h
  rw [ev.on_dispatch] at h
  cases hd : ev.dispatcher with
  | none => rw [hd] at h; cases h
  | some d =>
    rw [hd] at h
    dsimp only at h
    -- What a function answers is an error of the call, whatever the function.
    cases ha : (d.invoke ⟨fn.lexeme, args, some ev.scope⟩ w.forest w.host).1 with
    | ok v => rw [ha] at h; cases h
    | error e => rw [ha] at h; cases h

theorem operate (op : Operator) (l r : Value) :
    RaisesOnly [] (match Value.apply op l r with
      | .ok v => Pure.pure v
      | .error e => throw (.operation e) : Eval σ Value) := by
  intro w f w' h
  cases ha : Value.apply op l r <;> rw [ha] at h <;> cases h

theorem raise (ev : Evaluator σ) (f : Fault) : RaisesOnly [f] (ev.raise f : Eval σ α) := by
  intro w f' w' h
  rw [ev.on_raise] at h
  cases h
  exact List.mem_singleton_self f

end RaisesOnly

mutual

/-- An evaluation ends with no fault that its tree does not have. -/
theorem evalExpr_raisesOnly (ev : Evaluator σ) : (e : Expr) →
    RaisesOnly e.faults (ev.evalExpr e)
  | .literal v => by
    rw [Evaluator.evalExpr]
    exact .pure _ v
  | .symbol tk => by
    rw [Evaluator.evalExpr, Expr.faults]
    exact .readSymbol ev tk
  | .assign tk rhs => by
    rw [Evaluator.evalExpr, Expr.faults, ← List.append_nil rhs.faults]
    refine (evalExpr_raisesOnly ev rhs).bind fun v => ?_
    intro w f w' h
    cases h
  | .binary op left right => by
    rw [Evaluator.evalExpr, Expr.faults]
    refine (evalExpr_raisesOnly ev left).bind fun l => ?_
    rw [← List.append_nil right.faults]
    exact (evalExpr_raisesOnly ev right).bind fun r => .operate op l r
  | .call fn args => by
    rw [Evaluator.evalExpr, Expr.faults, ← List.append_nil args.faults]
    exact (evalArgs_raisesOnly ev args).bind fun vs => .dispatch ev fn vs
  | .fault f => by
    rw [Evaluator.evalExpr, Expr.faults]
    exact .raise ev f

theorem evalArgs_raisesOnly (ev : Evaluator σ) : (args : Args) →
    RaisesOnly args.faults (ev.evalArgs args)
  | .nil => by
    rw [Evaluator.evalArgs]
    exact .pure _ []
  | .cons arg rest => by
    rw [Evaluator.evalArgs, Args.faults]
    refine (evalExpr_raisesOnly ev arg).bind fun v => ?_
    rw [← List.append_nil rest.faults]
    exact (evalArgs_raisesOnly ev rest).bind fun vs => .pure _ (v :: vs)

end

namespace Parsed

/-- The faults of a statement: those of its tree, and the token behind the tree. -/
def faults (p : Parsed) : List Fault :=
  p.tree.faults ++ (p.trailing.map Evaluator.trailingFault).toList

end Parsed

/-- A statement ends with no fault that was not found when it was read. -/
theorem evalStatement_raisesOnly (ev : Evaluator σ) {stmt : Statement} (hne : stmt ≠ []) :
    RaisesOnly stmt.parse.faults (ev.evalStatement stmt) := by
  intro w f w' h
  have hends := ev.statement_ends hne w
  rw [h] at hends
  cases hends with
  | failed tree => exact List.mem_append_left _ (evalExpr_raisesOnly ev _ w f w' tree)
  | trailing tree behind =>
    refine List.mem_append_right _ ?_
    simp [behind]

/-- Statements that parse alike fail alike, with the same effects. -/
theorem evalStatement_error_congr (ev : Evaluator σ) {stmt stmt' : Statement} (hne : stmt ≠ [])
    (hne' : stmt' ≠ []) (hp : stmt'.parse = stmt.parse) {w w' : World σ} {e : EvalError}
    (h : on (ev.evalStatement stmt) w = (.error e, w')) :
    on (ev.evalStatement stmt') w = (.error e, w') := by
  rw [ev.on_evalStatement hne] at h
  rw [ev.on_evalStatement hne', hp]
  cases hr : on (ev.evalExpr stmt.parse.tree) w with
  | mk answer w₁ =>
    rw [hr] at h
    cases answer with
    | error e' => exact h
    | ok v =>
      cases ht : stmt.parse.trailing with
      | none => rw [ht] at h; cases h
      | some tk =>
        rw [ht] at h
        exact h

namespace Grammar

/-! ## The last token

An expression does not end with a comma, so a `)` behind it is reported itself. -/

/-- The last token is no comma. -/
def EndsOperand (tokens : List Token) : Prop :=
  ∃ front tk, tokens = front ++ [tk] ∧ tk.kind ≠ .comma

theorem EndsOperand.prepend {b : List Token} (h : EndsOperand b) (a : List Token) :
    EndsOperand (a ++ b) := by
  obtain ⟨front, tk, rfl, hk⟩ := h
  exact ⟨a ++ front, tk, by simp, hk⟩

mutual

theorem Primary.endsOperand {p : Place} : (t : Primary p) → EndsOperand t.tokens
  | .literal tk => by
    refine ⟨[], tk.val, by simp [Primary.tokens], fun hk => ?_⟩
    have hl := tk.property
    rw [hk] at hl
    cases hl
  | .symbol tk => ⟨[], tk.val, by simp [Primary.tokens], by simp [tk.property]⟩
  | .assign tk sign rhs => by
    rw [Primary.tokens]
    exact rhs.endsOperand.prepend [tk.val, sign.val]
  | .call fn left args right =>
    ⟨fn.val :: left.val :: args.tokens, right.val, by simp [Primary.tokens],
      by simp [right.property]⟩

theorem Term.endsOperand {p : Place} : (t : Term p) → EndsOperand t.tokens
  | .single operand => by
    rw [Term.tokens]
    exact operand.endsOperand
  | .binary left op right => by
    rw [Term.tokens]
    exact (right.endsOperand.prepend [op.val]).prepend left.tokens

theorem Expression.endsOperand {p : Place} : (e : Expression p) → EndsOperand e.tokens
  | .single term => by
    rw [Expression.tokens]
    exact term.endsOperand
  | .binary left op right => by
    rw [Expression.tokens]
    exact (right.endsOperand.prepend [op.val]).prepend left.tokens

end

theorem EndsOperand.offender {tokens : List Token} (h : EndsOperand tokens) (tk : Token) :
    offender tokens.getLast? tk = tk := by
  obtain ⟨front, last, rfl, hk⟩ := h
  simp [Grammar.offender, hk]

/-! ## What reading a statement says of its tokens -/

/-- The tokens of a statement end in one of three ways. -/
inductive Verdict (stmt : Statement) : Prop where
  /-- They are those of a tree. -/
  | whole (t : Expression .last) (tokens : t.tokens = stmt)
  /-- They end too early. -/
  | short (func : Bytes) (viable : Viable stmt)
      (faults : stmt.parse.faults = [endOfInput ⟨stmt.reverse, []⟩ func])
  /-- They break the grammar at `tk`, whatever comes behind. -/
  | broken (f : Fault) (before : List Token) (tk : Token) (after : List Token)
      (split : stmt = before ++ tk :: after) (viable : Viable before)
      (parse : ∀ after', Statement.parse (before ++ tk :: after') = stmt.parse)
      (faults : stmt.parse.faults = [f]) (reports : Reports f (offender before.getLast? tk))

theorem parse_of_read {stmt : Statement} {tree : Expr} {c : Cursor}
    (h : plain (readExpression ⟨[], stmt⟩) = .ok (tree, c)) :
    stmt.parse = ⟨tree, c.ahead.head?⟩ := by
  rw [parse_eq, Cursor.ofList, h]

theorem parse_of_cut {stmt : Statement} {cut : Expr}
    (h : plain (readExpression ⟨[], stmt⟩) = .error cut) : stmt.parse = ⟨cut, none⟩ := by
  rw [parse_eq, Cursor.ofList, h]

theorem parse_headway (stmt : Statement) : Verdict stmt := by
  have hopens : Opens ⟨[], stmt⟩ := by
    intro sep hsep
    cases hsep
  cases readExpression_headway ⟨[], stmt⟩ hopens with
  | done used rest tree split reads =>
    obtain rfl : stmt = used ++ rest := split
    have hs := readExpression_sound ⟨[], used ++ rest⟩
    rw [show plain _ = _ from reads rest rfl] at hs
    obtain ⟨t, rfl, heq, -⟩ := hs
    obtain rfl := eq_of_split (show used ++ rest = _ from rfl) heq
    cases rest with
    | nil => exact .whole t (by simp)
    | cons tk after =>
      -- The tree ends before `tk`, and so it does whatever stands behind `tk`.
      have hparse : ∀ after', Statement.parse (t.tokens ++ tk :: after') = ⟨t.toExpr, some tk⟩ :=
        fun after' => parse_of_read (reads (tk :: after') rfl)
      refine .broken (Evaluator.trailingFault tk) t.tokens tk after rfl ⟨[], t, by simp⟩
        (fun after' => (hparse after').trans (hparse after).symm) ?_ ?_
      · rw [hparse after, Parsed.faults]
        simp
      · rw [t.endsOperand.offender]
        exact ⟨rfl, rfl⟩
  | short cut func reads fault begins =>
    refine .short func begins ?_
    rw [parse_of_cut reads, Parsed.faults, fault]
    simp
  | stuck cut f before tk after split reads fault reports begins =>
    obtain rfl : stmt = before ++ tk :: after := split
    have hparse : ∀ after', Statement.parse (before ++ tk :: after') = ⟨cut, none⟩ :=
      fun after' => parse_of_cut (reads after')
    refine .broken f before tk after rfl begins
      (fun after' => (hparse after').trans (hparse after).symm) ?_ ?_
    · rw [hparse after, Parsed.faults, fault]
      simp
    · simpa using reports

theorem faults_parse_tokens (t : Expression .last) : (Statement.parse t.tokens).faults = [] := by
  rw [parse_tokens, Parsed.faults]
  simp

/-- What has a fault however it goes on does not begin a statement. -/
theorem not_viable_of_faults {tokens : List Token} {f : Fault}
    (h : ∀ rest, (Statement.parse (tokens ++ rest)).faults = [f]) : ¬ Viable tokens := by
  rintro ⟨rest, t, ht⟩
  have hf := h rest
  rw [← ht, faults_parse_tokens] at hf
  cases hf

theorem Viable.of_append {tokens rest : List Token} (h : Viable (tokens ++ rest)) :
    Viable tokens := by
  obtain ⟨rest', h⟩ := h
  exact ⟨rest ++ rest', by rwa [← List.append_assoc]⟩

/-- **Structural errors mark the boundary of what is viable.** An end of input is reported for
tokens that begin a statement, at the last of them. Any other structural error is reported for
tokens that begin none, in the same way and with the same effects whatever is appended; and what it
reports is the first token with which the tokens cease to be viable, or the comma right before that
token if it closes the arguments behind a comma. -/
theorem evalStatement_fault_viable (ev : Evaluator σ) {stmt : Statement} (hne : stmt ≠ [])
    {w w' : World σ} {f : Fault} (h : on (ev.evalStatement stmt) w = (.error (.fault f), w')) :
    (∀ e, f = .malformed e → e.isEnd = true →
      Viable stmt ∧ e.pos = (stmt.getLast hne).pos) ∧
    ((∃ tk, f = .unsupportedPrimary tk) ∨ (∃ e, f = .malformed e ∧ e.isEnd = false) →
      ¬ Viable stmt ∧
      (∀ ext, on (ev.evalStatement (stmt ++ ext)) w = (.error (.fault f), w')) ∧
      ∃ before tk after, stmt = before ++ tk :: after ∧ Viable before ∧
        ¬ Viable (before ++ [tk]) ∧ Reports f (offender before.getLast? tk)) := by
  have hmem := evalStatement_raisesOnly ev hne w f w' h
  cases parse_headway stmt with
  | whole t tokens =>
    rw [← tokens, faults_parse_tokens] at hmem
    cases hmem
  | short func viable faults =>
    rw [faults, List.mem_singleton] at hmem
    subst hmem
    refine ⟨?_, ?_⟩
    · intro e he _
      obtain rfl : _ = e := Fault.malformed.inj he
      refine ⟨viable, ?_⟩
      simp [Cursor.last?, List.getLast?_eq_some_getLast hne]
    · rintro (⟨tk, htk⟩ | ⟨e, he, hend⟩)
      · cases htk
      · obtain rfl : _ = e := Fault.malformed.inj he
        cases hend
  | broken f' before tk after split viable parse faults reports =>
    rw [faults, List.mem_singleton] at hmem
    subst hmem
    have hfaults : ∀ rest, (Statement.parse ((before ++ [tk]) ++ rest)).faults = [f] := by
      intro rest
      rw [List.append_assoc, List.singleton_append, parse rest, faults]
    have hnot : ¬ Viable (before ++ [tk]) := not_viable_of_faults hfaults
    refine ⟨?_, fun _ => ⟨?_, fun ext => ?_, before, tk, after, split, viable, hnot, reports⟩⟩
    · rintro e rfl hend
      have hreports := reports.1
      rw [hend] at hreports
      cases hreports
    · intro hv
      rw [split, ← List.singleton_append, ← List.append_assoc] at hv
      exact hnot hv.of_append
    · refine evalStatement_error_congr ev hne (List.append_ne_nil_of_left_ne_nil hne ext) ?_ h
      have hp := parse (after ++ ext)
      rwa [← List.cons_append, ← List.append_assoc, ← split] at hp

/-- The tokens of `f(1,`. -/
def openCall : Statement :=
  [⟨.func, "f", .nil, ⟨1, 1, 0⟩⟩, ⟨.leftParen, "(", .nil, ⟨1, 2, 1⟩⟩,
    ⟨.int, "1", .integer 1, ⟨1, 3, 2⟩⟩, ⟨.comma, ",", .nil, ⟨1, 4, 3⟩⟩]

/-- The tokens of `f(1,)`. -/
def strayComma : Statement := openCall ++ [⟨.rightParen, ")", .nil, ⟨1, 5, 4⟩⟩]

/-- The tree of a call with the argument 1 that breaks off behind it. -/
def cutCall (cause : SyntaxCause) : Parsed :=
  ⟨.call ⟨.func, "f", .nil, ⟨1, 1, 0⟩⟩
    (.cons (.literal (.integer 1)) (cutAt (.malformed ⟨⟨1, 4, 3⟩, cause, "f"⟩))), none⟩

theorem parse_openCall : openCall.parse = cutCall .endOfInput := by
  rw [parse_eq]
  simp (disch := first | rfl | decide) [Cursor.ofList, openCall, plain_readExpression,
    plain_readTerm, plain_readPrimary_func, plain_readCall_arguments, plain_readArguments,
    plain_readPrimary_literal, plain_readTermTail_stop, plain_readExpressionTail_stop,
    afterArgument, endOfInput, Cursor.last?, cutCall]

theorem parse_strayComma : strayComma.parse = cutCall .unexpectedComma := by
  rw [parse_eq]
  simp (disch := first | rfl | decide) [Cursor.ofList, strayComma, openCall,
    plain_readExpression, plain_readTerm, plain_readPrimary_func, plain_readCall_arguments,
    plain_readArguments, plain_readPrimary_literal, plain_readTermTail_stop,
    plain_readExpressionTail_stop, afterArgument, cutCall]

theorem on_cutCall {stmt : Statement} {cause : SyntaxCause} (hne : stmt ≠ [])
    (h : stmt.parse = cutCall cause) :
    on (Evaluator.evalStatement (σ := Unit) ⟨0, none, none⟩ stmt) ⟨.root, (), []⟩ =
      (.error (.fault (.malformed ⟨⟨1, 4, 3⟩, cause, "f"⟩)), ⟨.root, (), []⟩) := by
  rw [Evaluator.on_evalStatement _ hne, h]
  rfl

/-- `f(1,` can be completed and `f(1,)` cannot; both are reported at the comma. -/
theorem evalStatement_strayComma :
    (on (Evaluator.evalStatement (σ := Unit) ⟨0, none, none⟩ openCall) ⟨.root, (), []⟩).1 =
        .error (.fault (.malformed ⟨⟨1, 4, 3⟩, .endOfInput, "f"⟩)) ∧
      Viable openCall ∧
      (on (Evaluator.evalStatement (σ := Unit) ⟨0, none, none⟩ strayComma) ⟨.root, (), []⟩).1 =
        .error (.fault (.malformed ⟨⟨1, 4, 3⟩, .unexpectedComma, "f"⟩)) ∧
      ¬ Viable strayComma := by
  have hopen := on_cutCall (by simp [openCall]) parse_openCall
  have hstray := on_cutCall (by simp [strayComma]) parse_strayComma
  refine ⟨by rw [hopen], ?_, by rw [hstray], ?_⟩
  · exact ((evalStatement_fault_viable _ (by simp [openCall]) hopen).1 _ rfl rfl).1
  · exact ((evalStatement_fault_viable _ (by simp [strayComma]) hstray).2 (.inr ⟨_, rfl, rfl⟩)).1

end Grammar
end ChartScript
