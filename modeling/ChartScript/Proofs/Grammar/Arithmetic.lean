import ChartScript.Proofs.Grammar.Evaluation
import ChartScript.Proofs.Scope.Lookup
import ChartScript.Proofs.Value.Exactness

/-!
# Statements of integers

A statement that has only integers, symbols bound to integers and the four operators has an exact
value: the rational number that its tree stands for. Evaluation may leave the integers on the way,
when a result does not fit or a quotient is not whole, and from there on it computes with reals. It
does not come back: whenever the answer is an integer, it is the exact value
(`evalStatement_integer_exact`). It does not leave without need either: as long as every result on
the way is an integer of 64 bits, so is the answer.
-/

set_option autoImplicit false

namespace ChartScript

open Step

/-- The number that a value is exactly, if it is an integer. -/
def Value.rational? : Value → Option ℚ
  | .integer n => some (n.toInt : ℚ)
  | _ => none

namespace Grammar

/-! ## Exact values

`env` says what symbols read as. Assignments and calls have no exact value. -/

section

variable (env : Bytes → Option Value)

def Primary.rational? {p : Place} : Primary p → Option ℚ
  | .literal tk => tk.val.value.rational?
  | .symbol tk => (env tk.val.lexeme).bind Value.rational?
  | .assign .. | .call .. => none

def Term.rational? {p : Place} : Term p → Option ℚ
  | .single operand => operand.rational? env
  | .binary left op right => do
    (multiplicativeOperator op).rational? (← left.rational?) (← right.rational? env)

def Expression.rational? {p : Place} : Expression p → Option ℚ
  | .single term => term.rational? env
  | .binary left op right => do
    (additiveOperator op).rational? (← left.rational?) (← right.rational? env)

/-- The exact results of all operations of a term, in the order in which they are taken. A quotient
by zero has none. -/
def Term.results {p : Place} : Term p → List (Option ℚ)
  | .single _ => []
  | .binary left op right => left.results ++ [(Term.binary left op right).rational? env]

/-- The exact results of all operations of an expression, in the order in which they are taken. -/
def Expression.results {p : Place} : Expression p → List (Option ℚ)
  | .single term => term.results env
  | .binary left op right =>
    left.results ++ right.results env ++ [(Expression.binary left op right).rational? env]

/-- A token of a statement of integers. -/
def IsArithmetic (tk : Token) : Prop :=
  isOperator tk.kind = true ∨ (tk.kind = .int ∧ ∃ n, tk.value = .integer n) ∨
    (tk.kind = .symbol ∧ ∃ n, env tk.lexeme = some (.integer n))

end

/-- A result that is an integer of 64 bits. -/
def IsInteger (r : Option ℚ) : Prop := ∃ n : Int64, r = some (n.toInt : ℚ)

/-! ## Evaluation -/

variable {σ : Type} {ev : Evaluator σ} {w : World σ}

/-- How the evaluation of a tree keeps to its exact value. It only reads, so it leaves the world as
it is; its answer is an integer only if that is the exact value, and is one if all results are. -/
def Computes (ev : Evaluator σ) (w : World σ) (e : Expr) (exact : Option ℚ)
    (results : List (Option ℚ)) : Prop :=
  ∃ answer, on (ev.evalExpr e) w = (answer, w) ∧
    (∀ n, answer = .ok (.integer n) → exact = some (n.toInt : ℚ)) ∧
    ((∀ r ∈ results, IsInteger r) → ∃ n, answer = .ok (.integer n))

theorem Computes.of_integer {e : Expr} {n : Int64}
    (h : on (ev.evalExpr e) w = (.ok (.integer n), w)) :
    Computes ev w e (some (n.toInt : ℚ)) [] := by
  refine ⟨_, h, ?_, fun _ => ⟨n, rfl⟩⟩
  intro m hm
  cases hm
  rfl

theorem on_evalExpr_binary {l r : Expr} {a b : Value} (hl : on (ev.evalExpr l) w = (.ok a, w))
    (hr : on (ev.evalExpr r) w = (.ok b, w)) (op : Operator) :
    on (ev.evalExpr (.binary op l r)) w = ((Value.apply op a b).mapError .operation, w) := by
  rw [Evaluator.evalExpr, on_bind_ok hl, on_bind_ok hr]
  cases Value.apply op a b <;> rfl

theorem Computes.binary {l r : Expr} {ql qr : Option ℚ} {rl rr : List (Option ℚ)}
    (hl : Computes ev w l ql rl) (hr : Computes ev w r qr rr) (op : Operator) :
    Computes ev w (.binary op l r) (do op.rational? (← ql) (← qr))
      (rl ++ rr ++ [do op.rational? (← ql) (← qr)]) := by
  obtain ⟨a, hla, hexact_l, hstays_l⟩ := hl
  obtain ⟨b, hrb, hexact_r, hstays_r⟩ := hr
  -- Where all results are integers, both operands have one.
  have hsides : (∀ q ∈ rl ++ rr ++ [do op.rational? (← ql) (← qr)], IsInteger q) →
      (∃ m, a = .ok (.integer m)) ∧ ∃ n, b = .ok (.integer n) := by
    intro h
    refine ⟨hstays_l ?_, hstays_r ?_⟩
    all_goals
      intro q hq
      exact h q (by simp [hq])
  cases a with
  | error e =>
    refine ⟨.error e, ?_, nofun, ?_⟩
    · rw [Evaluator.evalExpr, on_bind_error hla]
    · intro h
      obtain ⟨⟨m, hm⟩, -⟩ := hsides h
      cases hm
  | ok a =>
    cases b with
    | error e =>
      refine ⟨.error e, ?_, nofun, ?_⟩
      · rw [Evaluator.evalExpr, on_bind_ok hla, on_bind_error hrb]
      · intro h
        obtain ⟨-, n, hn⟩ := hsides h
        cases hn
    | ok b =>
      refine ⟨_, on_evalExpr_binary hla hrb op, ?_, ?_⟩
      · intro n hn
        have happly : Value.apply op a b = .ok (.integer n) := by
          cases hv : Value.apply op a b with
          | error e => rw [hv] at hn; cases hn
          | ok v => rw [hv] at hn; cases hn; rfl
        obtain ⟨x, y, rfl, rfl, hxy⟩ := (Value.apply_eq_integer_iff op a b n).1 happly
        rw [hexact_l x rfl, hexact_r y rfl]
        exact hxy
      · intro h
        obtain ⟨⟨x, hx⟩, y, hy⟩ := hsides h
        obtain ⟨n, hn⟩ := h _ (List.mem_append_right _ (List.mem_singleton_self _))
        cases hx
        cases hy
        rw [hexact_l x rfl, hexact_r y rfl] at hn
        have happly := (Value.apply_eq_integer_iff op _ _ n).2 ⟨x, y, rfl, rfl, hn⟩
        exact ⟨n, by rw [happly]; rfl⟩

/-- The operands of a statement of integers are integers. -/
theorem Primary.computes {p : Place} (t : Primary p)
    (h : ∀ tk ∈ t.tokens, IsArithmetic (w.forest.symbol? ev.scope) tk) :
    Computes ev w t.toExpr (t.rational? (w.forest.symbol? ev.scope)) [] := by
  cases t with
  | literal tk =>
    obtain ⟨tk, hliteral⟩ := tk
    rcases h tk (by simp [Primary.tokens]) with hop | ⟨-, n, hn⟩ | ⟨hsymbol, -⟩
    · cases hk : tk.kind <;> simp [hk, isOperator, Kind.isLiteral] at hop hliteral
    · simp only [Primary.toExpr, Primary.rational?, hn, Value.rational?]
      apply Computes.of_integer
      rw [Evaluator.evalExpr]
      rfl
    · rw [hsymbol] at hliteral
      cases hliteral
  | symbol tk =>
    obtain ⟨tk, hsymbol⟩ := tk
    rcases h tk (by simp [Primary.tokens]) with hop | ⟨hint, -⟩ | ⟨-, n, hn⟩
    · rw [hsymbol] at hop
      cases hop
    · rw [hsymbol] at hint
      cases hint
    · simp only [Primary.toExpr, Primary.rational?, hn, Option.bind_some, Value.rational?]
      apply Computes.of_integer
      rw [Evaluator.evalExpr, ev.on_readSymbol, hn]
  | assign tk sign rhs =>
    exfalso
    have hsign := h sign.val (by simp [Primary.tokens])
    simp [IsArithmetic, sign.property, isOperator] at hsign
  | call fn left args right =>
    exfalso
    have hfn := h fn.val (by simp [Primary.tokens])
    simp [IsArithmetic, fn.property, isOperator] at hfn

theorem Term.computes {p : Place} : (t : Term p) →
    (∀ tk ∈ t.tokens, IsArithmetic (w.forest.symbol? ev.scope) tk) →
    Computes ev w t.toExpr (t.rational? (w.forest.symbol? ev.scope))
      (t.results (w.forest.symbol? ev.scope))
  | .single operand, h => by
    simp only [Term.tokens] at h
    simp only [Term.toExpr, Term.rational?, Term.results]
    exact operand.computes h
  | .binary left op right, h => by
    simp only [Term.tokens] at h
    have hleft := left.computes fun tk htk => h tk (by simp [htk])
    have hright := right.computes fun tk htk => h tk (by simp [htk])
    have hboth := hleft.binary hright (multiplicativeOperator op)
    simp only [Term.toExpr, Term.results, Term.rational?]
    rwa [List.append_nil] at hboth

theorem Expression.computes {p : Place} : (e : Expression p) →
    (∀ tk ∈ e.tokens, IsArithmetic (w.forest.symbol? ev.scope) tk) →
    Computes ev w e.toExpr (e.rational? (w.forest.symbol? ev.scope))
      (e.results (w.forest.symbol? ev.scope))
  | .single term, h => by
    simp only [Expression.tokens] at h
    simp only [Expression.toExpr, Expression.rational?, Expression.results]
    exact term.computes h
  | .binary left op right, h => by
    simp only [Expression.tokens] at h
    have hleft := left.computes fun tk htk => h tk (by simp [htk])
    have hright := right.computes fun tk htk => h tk (by simp [htk])
    simp only [Expression.toExpr, Expression.results, Expression.rational?]
    exact hleft.binary hright (additiveOperator op)

/-- What the tree of a statement yields, the statement yields. -/
theorem on_evalStatement_tokens (ev : Evaluator σ) (t : Expression .last)
    {answer : Except EvalError Value}
    (h : on (ev.evalExpr t.toExpr) w = (answer, w)) :
    (on (ev.evalStatement t.tokens) w).1 = answer := by
  rw [ev.on_evalStatement t.startsOperand.ne_nil, parse_tokens, h]
  cases answer <;> rfl

/-- **An integer answer is exact.** A statement of integers that yields an integer yields the exact
value of its tree; and it does yield an integer if every result on the way, taken exactly, is an
integer of 64 bits. -/
theorem evalStatement_integer_exact (ev : Evaluator σ) (stmt : Statement) (w : World σ)
    (h : ∀ tk ∈ stmt, IsArithmetic (w.forest.symbol? ev.scope) tk) :
    (∀ n w', on (ev.evalStatement stmt) w = (.ok (.integer n), w') →
      ∃ t : Expression .last, t.tokens = stmt ∧
        t.rational? (w.forest.symbol? ev.scope) = some (n.toInt : ℚ)) ∧
    ∀ t : Expression .last, t.tokens = stmt →
      (∀ r ∈ t.results (w.forest.symbol? ev.scope), IsInteger r) →
        ∃ n w', on (ev.evalStatement stmt) w = (.ok (.integer n), w') := by
  constructor
  · intro n w' hr
    have hne : stmt ≠ [] := by
      rintro rfl
      cases hr
    obtain ⟨t, rfl⟩ := exists_tree_of_evalStatement hne hr
    obtain ⟨answer, heval, hexact, -⟩ := t.computes h
    have hanswer := on_evalStatement_tokens ev t heval
    rw [hr] at hanswer
    exact ⟨t, rfl, hexact n hanswer.symm⟩
  · rintro t rfl hresults
    obtain ⟨answer, heval, -, hstays⟩ := t.computes h
    obtain ⟨n, rfl⟩ := hstays hresults
    exact ⟨n, _, Prod.ext (on_evalStatement_tokens ev t heval) rfl⟩

theorem times_multiplicative : Kind.times = .times ∨ Kind.times = .divide := .inl rfl

/-- The tree of `a * 6 / 4 - 30`. -/
def differenceOfQuotient : Expression .last :=
  .binary
    (.single (.binary
      (.binary (.single (.symbol ⟨⟨.symbol, "a", .nil, ⟨1, 1, 0⟩⟩, rfl⟩))
        ⟨⟨.times, "*", .nil, ⟨1, 3, 2⟩⟩, times_multiplicative⟩
        (.literal ⟨⟨.int, "6", .integer 6, ⟨1, 5, 4⟩⟩, rfl⟩))
      ⟨⟨.divide, "/", .nil, ⟨1, 7, 6⟩⟩, .inr rfl⟩
      (.literal ⟨⟨.int, "4", .integer 4, ⟨1, 9, 8⟩⟩, rfl⟩)))
    ⟨⟨.minus, "-", .nil, ⟨1, 11, 10⟩⟩, .inr rfl⟩
    (.single (.literal ⟨⟨.int, "30", .integer 30, ⟨1, 13, 12⟩⟩, rfl⟩))

/-- With `a = 14` the statement `a * 6 / 4 - 30` is -9: the quotient is whole. -/
theorem evalStatement_differenceOfQuotient :
    let w : World Unit := ⟨Forest.root.putSymbol 0 "a" (.integer 14), (), []⟩
    (∀ tk ∈ differenceOfQuotient.tokens, IsArithmetic (w.forest.symbol? 0) tk) ∧
      ∃ n w', on (Evaluator.evalStatement ⟨0, none, none⟩ differenceOfQuotient.tokens) w =
        (.ok (.integer n), w') ∧ n.toInt = -9 := by
  intro w
  have ha : w.forest.symbol? 0 "a" = some (.integer 14) := by
    have hput := Forest.get?_put Forest.symbolField_lawful (f := Forest.root) (i := 0) (by decide)
      "a" "a" (.integer 14)
    rwa [if_pos rfl] at hput
  have h : ∀ tk ∈ differenceOfQuotient.tokens, IsArithmetic (w.forest.symbol? 0) tk := by
    simp [differenceOfQuotient, Expression.tokens, Term.tokens, Primary.tokens, IsArithmetic,
      isOperator, ha]
  have hvalue : differenceOfQuotient.rational? (w.forest.symbol? 0) = some (-9) ∧
      differenceOfQuotient.results (w.forest.symbol? 0) = [some 84, some 21, some (-9)] := by
    simp [differenceOfQuotient, Expression.results, Term.results, Expression.rational?,
      Term.rational?, Primary.rational?, ha, Value.rational?, Operator.rational?,
      multiplicativeOperator, additiveOperator]
    norm_num
  have hintegers : ∀ r ∈ differenceOfQuotient.results (w.forest.symbol? 0), IsInteger r := by
    simp only [hvalue.2, List.forall_mem_cons]
    exact ⟨⟨84, rfl⟩, ⟨21, rfl⟩, ⟨-9, rfl⟩, List.forall_mem_nil _⟩
  have hexact := evalStatement_integer_exact ⟨0, none, none⟩ _ w h
  obtain ⟨n, w', hn⟩ := hexact.2 _ rfl hintegers
  obtain ⟨t, ht, hrational⟩ := hexact.1 n w' hn
  rw [tokens_injective ht, hvalue.1, Option.some.injEq] at hrational
  exact ⟨h, n, w', hn, by exact_mod_cast hrational.symm⟩

end Grammar
end ChartScript
