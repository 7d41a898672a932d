import ChartScript.Proofs.Eval.Acts
import ChartScript.Proofs.Eval.Replay
import Mathlib.Logic.Function.Iterate

/-!
# Ways of running a script

A source can be run as a whole, its tokens can be run by `parseAll`, or a caller can ask for one
statement after the other and stop at an error of its own accord. These are three loops, and they
come to the same end: `evalSource_ways`. To follow a caller there is a relation, `Stepwise`, which
is functional; the other two are shown to follow it.

Where a run stops is said by a cut of its tokens. Any tokens are statements with their terminators
and a rest without one (`exists_terminated`), and `cut_induction` goes from one statement to the
next. A run fails where a statement fails behind statements that complete (`run_eq_error_iff`), and
what stands behind the terminator of that statement has no part in it.
-/

set_option autoImplicit false

namespace ChartScript

open Step

variable {σ : Type}

/-! ## Cutting any tokens -/

/-- Any tokens are statements with their terminators, and a rest without one. -/
theorem exists_terminated (tokens : List Token) :
    ∃ front stmts tail, tokens = front ++ tail ∧ Terminated front stmts ∧
      ∀ tk ∈ tail, tk.kind ≠ .semicolon := by
  induction tokens with
  | nil => exact ⟨[], [], [], rfl, .nil, fun tk htk => by cases htk⟩
  | cons tk tokens ih =>
    obtain ⟨front, stmts, tail, rfl, hfront, htail⟩ := ih
    by_cases hk : tk.kind = .semicolon
    · have hempty : Terminated ([] ++ tk :: front) ([] :: stmts) :=
        .cons (fun tk htk => by cases htk) hk hfront
      exact ⟨tk :: front, [] :: stmts, tail, rfl, hempty, htail⟩
    · -- The token begins the first statement, or the rest if there is no statement.
      cases hfront with
      | nil =>
        refine ⟨[], [], tk :: tail, rfl, .nil, ?_⟩
        exact List.forall_mem_cons.2 ⟨hk, htail⟩
      | @cons stmt semi rest stmts inside ends others =>
        have hlonger : Terminated ((tk :: stmt) ++ semi :: rest) ((tk :: stmt) :: stmts) :=
          .cons (List.forall_mem_cons.2 ⟨hk, inside⟩) ends others
        exact ⟨tk :: (stmt ++ semi :: rest), (tk :: stmt) :: stmts, tail, rfl, hlonger, htail⟩

/-- What holds of tokens without a terminator, and of more tokens if it holds behind their first
terminator, holds of all tokens. -/
theorem cut_induction {motive : List Token → Prop}
    (unended : ∀ tail, (∀ tk ∈ tail, tk.kind ≠ .semicolon) → motive tail)
    (ended : ∀ stmt semi rest, (∀ tk ∈ stmt, tk.kind ≠ .semicolon) → semi.kind = .semicolon →
      motive rest → motive (stmt ++ semi :: rest)) (tokens : List Token) : motive tokens := by
  obtain ⟨front, stmts, tail, rfl, hfront, htail⟩ := exists_terminated tokens
  induction hfront with
  | nil => exact unended tail htail
  | @cons stmt semi rest stmts inside ends others ih =>
    rw [List.append_assoc, List.cons_append]
    exact ended stmt semi (rest ++ tail) inside ends ih

/-- The fault of tokens without a terminator. -/
def endFault (tail : List Token) : Fault :=
  .malformed ⟨(tail.head?.map Token.pos).getD .none, .endOfInput, []⟩

namespace Cursor

variable {stmt tail : List Token} {semi : Token}

theorem segment_unended (htail : ∀ tk ∈ tail, tk.kind ≠ .semicolon) (seen taken : List Token) :
    (Cursor.mk seen tail).segment taken =
      (.error (endFault (taken.reverse ++ tail)), ⟨tail.reverse ++ seen, []⟩) := by
  induction tail generalizing seen taken with
  | nil =>
    rw [segment, if_neg (by rw [Expr.hasNext_nil]; decide), List.append_nil, endFault,
      List.head?_reverse]
    rfl
  | cons tk tail ih =>
    have hrest := List.forall_mem_cons.1 htail
    rw [segment_cons, if_neg hrest.1, ih hrest.2]
    simp

theorem afterStatement_ended (inside : ∀ tk ∈ stmt, tk.kind ≠ .semicolon)
    (ends : semi.kind = .semicolon) (seen rest : List Token) :
    (Cursor.mk seen (stmt ++ semi :: rest)).afterStatement =
      ⟨semi :: (stmt.reverse ++ seen), rest⟩ := by
  rw [afterStatement, segment_terminated inside ends]

theorem afterStatement_unended (htail : ∀ tk ∈ tail, tk.kind ≠ .semicolon) (seen : List Token) :
    (Cursor.mk seen tail).afterStatement = ⟨tail.reverse ++ seen, []⟩ := by
  rw [afterStatement, segment_unended htail]

end Cursor

/-! ## One statement after the other -/

namespace Evaluator

theorem on_parseStatement (ev : Evaluator σ) (c : Cursor) (w : World σ) :
    on (ev.parseStatement c) w =
      match (c.segment []).1 with
      | .ok stmt => on (ev.evalStatement stmt) w
      | .error f => (.error (.fault f), ev.afterFault f w) := by
  unfold parseStatement
  rw [on_bind, on_nextStatement]
  cases (c.segment []).1 <;> rfl

theorem run_parseAll (ev : Evaluator σ) (c : Cursor) (w : World σ) :
    (ev.parseAll c).run w =
      if c.hasNext then
        match on (ev.parseStatement c) w with
        | (.error e, w') => ((some e, c.afterStatement), w')
        | (.ok _, w') => (ev.parseAll c.afterStatement).run w'
      else ((none, c), w) := by
  rw [parseAll]
  by_cases hnext : c.hasNext = true
  · rw [dif_pos hnext, if_pos hnext, run_bind]
    unfold on
    cases (ev.parseStatement c).run.run w with
    | mk answer w' => cases answer <;> rfl
  · rw [dif_neg hnext, if_neg hnext]
    rfl

/-- Calls of `parseStatement` until the tokens are used up or a call fails: the error, if there is
one, and the world then. -/
inductive Stepwise (ev : Evaluator σ) : Cursor → World σ → Option EvalError → World σ → Prop where
  | done {c : Cursor} {w : World σ} (h : c.hasNext = false) : Stepwise ev c w none w
  | failed {c : Cursor} {w w' : World σ} {e : EvalError} (h : c.hasNext = true)
      (call : on (ev.parseStatement c) w = (.error e, w')) : Stepwise ev c w (some e) w'
  | next {c : Cursor} {w w₁ w' : World σ} {v : Value} {error : Option EvalError}
      (h : c.hasNext = true) (call : on (ev.parseStatement c) w = (.ok v, w₁))
      (rest : Stepwise ev c.afterStatement w₁ error w') : Stepwise ev c w error w'

theorem stepwise_parseAll (ev : Evaluator σ) (c : Cursor) (w : World σ) :
    ev.Stepwise c w ((ev.parseAll c).run w).1.1 ((ev.parseAll c).run w).2 := by
  induction c using Cursor.statement_induction generalizing w with
  | h c ih =>
    rw [run_parseAll]
    by_cases hnext : c.hasNext = true
    · rw [if_pos hnext]
      cases hcall : on (ev.parseStatement c) w with
      | mk answer w' =>
        cases answer with
        | error e => exact .failed hnext hcall
        | ok v => exact .next hnext hcall (ih hnext w')
    · rw [if_neg hnext]
      exact .done (Bool.eq_false_iff.2 hnext)

theorem stepwise_evalStatements (ev : Evaluator σ) (c : Cursor) (w : World σ) :
    ev.Stepwise c w ((ev.evalStatements c).run w).1.2 ((ev.evalStatements c).run w).2 := by
  induction c using Cursor.statement_induction generalizing w with
  | h c ih =>
    have hcall := ev.on_parseStatement c w
    rw [run_evalStatements]
    by_cases hnext : c.hasNext = true
    · rw [if_pos hnext, on_nextStatement]
      cases hseg : (c.segment []).1 with
      | error f =>
        rw [hseg] at hcall
        exact .failed hnext hcall
      | ok stmt =>
        rw [hseg] at hcall
        dsimp only at hcall ⊢
        cases hstmt : on (ev.evalStatement stmt) w with
        | mk answer w' =>
          rw [hstmt] at hcall
          cases answer with
          | error e => exact .failed hnext hcall
          | ok v => exact .next hnext hcall (ih hnext w')
    · rw [if_neg hnext]
      exact .done (Bool.eq_false_iff.2 hnext)

theorem Stepwise.unique {ev : Evaluator σ} {c : Cursor} {w w' w'' : World σ}
    {error error' : Option EvalError} (h : ev.Stepwise c w error w')
    (h' : ev.Stepwise c w error' w'') : error = error' ∧ w' = w'' := by
  induction h with
  | done hnone =>
    cases h' with
    | done => exact ⟨rfl, rfl⟩
    | failed hnext => rw [hnone] at hnext; cases hnext
    | next hnext => rw [hnone] at hnext; cases hnext
  | failed hnext hcall =>
    cases h' with
    | done hnone => rw [hnone] at hnext; cases hnext
    | failed _ hcall' =>
      rw [hcall] at hcall'
      cases hcall'
      exact ⟨rfl, rfl⟩
    | next _ hcall' =>
      rw [hcall] at hcall'
      cases hcall'
  | next hnext hcall rest ih =>
    cases h' with
    | done hnone => rw [hnone] at hnext; cases hnext
    | failed _ hcall' =>
      rw [hcall] at hcall'
      cases hcall'
    | next _ hcall' rest' =>
      rw [hcall] at hcall'
      cases hcall'
      exact ih rest'

/-! ## Where a run stops -/

section

variable (ev : Evaluator σ) {stmt tail : List Token} {semi : Token} {e : EvalError} {w w' : World σ}

theorem hasNext_ended (seen stmt : List Token) (semi : Token) (rest : List Token) :
    (Cursor.mk seen (stmt ++ semi :: rest)).hasNext = true := by
  cases stmt with
  | nil => exact Expr.hasNext_cons seen semi rest
  | cons tk stmt => exact Expr.hasNext_cons seen tk _

theorem run_evalStatements_failed (inside : ∀ tk ∈ stmt, tk.kind ≠ .semicolon)
    (ends : semi.kind = .semicolon) (h : on (ev.evalStatement stmt) w = (.error e, w'))
    (seen rest : List Token) :
    (ev.evalStatements ⟨seen, stmt ++ semi :: rest⟩).run w = (([], some e), w') := by
  rw [run_evalStatements, if_pos (hasNext_ended seen stmt semi rest), on_nextStatement,
    Cursor.segment_terminated inside ends]
  dsimp only [List.reverse_nil, List.nil_append]
  rw [h]

theorem run_evalStatements_unended (htail : ∀ tk ∈ tail, tk.kind ≠ .semicolon) (hne : tail ≠ [])
    (seen : List Token) (w : World σ) :
    (ev.evalStatements ⟨seen, tail⟩).run w =
      (([], some (.fault (endFault tail))), ev.afterFault (endFault tail) w) := by
  obtain ⟨tk, tail, rfl⟩ := List.exists_cons_of_ne_nil hne
  rw [run_evalStatements, if_pos (Expr.hasNext_cons seen tk tail), on_nextStatement,
    Cursor.segment_unended htail]
  rfl

end

/-- Statements that complete one after the other, with their terminators and their results. -/
inductive Completes (ev : Evaluator σ) : World σ → List Token → List Result → World σ → Prop where
  | nil (w : World σ) : Completes ev w [] [] w
  | cons {stmt front : List Token} {semi : Token} {v : Value} {results : List Result}
      {w w₁ w' : World σ} (inside : ∀ tk ∈ stmt, tk.kind ≠ .semicolon)
      (ends : semi.kind = .semicolon) (h : on (ev.evalStatement stmt) w = (.ok v, w₁))
      (others : Completes ev w₁ front results w') :
      Completes ev w (stmt ++ semi :: front) (resultsFrom stmt v results) w'

/-- A statement that fails, with what stands behind it. -/
inductive Breaks (ev : Evaluator σ) (w : World σ) : List Token → EvalError → World σ → Prop where
  | within {stmt : Statement} {semi : Token} {e : EvalError} {w' : World σ}
      (inside : ∀ tk ∈ stmt, tk.kind ≠ .semicolon) (ends : semi.kind = .semicolon)
      (h : on (ev.evalStatement stmt) w = (.error e, w')) (rest : List Token) :
      Breaks ev w (stmt ++ semi :: rest) e w'
  | unended {tail : List Token} (htail : ∀ tk ∈ tail, tk.kind ≠ .semicolon) (hne : tail ≠ []) :
      Breaks ev w tail (.fault (endFault tail)) (ev.afterFault (endFault tail) w)

theorem resultsFrom_append (stmt : Statement) (v : Value) (results more : List Result) :
    resultsFrom stmt v (results ++ more) = resultsFrom stmt v results ++ more := by
  unfold resultsFrom
  cases stmt.isEmpty <;> rfl

/-- A run goes on behind the statements that complete. -/
theorem Completes.run_append {ev : Evaluator σ} {w w₁ : World σ} {front : List Token}
    {results : List Result} (h : ev.Completes w front results w₁) (seen more : List Token) :
    (ev.evalStatements ⟨seen, front ++ more⟩).run w =
      let run := (ev.evalStatements ⟨front.reverse ++ seen, more⟩).run w₁
      ((results ++ run.1.1, run.1.2), run.2) := by
  induction h generalizing seen with
  | nil w => rfl
  | @cons stmt front semi v results w w₁ w' inside ends hstmt others ih =>
    rw [List.append_assoc, List.cons_append, ev.run_evalStatements_cons inside ends seen _ hstmt,
      ih (semi :: (stmt.reverse ++ seen))]
    simp [resultsFrom_append]

/-- A run fails where a statement fails behind statements that complete, and nowhere else. -/
theorem run_eq_error_iff (ev : Evaluator σ) {seen tokens : List Token} {w w' : World σ}
    {results : List Result} {e : EvalError} :
    (ev.evalStatements ⟨seen, tokens⟩).run w = ((results, some e), w') ↔
      ∃ front more w₁, tokens = front ++ more ∧ ev.Completes w front results w₁ ∧
        ev.Breaks w₁ more e w' := by
  constructor
  · intro h
    -- The first statement breaks off, fails or completes; only then is there a run behind it.
    induction tokens using cut_induction generalizing seen w results with
    | unended tail htail =>
      cases tail with
      | nil =>
        rw [run_evalStatements_nil] at h
        cases h
      | cons tk tail =>
        have hne : tk :: tail ≠ [] := List.cons_ne_nil tk tail
        rw [ev.run_evalStatements_unended htail hne] at h
        cases h
        exact ⟨[], tk :: tail, w, rfl, .nil w, .unended htail hne⟩
    | ended stmt semi rest inside ends ih =>
      cases hstmt : on (ev.evalStatement stmt) w with
      | mk answer w₁ =>
        cases answer with
        | error e' =>
          rw [ev.run_evalStatements_failed inside ends hstmt] at h
          cases h
          exact ⟨[], _, w, rfl, .nil w, .within inside ends hstmt rest⟩
        | ok v =>
          rw [ev.run_evalStatements_cons inside ends seen rest hstmt] at h
          obtain ⟨hout, hworld⟩ := Prod.mk.inj h
          obtain ⟨rfl, herror⟩ := Prod.mk.inj hout
          obtain ⟨front, more, w₂, rfl, hfront, hmore⟩ := ih (Prod.ext (Prod.ext rfl herror) hworld)
          refine ⟨stmt ++ semi :: front, more, w₂, ?_, .cons inside ends hstmt hfront, hmore⟩
          rw [List.append_assoc, List.cons_append]
  · rintro ⟨front, more, w₁, rfl, hfront, hmore⟩
    rw [hfront.run_append]
    cases hmore with
    | within inside ends hstmt rest =>
      rw [ev.run_evalStatements_failed inside ends hstmt]
      dsimp only
      rw [List.append_nil]
    | unended htail hne =>
      rw [ev.run_evalStatements_unended htail hne]
      dsimp only
      rw [List.append_nil]

/-! ## What is recorded -/

/-- Whoever answers calls leaves alone what the scope has recorded. -/
def KeepsRecords (ev : Evaluator σ) : Prop :=
  ∀ d, ev.dispatcher = some d → ∀ name args f h, ev.scope < f.size →
    let reply := d.invoke ⟨name, args, some ev.scope⟩ f h
    ev.scope < reply.2.1.size ∧
      (reply.2.1.scope ev.scope).statements = (f.scope ev.scope).statements

theorem KeepsRecords.effect {ev : Evaluator σ} (hev : ev.KeepsRecords) (act : Act)
    {s : Forest × σ} (hi : ev.scope < s.1.size) :
    ev.scope < (act.effect ev s).1.size ∧
      ((act.effect ev s).1.scope ev.scope).statements =
        (s.1.scope ev.scope).statements ++ act.result?.toList.map Result.statement := by
  cases act with
  | store name v =>
    refine ⟨?_, ?_⟩
    · rwa [Act.effect, Forest.putSymbol, Forest.put, Forest.size_modify]
    · rw [Act.effect, Forest.putSymbol, Forest.statements_put Forest.symbolField_mem]
      exact (List.append_nil _).symm
  | call fn args =>
    rw [Act.effect]
    cases hd : ev.dispatcher with
    | none => exact ⟨hi, (List.append_nil _).symm⟩
    | some d =>
      have hcall := hev d hd fn.lexeme args s.1 s.2 hi
      exact ⟨hcall.1, hcall.2.trans (List.append_nil _).symm⟩
  | record stmt v =>
    refine ⟨?_, ?_⟩
    · rwa [Act.effect, Forest.addStatement, Forest.size_modify]
    · rw [Act.effect, Forest.statements_addStatement hi]
      rfl
  | reject e => exact ⟨hi, (List.append_nil _).symm⟩

theorem KeepsRecords.statements {ev : Evaluator σ} (hev : ev.KeepsRecords) (acts : List Act)
    {s : Forest × σ} (hi : ev.scope < s.1.size) :
    ((acts.foldl (Act.effect ev) s).1.scope ev.scope).statements =
      (s.1.scope ev.scope).statements ++ (acts.filterMap Act.result?).map Result.statement := by
  induction acts generalizing s with
  | nil => exact (List.append_nil _).symm
  | cons act acts ih =>
    obtain ⟨hi', hact⟩ := hev.effect act hi
    rw [List.foldl_cons, ih hi', hact, List.append_assoc, ← List.map_append,
      List.filterMap_eq_flatMap_toList, List.filterMap_eq_flatMap_toList, List.flatMap_cons]

/-! ## Call by call -/

/-- A call of `parseStatement`: the place in the tokens behind it, and the world. -/
def parseNext (ev : Evaluator σ) (s : Cursor × World σ) : Cursor × World σ :=
  (s.1.afterStatement, (on (ev.parseStatement s.1) s.2).2)

/-- Calls one after the other, whether they fail or not: each takes one statement and its
terminator, and the call behind the last statement takes the rest. -/
structure TakesEach (ev : Evaluator σ) (stmts : List Statement) (tail : List Token)
    (s : Cursor × World σ) : Prop where
  each : ∀ k stmt, stmts[k]? = some stmt → ∃ semi, semi.kind = .semicolon ∧
    (ev.parseNext^[k] s).1.ahead = stmt ++ semi :: (ev.parseNext^[k + 1] s).1.ahead ∧
    on (ev.parseStatement (ev.parseNext^[k] s).1) (ev.parseNext^[k] s).2 =
      on (ev.evalStatement stmt) (ev.parseNext^[k] s).2
  rest : (ev.parseNext^[stmts.length] s).1.ahead = tail
  last : (ev.parseNext^[stmts.length + 1] s).1.ahead = []

theorem takesEach (ev : Evaluator σ) {front tail : List Token} {stmts : List Statement}
    (hfront : Terminated front stmts) (htail : ∀ tk ∈ tail, tk.kind ≠ .semicolon)
    (seen : List Token) (w : World σ) : ev.TakesEach stmts tail (⟨seen, front ++ tail⟩, w) := by
  induction hfront generalizing seen w with
  | nil =>
    refine ⟨fun k stmt h => (by cases h), rfl, ?_⟩
    exact congrArg Cursor.ahead (Cursor.afterStatement_unended htail seen)
  | @cons stmt semi rest stmts inside ends others ih =>
    have hsplit : (stmt ++ semi :: rest) ++ tail = stmt ++ semi :: (rest ++ tail) := by
      rw [List.append_assoc, List.cons_append]
    have hcall : on (ev.parseStatement ⟨seen, stmt ++ semi :: (rest ++ tail)⟩) w =
        on (ev.evalStatement stmt) w := by
      rw [on_parseStatement, Cursor.segment_terminated inside ends]
      rfl
    have hnext : ev.parseNext (⟨seen, stmt ++ semi :: (rest ++ tail)⟩, w) =
        (⟨semi :: (stmt.reverse ++ seen), rest ++ tail⟩, (on (ev.evalStatement stmt) w).2) := by
      rw [parseNext, Cursor.afterStatement_ended inside ends, hcall]
    obtain ⟨heach, hrest, hlast⟩ :=
      ih (semi :: (stmt.reverse ++ seen)) (on (ev.evalStatement stmt) w).2
    rw [hsplit]
    refine ⟨fun k stmt' hk => ?_, ?_, ?_⟩
    · cases k with
      | zero =>
        cases hk
        refine ⟨semi, ends, ?_, hcall⟩
        rw [Function.iterate_one, hnext]
        rfl
      | succ k =>
        rw [Function.iterate_succ_apply, Function.iterate_succ_apply, hnext]
        exact heach k stmt' hk
    · rw [List.length_cons, Function.iterate_succ_apply, hnext]
      exact hrest
    · rw [List.length_cons, Function.iterate_succ_apply, hnext]
      exact hlast

/-! ## All of them -/

/-- What comes of some tokens, whichever way they are run. -/
structure RunsTo (ev : Evaluator σ) (tokens : List Token) (w : World σ) (results : List Result)
    (error : Option EvalError) (w' : World σ) : Prop where
  evalSource : ∀ source, lex source = .ok tokens →
    (ev.evalSource source).run w = ((results, error.map .evaluation), w')
  parseAll : ∃ c, (ev.parseAll (.ofList tokens)).run w = ((error, c), w')
  stepwise : ∀ error' w'',
    ev.Stepwise (.ofList tokens) w error' w'' ↔ error' = error ∧ w'' = w'

theorem runsTo_of_run (ev : Evaluator σ) {tokens : List Token} {w w' : World σ}
    {results : List Result} {error : Option EvalError}
    (h : (ev.evalStatements (.ofList tokens)).run w = ((results, error), w')) :
    ev.RunsTo tokens w results error w' := by
  have hstep := ev.stepwise_evalStatements (.ofList tokens) w
  rw [h] at hstep
  refine ⟨fun source hlex => ?_, ?_, fun error' w'' => ⟨fun h' => h'.unique hstep, ?_⟩⟩
  · rw [ev.run_evalSource hlex, h]
  · obtain ⟨herror, hworld⟩ := (ev.stepwise_parseAll (.ofList tokens) w).unique hstep
    exact ⟨_, Prod.ext (Prod.ext herror rfl) hworld⟩
  · rintro ⟨rfl, rfl⟩
    exact hstep

/-- A run that fails has completed the statements ahead of one that fails. Behind the terminator of
that one there may be anything; without a terminator there is nothing behind it. -/
def FailsFast (ev : Evaluator σ) (tokens : List Token) (w : World σ) (results : List Result)
    (e : EvalError) (w' : World σ) : Prop :=
  ∃ front w₁, ev.Completes w front results w₁ ∧
    ((∃ stmt semi rest, tokens = front ++ (stmt ++ semi :: rest) ∧
        (∀ tk ∈ stmt, tk.kind ≠ .semicolon) ∧ semi.kind = .semicolon ∧
        on (ev.evalStatement stmt) w₁ = (.error e, w') ∧
        ∀ rest', ev.RunsTo (front ++ (stmt ++ semi :: rest')) w results (some e) w') ∨
      ∃ tail, tokens = front ++ tail ∧ tail ≠ [] ∧ (∀ tk ∈ tail, tk.kind ≠ .semicolon) ∧
        e = .fault (endFault tail))

theorem failsFast_of_run (ev : Evaluator σ) {tokens : List Token} {w w' : World σ}
    {results : List Result} {e : EvalError}
    (h : (ev.evalStatements (.ofList tokens)).run w = ((results, some e), w')) :
    ev.FailsFast tokens w results e w' := by
  obtain ⟨front, more, w₁, rfl, hfront, hmore⟩ := ev.run_eq_error_iff.1 h
  refine ⟨front, w₁, hfront, ?_⟩
  cases hmore with
  | @within stmt semi _ _ inside ends hstmt rest =>
    refine .inl ⟨stmt, semi, rest, rfl, inside, ends, hstmt, fun rest' => ev.runsTo_of_run ?_⟩
    exact ev.run_eq_error_iff.2 ⟨front, _, w₁, rfl, hfront, .within inside ends hstmt rest'⟩
  | unended htail hne => exact .inr ⟨more, rfl, hne, htail, rfl⟩

/-- **All ways of running a script agree, and they fail fast.** A source that lexes, its tokens and
the calls for one statement after the other come to the same error, if any, and to the same world;
what the run recorded are the statements of its results, also when it fails; what stands behind the
terminator of a statement that fails has no effect; and a call takes one statement and its
terminator, whatever became of the calls before. -/
theorem evalSource_ways (ev : Evaluator σ) {source : Bytes} {tokens : List Token}
    (hlex : lex source = .ok tokens) (w : World σ) :
    let run := (ev.evalSource source).run w
    ∃ error, run.1.2 = error.map .evaluation ∧ ev.RunsTo tokens w run.1.1 error run.2 ∧
      (∃ acts, run.2 = w.after ev acts ∧ acts.filterMap Act.result? = run.1.1) ∧
      (ev.KeepsRecords → ev.scope < w.forest.size →
        (run.2.forest.scope ev.scope).statements =
          (w.forest.scope ev.scope).statements ++ run.1.1.map Result.statement) ∧
      (∀ e, error = some e → ev.FailsFast tokens w run.1.1 e run.2) ∧
      ∃ front stmts tail, tokens = front ++ tail ∧ Terminated front stmts ∧
        (∀ tk ∈ tail, tk.kind ≠ .semicolon) ∧ ev.TakesEach stmts tail (.ofList tokens, w) := by
  obtain ⟨out, acts, hheard, hresults, -⟩ := ev.evalSource_acts source w.state
  have hacts : (ev.evalSource source).run w = (out, w.after ev acts) := hheard ev.logger w rfl
  cases hrun : (ev.evalStatements (.ofList tokens)).run w with
  | mk answer w' =>
    obtain ⟨results, error⟩ := answer
    have hsource := (ev.runsTo_of_run hrun).evalSource source hlex
    obtain ⟨rfl, rfl⟩ := Prod.mk.inj (hacts.symm.trans hsource)
    dsimp only
    rw [hsource]
    refine ⟨error, rfl, ev.runsTo_of_run hrun, ⟨acts, rfl, hresults⟩, fun hkeeps hi => ?_, ?_, ?_⟩
    · rw [← hresults]
      exact hkeeps.statements acts hi
    · rintro e rfl
      exact ev.failsFast_of_run hrun
    · obtain ⟨front, stmts, tail, rfl, hfront, htail⟩ := exists_terminated tokens
      exact ⟨front, stmts, tail, rfl, hfront, htail, ev.takesEach hfront htail [] w⟩

theorem standard_keepsRecords (logger : Option Logger) : (standard logger).KeepsRecords := by
  intro d hd name args f h hi
  obtain rfl : FunctionTable.standard.dispatcher = d := Option.some.inj hd
  have hfoot := FunctionTable.footprint_invoke name args (standard logger).scope f h
  exact ⟨hfoot.size ▸ hi, hfoot.statements (standard logger).scope⟩

theorem symbol?_root (name : Bytes) : Forest.root.symbol? 0 name = none := by
  unfold Forest.symbol? Forest.get? Forest.holder?
  rw [Forest.chain_of_root rfl]
  rfl

theorem on_unbound {tk : Token} (hkind : tk.kind = .symbol) :
    on ((standard none).evalStatement [tk]) (.fresh {}) =
      (.error (.uninitialized tk.lexeme tk.pos), .fresh {}) := by
  let tree : Grammar.Expression .last := .single (.single (.symbol ⟨tk, hkind⟩))
  have hstmt : [tk] = tree.tokens := rfl
  have htree : (standard none).evalExpr tree.toExpr = (standard none).readSymbol tk := rfl
  rw [hstmt, on_evalStatement _ tree.startsOperand.ne_nil, Grammar.parse_tokens]
  dsimp only
  rw [htree, on_readSymbol, World.fresh, standard, symbol?_root]

/-- `b;c;` stops at `b`, and so do its tokens. -/
theorem evalSource_ways_unbound :
    ∃ tokens pos c, lex "b;c;" = .ok tokens ∧
      ((standard none).evalSource "b;c;").run (.fresh {}) =
        (([], some (.evaluation (.uninitialized "b" pos))), .fresh {}) ∧
      ((standard none).parseAll (.ofList tokens)).run (.fresh {}) =
        ((some (.uninitialized "b" pos), c), .fresh {}) ∧
      ((((standard none).evalSource "b;c;").run (.fresh {})).2.forest.scope 0).statements = [] := by
  have hreads : Reads "b;c;" [⟨.symbol, "b", .nil, .start⟩, ⟨.semicolon, ";", .nil, .start⟩,
      ⟨.symbol, "c", .nil, .start⟩, ⟨.semicolon, ";", .nil, .start⟩] := by
    apply reads_of_names <;> decide +kernel
  obtain ⟨tokens, hlex, hagrees⟩ := hreads
  obtain ⟨b, rest, hb, hrest, rfl⟩ := List.forall₂_cons_right_iff.1 hagrees
  obtain ⟨semi, rest, hsemi, -, rfl⟩ := List.forall₂_cons_right_iff.1 hrest
  have hlexeme : b.lexeme = "b" := hb.lexeme (.inr (.inr (.inl hb.kind)))
  have hinside : ∀ tk ∈ [b], tk.kind ≠ .semicolon := by
    rw [List.forall_mem_singleton, hb.kind]
    decide
  have hfails := on_unbound hb.kind
  rw [hlexeme] at hfails
  have hstops := (standard none).run_evalStatements_failed hinside hsemi.kind hfails [] rest
  have hrun := (standard none).run_evalSource hlex (.fresh {})
  obtain ⟨error, herror, hways, -, hrecords, -⟩ := evalSource_ways (standard none) hlex (.fresh {})
  have hkept := hrecords (standard_keepsRecords none) (Nat.lt_succ_self 0)
  obtain ⟨c, hall⟩ := hways.parseAll
  have hstart : Cursor.ofList (b :: semi :: rest) = ⟨[], [b] ++ semi :: rest⟩ := rfl
  rw [hstart, hstops] at hrun
  dsimp only at hrun
  rw [hrun] at herror hall hkept
  cases error with
  | none => cases herror
  | some e =>
    cases herror
    exact ⟨_, b.pos, c, hlex, hrun, hall, by rw [hrun]; exact hkept⟩

end Evaluator

end ChartScript
