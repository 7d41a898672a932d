import ChartScript.Proofs.Eval.Ways

/-!
# Scripts that break off

A statement ends with its terminator, and it is evaluated only when its end has been seen. So what
stands behind the last terminator of a script is not evaluated at all: the run does what a run of
the tokens up to there does, and then it ends in an error at the first token that is left over
(`run_evalStatements_breaksOff`). Whoever reads a script line by line can tell such a script by its
last token before running it; `evalSource_unterminated` says that both come to the same.
-/

set_option autoImplicit false

namespace ChartScript

open Step

variable {σ : Type}

/-- `first` is the first token behind the last terminator, and `front` is what stands before it. -/
structure LeftOver (tokens front : List Token) (first : Token) : Prop where
  ended : ∀ tk ∈ front.getLast?, tk.kind = .semicolon
  unended : ∃ tail, tokens = front ++ first :: tail ∧ ∀ tk ∈ first :: tail, tk.kind ≠ .semicolon

theorem isOpen_iff (tokens : List Token) :
    isOpen tokens = true ↔ ∃ last, tokens.getLast? = some last ∧ last.kind ≠ .semicolon := by
  rw [isOpen, List.getLast?_map, Option.any_map]
  simp [Option.any_eq_true]

theorem isOpen_eq_false_iff (tokens : List Token) :
    isOpen tokens = false ↔ ∀ tk ∈ tokens.getLast?, tk.kind = .semicolon := by
  rw [← Bool.not_eq_true, isOpen_iff]
  constructor
  · intro h tk htk
    by_contra hk
    exact h ⟨tk, htk, hk⟩
  · rintro h ⟨tk, htk, hk⟩
    exact hk (h tk htk)

/-- Tokens that do not end in the middle of a statement are cut into statements. -/
theorem exists_stmts {tokens : List Token} (h : isOpen tokens = false) :
    ∃ stmts, Terminated tokens stmts := by
  obtain ⟨front, stmts, tail, rfl, hfront, htail⟩ := exists_terminated tokens
  cases tail with
  | nil => exact ⟨stmts, by rwa [List.append_nil]⟩
  | cons tk tail =>
    rw [isOpen_append_cons] at h
    cases Terminated.eq_nil_of_inside htail h

/-- Behind the last terminator of an open script stands a token. -/
theorem exists_leftOver {tokens : List Token} (h : isOpen tokens = true) :
    ∃ front first, LeftOver tokens front first := by
  obtain ⟨front, stmts, tail, rfl, hfront, htail⟩ := exists_terminated tokens
  cases tail with
  | nil =>
    rw [List.append_nil, hfront.isOpen_eq_false] at h
    cases h
  | cons first tail =>
    have hended := (isOpen_eq_false_iff front).1 hfront.isOpen_eq_false
    exact ⟨front, first, hended, tail, rfl, htail⟩

namespace Evaluator

variable (ev : Evaluator σ)

/-- How a run ends that finds a statement without a terminator behind all others: as a run of the
others, unless they completed. -/
def breakOff (first : Token) (run : (List Result × Option EvalError) × World σ) :
    (List Result × Option EvalError) × World σ :=
  match run with
  | ((results, some e), w) => ((results, some e), w)
  | ((results, none), w) =>
    ((results, some (.fault (endFault [first]))), ev.afterFault (endFault [first]) w)

theorem run_evalStatements_breaksOff {front : List Token} {stmts : List Statement}
    (hfront : Terminated front stmts) {first : Token} {tail : List Token}
    (htail : ∀ tk ∈ first :: tail, tk.kind ≠ .semicolon) (seen : List Token) (w : World σ) :
    (ev.evalStatements ⟨seen, front ++ first :: tail⟩).run w =
      ev.breakOff first ((ev.evalStatements ⟨seen, front⟩).run w) := by
  induction hfront generalizing seen w with
  | nil =>
    rw [List.nil_append, ev.run_evalStatements_unended htail (List.cons_ne_nil first tail),
      run_evalStatements_nil]
    rfl
  | @cons stmt semi rest stmts inside ends others ih =>
    rw [List.append_assoc, List.cons_append]
    cases hstmt : on (ev.evalStatement stmt) w with
    | mk answer w₁ =>
      cases answer with
      | error e =>
        rw [ev.run_evalStatements_failed inside ends hstmt,
          ev.run_evalStatements_failed inside ends hstmt]
        rfl
      | ok v =>
        rw [ev.run_evalStatements_cons inside ends seen _ hstmt,
          ev.run_evalStatements_cons inside ends seen _ hstmt, ih]
        dsimp only
        generalize (ev.evalStatements ⟨semi :: (stmt.reverse ++ seen), rest⟩).run w₁ = run
        obtain ⟨⟨results, error⟩, w'⟩ := run
        cases error <;> rfl

/-- A run that stops at `first`, where a statement without a terminator begins: but for its error it
is a run of the tokens in front. -/
structure StopsAt (first : Token) (front : List Token) (w : World σ)
    (run : (List Result × Option ScriptError) × World σ) : Prop where
  results : run.1.1 = ((ev.evalStatements (.ofList front)).run w).1.1
  forest : run.2.forest = ((ev.evalStatements (.ofList front)).run w).2.forest
  host : run.2.host = ((ev.evalStatements (.ofList front)).run w).2.host
  calls : run.2.calls = ((ev.evalStatements (.ofList front)).run w).2.calls
  failed : ∀ e, ((ev.evalStatements (.ofList front)).run w).1.2 = some e →
    run.1.2 = some (.evaluation e)
  ended : ((ev.evalStatements (.ofList front)).run w).1.2 = none →
    ∃ e, run.1.2 = some (.evaluation (.fault (.malformed e))) ∧ e.isEnd = true ∧
      e.pos = first.pos

variable {ev} in
theorem StopsAt.fails {first : Token} {front : List Token} {w : World σ}
    {run : (List Result × Option ScriptError) × World σ} (h : ev.StopsAt first front w run) :
    run.1.2 ≠ none := by
  cases herror : ((ev.evalStatements (.ofList front)).run w).1.2 with
  | some e =>
    rw [h.failed e herror]
    exact Option.some_ne_none _
  | none =>
    obtain ⟨e, he, -⟩ := h.ended herror
    rw [he]
    exact Option.some_ne_none _

theorem evalSource_stopsAt {source : Bytes} {tokens front : List Token} {first : Token}
    (hlex : lex source = .ok tokens) (hleft : LeftOver tokens front first) (w : World σ) :
    ev.StopsAt first front w ((ev.evalSource source).run w) := by
  obtain ⟨hended, tail, rfl, htail⟩ := hleft
  obtain ⟨stmts, hfront⟩ := exists_stmts ((isOpen_eq_false_iff front).2 hended)
  have hrun := ev.run_evalStatements_breaksOff hfront htail [] w
  rw [ev.run_evalSource hlex, Cursor.ofList, hrun]
  cases hbefore : (ev.evalStatements ⟨[], front⟩).run w with
  | mk out w₁ =>
    obtain ⟨results, error⟩ := out
    constructor
    all_goals rw [Cursor.ofList, hbefore]
    all_goals cases error
    all_goals simp [breakOff, endFault, SyntaxError.isEnd]

end Evaluator

/-! ## Asking for more -/

theorem isComplete_eq {source : Bytes} {tokens : List Token} (h : lex source = .ok tokens) :
    isComplete source = (!tokens.isEmpty && !isOpen tokens) := by
  unfold isComplete isOpen
  rw [h, List.getLast?_map]
  dsimp only
  cases hlast : tokens.getLast? with
  | none =>
    rw [List.getLast?_eq_none_iff.1 hlast]
    rfl
  | some tk =>
    have hne : tokens.isEmpty = false := by
      rw [List.isEmpty_eq_false_iff]
      rintro rfl
      cases hlast
    simp [hne, bne]

/-- A text that does not lex needs no more lines: they could not mend it. -/
theorem needsMore_iff (source : Bytes) :
    needsMore source = true ↔ ∃ tokens, lex source = .ok tokens ∧ isOpen tokens = true := by
  cases hlex : lex source with
  | error e => simp [needsMore, hlex]
  | ok tokens => simp [(reads_of_lex hlex).needsMore]

/-- **An unterminated statement is never executed.** Where the last token is no terminator the run
ends in an error, and but for its error it is a run of the tokens up to the last terminator: the
error is theirs, or else it is that the input ends in the statement that begins behind them. A run
without an error is one of a source that has no tokens or is complete; and more is asked for
exactly where the last token is no terminator. -/
theorem Evaluator.evalSource_unterminated (ev : Evaluator σ) (source : Bytes) (w : World σ) :
    (∀ tokens last, lex source = .ok tokens → tokens.getLast? = some last →
      last.kind ≠ .semicolon →
        ((ev.evalSource source).run w).1.2 ≠ none ∧
          ∃ front first, LeftOver tokens front first) ∧
      (∀ tokens front first, lex source = .ok tokens → LeftOver tokens front first →
        ev.StopsAt first front w ((ev.evalSource source).run w)) ∧
      (((ev.evalSource source).run w).1.2 = none →
        lex source = .ok [] ∨ isComplete source = true) ∧
      (needsMore source = true ↔ ∃ tokens last, lex source = .ok tokens ∧
        tokens.getLast? = some last ∧ last.kind ≠ .semicolon) := by
  have hopen : ∀ tokens, lex source = .ok tokens → isOpen tokens = true →
      ((ev.evalSource source).run w).1.2 ≠ none ∧ ∃ front first, LeftOver tokens front first := by
    intro tokens hlex hopen
    obtain ⟨front, first, hleft⟩ := exists_leftOver hopen
    exact ⟨(ev.evalSource_stopsAt hlex hleft w).fails, front, first, hleft⟩
  refine ⟨?_, fun tokens front first hlex hleft => ev.evalSource_stopsAt hlex hleft w, ?_, ?_⟩
  · intro tokens last hlex hlast hkind
    exact hopen tokens hlex ((isOpen_iff tokens).2 ⟨last, hlast, hkind⟩)
  · intro hnone
    cases hlex : lex source with
    | error e =>
      rw [evalSource, hlex] at hnone
      cases hnone
    | ok tokens =>
      have hclosed : isOpen tokens = false := by
        rw [← Bool.not_eq_true]
        exact fun ho => (hopen tokens hlex ho).1 hnone
      rw [isComplete_eq hlex, hclosed]
      cases tokens with
      | nil => exact .inl rfl
      | cons tk tokens => exact .inr rfl
  · simp only [needsMore_iff, isOpen_iff, exists_and_left]

namespace Evaluator

/-- The lines of `spread`, and one on which a statement begins. -/
def unfinished : Bytes := Bytes.join Bytes.newline (spread ++ [Bytes.ofString "b"])

/-- What comes before the last line completes and is recorded; then the run ends in an error. -/
theorem evalSource_unterminated_unfinished :
    needsMore unfinished = true ∧
      let run := ((standard none).evalSource unfinished).run (.fresh {})
      run.1.1.map Result.value = [.text []] ∧ (run.2.forest.scope 0).script = "a = print();" ∧
        ∃ e, run.1.2 = some (.evaluation (.fault (.malformed e))) ∧ e.isEnd = true := by
  have hline : Reads "b" [⟨.symbol, "b", .nil, .start⟩] := by
    apply reads_of_names <;> decide +kernel
  obtain ⟨tokens, hlex, hagrees⟩ := Reads.join (List.rel_append reads_spread (.cons hline .nil))
  rw [List.flatten_append, List.flatten_singleton] at hagrees
  obtain ⟨front, last, rfl, hfront, hlast⟩ := agrees_append (agrees_symm hagrees)
  obtain ⟨b, rfl, hb⟩ := agrees_singleton hlast
  -- The tokens of the lines of `spread` are run as in `evalEach_spread`.
  obtain ⟨stmts, hterm, hstmts⟩ := terminated_spread.of_agrees hfront
  obtain ⟨w, heach, hscript, -⟩ := evalEach_spread
  obtain ⟨w', heach', hw⟩ :=
    evalEach_repeats (standard_isStandard none) hstmts _ _ (.refl _) _ _ heach
  obtain ⟨results, hrun, hvalues⟩ := (standard none).run_of_evalEach hterm [] heach'
  have hkind : b.kind ≠ .semicolon := by
    rw [← hb.kind]
    decide
  have hended := (isOpen_eq_false_iff front).1 hterm.isOpen_eq_false
  have hleft : LeftOver (front ++ [b]) front b :=
    ⟨hended, [], rfl, List.forall_mem_singleton.2 hkind⟩
  obtain ⟨-, hstops, -, hmore⟩ :=
    evalSource_unterminated (standard none) unfinished (.fresh {})
  have hstop := hstops _ _ _ hlex hleft
  refine ⟨hmore.2 ⟨_, b, hlex, List.getLast?_concat .., hkind⟩, ?_⟩
  have hbefore : ((standard none).evalStatements (.ofList front)).run (.fresh {}) = _ := hrun
  obtain ⟨e, herror, hend, -⟩ := hstop.ended (by rw [hbefore])
  dsimp only
  rw [hstop.results, hstop.forest, hbefore]
  refine ⟨hvalues, ?_, e, herror, hend⟩
  rw [Scope.script, ← (hw.forest.scope 0).texts]
  exact hscript

end Evaluator

end ChartScript
