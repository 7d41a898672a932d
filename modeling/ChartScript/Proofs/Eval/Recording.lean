import ChartScript.Proofs.Eval.Trail
import ChartScript.Proofs.Grammar.Evaluation
import ChartScript.Proofs.Token.Relexing

/-!
# What is recorded can be read back

A statement gets onto a scope by being evaluated to its end. Its tokens are then tokens of a source
and those of a tree of the grammar, and both are needed for its text to be read as the statement
again (`ChartScript.Proofs.Token.Relexing`).
-/

set_option autoImplicit false

namespace ChartScript

open Step

variable {σ : Type}

theorem Cursor.segment_cons (seen : List Token) (tk : Token) (rest taken : List Token) :
    (Cursor.mk seen (tk :: rest)).segment taken =
      if tk.kind = .semicolon then (.ok taken.reverse, ⟨tk :: seen, rest⟩)
      else (Cursor.mk (tk :: seen) rest).segment (tk :: taken) := by
  rw [segment, if_pos (Expr.hasNext_cons seen tk rest), Expr.step_cons]

/-- Statements are cut from what is ahead, and only what was ahead is left. -/
theorem Cursor.segment_mem (seen ahead taken : List Token) :
    (∀ stmt, ((Cursor.mk seen ahead).segment taken).1 = .ok stmt →
        ∀ tk ∈ stmt, tk ∈ taken ∨ tk ∈ ahead) ∧
      ∀ tk ∈ ((Cursor.mk seen ahead).segment taken).2.ahead, tk ∈ ahead := by
  induction ahead generalizing seen taken with
  | nil =>
    rw [segment, if_neg (by rw [Expr.hasNext_nil]; decide)]
    exact ⟨fun stmt h => (by cases h), fun tk h => h⟩
  | cons tk rest ih =>
    rw [segment_cons]
    by_cases hk : tk.kind = .semicolon
    · rw [if_pos hk]
      refine ⟨fun stmt h tk' htk' => .inl ?_, fun tk' htk' => List.mem_cons_of_mem _ htk'⟩
      cases h
      exact List.mem_reverse.1 htk'
    · rw [if_neg hk]
      obtain ⟨hstmt, hrest⟩ := ih (tk :: seen) (tk :: taken)
      refine ⟨fun stmt h tk' htk' => ?_, fun tk' htk' => List.mem_cons_of_mem _ (hrest tk' htk')⟩
      rcases hstmt stmt h tk' htk' with hmem | hmem
      · rcases List.mem_cons.1 hmem with rfl | hmem
        · exact .inr List.mem_cons_self
        · exact .inl hmem
      · exact .inr (List.mem_cons_of_mem _ hmem)

namespace Evaluator

/-- A statement that was evaluated is a tree, so its text is read as the statement again. -/
theorem evalStatement_roundTrip {ev : Evaluator σ} {stmt : Statement} {v : Value} {w w' : World σ}
    (hne : stmt ≠ []) (h : AllWritten stmt) (hr : on (ev.evalStatement stmt) w = (.ok v, w')) :
    stmt.RoundTrips := by
  obtain ⟨t, rfl⟩ := Grammar.exists_tree_of_evalStatement hne hr
  exact Grammar.roundTrips_tokens t h

theorem evalStatements_roundTrip (ev : Evaluator σ) {c : Cursor} (h : AllWritten c.ahead)
    (w : World σ) : ∀ r ∈ ((ev.evalStatements c).run w).1.1, r.statement.RoundTrips := by
  induction c using Cursor.statement_induction generalizing w with
  | h c ih =>
    obtain ⟨hstmt, hrest⟩ := Cursor.segment_mem c.seen c.ahead []
    rw [run_evalStatements]
    by_cases hnext : c.hasNext = true
    · rw [if_pos hnext, on_nextStatement]
      cases hs : (c.segment []).1 with
      | error f =>
        intro r hr
        cases hr
      | ok stmt =>
        have hwritten : AllWritten stmt := by
          intro tk htk
          rcases hstmt stmt hs tk htk with hno | hahead
          · cases hno
          · exact h tk hahead
        dsimp only
        cases hr : on (ev.evalStatement stmt) w with
        | mk answer w' =>
          cases answer with
          | error e =>
            intro r hr
            cases hr
          | ok v =>
            have hmore := ih hnext (fun tk htk => h tk (hrest tk htk)) w'
            dsimp only
            split
            · exact hmore
            · next hempty =>
              intro r hmem
              rcases List.mem_cons.1 hmem with rfl | hmem
              · exact evalStatement_roundTrip (by simpa using hempty) hwritten hr
              · exact hmore r hmem
    · rw [if_neg hnext]
      intro r hr
      cases hr

/-- **Printing a recorded statement and reading it back is the identity.** Whatever a source does
to the scopes is a trail of stores, calls and records; the statements it records are those it
reports values for, and the text of each is read as the statement itself, token for token. -/
theorem evalSource_records_roundTrip (ev : Evaluator σ) (source : Bytes) (w : World σ) :
    Trail ev w.state (((ev.evalSource source).run w).1.1.map Result.statement)
        ((ev.evalSource source).run w).2.state ∧
      ∀ stmt ∈ ((ev.evalSource source).run w).1.1.map Result.statement, stmt.RoundTrips := by
  refine ⟨ev.evalSource_trail source w, fun stmt hmem => ?_⟩
  obtain ⟨r, hr, rfl⟩ := List.mem_map.1 hmem
  unfold evalSource at hr
  cases hlex : lex source with
  | error e =>
    rw [hlex] at hr
    cases hr
  | ok tokens =>
    rw [hlex] at hr
    have hwritten : AllWritten (Cursor.ofList tokens).ahead := Lexer.lexFrom_written hlex
    exact ev.evalStatements_roundTrip hwritten w r hr

end Evaluator
end ChartScript
