import ChartScript.Proofs.Eval.Within
import ChartScript.Proofs.Token.Calls
import Mathlib.Data.List.Nodup

/-!
# Calls that are never half written

The evaluator has errors for a function without its parenthesis. Statements that were put together
by hand can meet them; the tokens of a source cannot. Behind each function of a source stands its
parenthesis (`lex_callsOpen`), and a terminator between two statements is none, so the two are never
cut apart either (`CallsOpen.statement`).
-/

set_option autoImplicit false

namespace ChartScript

open Step

variable {σ : Type}

/-! ## Statements of a source -/

/-- A statement that was cut off has the parentheses of its functions. -/
theorem CallsOpen.statement {front rest : List Token} {stmt : Statement} {semi : Token}
    (h : CallsOpen (front ++ (stmt ++ semi :: rest))) (hsemi : semi.kind = .semicolon) :
    CallsOpen stmt := by
  rintro before fn after rfl hfunc
  obtain ⟨paren, more, hmore, hparen⟩ :=
    h (front ++ before) fn (after ++ semi :: rest) (by simp) hfunc
  cases after with
  | nil =>
    obtain ⟨rfl, -⟩ := List.cons_eq_cons.1 hmore
    rw [hsemi] at hparen
    cases hparen
  | cons tk after =>
    obtain ⟨rfl, -⟩ := List.cons_eq_cons.1 hmore
    exact ⟨tk, after, rfl, hparen⟩

theorem CallsOpen.not_unopened {tokens : List Token} (h : CallsOpen tokens) :
    ¬ Unopened tokens := by
  rintro ⟨before, fn, sign, after, heq, hfunc, hsign⟩
  obtain ⟨paren, rest, hrest, hparen⟩ := h before fn (sign :: after) heq hfunc
  obtain ⟨rfl, -⟩ := List.cons_eq_cons.1 hrest
  exact hsign hparen

/-- Two tokens of a source are not at the same place. -/
theorem eq_of_pos_eq {source : Bytes} {tokens : List Token} (h : lex source = .ok tokens)
    {a b : Token} (ha : a ∈ tokens) (hb : b ∈ tokens) (hpos : a.pos = b.pos) : a = b := by
  have hsorted := (Lexer.lexFrom_places h).2
  have hnodup : (tokens.map fun tk => tk.pos.offset).Nodup :=
    List.pairwise_map.2 (hsorted.imp fun hlt => ne_of_lt hlt)
  exact List.inj_on_of_nodup_map hnodup ha hb (by rw [hpos])

theorem Lexer.Tiled.lexeme_ne_nil {before cs : List Char} {tokens : List Token}
    (h : Tiled before cs tokens) : ∀ tk ∈ tokens, tk.lexeme ≠ [] := by
  induction h with
  | last =>
    intro tk htk
    cases htk
  | @token _ _ text _ _ _ hgap htext hspelt hoffset hrest ih =>
    refine List.forall_mem_cons.2 ⟨?_, ih⟩
    intro hnil
    have hempty : Bytes.ofChars text = Bytes.ofChars [] := by rw [← htext, hnil, Bytes.ofChars_nil]
    have hchars := congrArg Bytes.chars hempty
    rw [Bytes.chars_ofChars, Bytes.chars_ofChars] at hchars
    exact hspelt.chars_ne_nil hchars

/-! ## Errors -/

/-- The error of a function that has no parenthesis: another token stands there, or none. -/
inductive MissesParen (tokens : List Token) : SyntaxError → Prop where
  | sign {e : SyntaxError} (h : e.cause.text = "expecting left parenthesis") : MissesParen tokens e
  | ended {e : SyntaxError} {fn : Token} (h : fn ∈ tokens) (hfunc : fn.kind = .func)
      (hend : e.isEnd = true) (hpos : e.pos = fn.pos) (hname : e.func = fn.lexeme) :
      MissesParen tokens e

/-- An end of input is reported at the last token of a statement. -/
theorem Statement.end_at_last {stmt : Statement} {e : SyntaxError}
    (h : .malformed e ∈ stmt.parse.faults) (hend : e.isEnd = true) :
    e.pos = (stmt.getLast?.map Token.pos).getD .none := by
  cases Grammar.parse_headway stmt with
  | whole t tokens =>
    rw [← tokens, Grammar.faults_parse_tokens] at h
    cases h
  | short func viable faults =>
    rw [faults, List.mem_singleton] at h
    cases h
    rw [Cursor.last?, List.head?_reverse]
  | broken f before tk after split viable parse faults reports =>
    rw [faults, List.mem_singleton] at h
    subst h
    have hreports := reports.1
    rw [hend] at hreports
    cases hreports

/-- A parenthesis is missed only behind a function that has none. -/
theorem Statement.unopened_of_fault {stmt : Statement} {e : SyntaxError}
    (h : .malformed e ∈ stmt.parse.faults)
    (hcause : e.cause.text = "expecting left parenthesis") : Unopened stmt := by
  rw [Parsed.faults, List.mem_append] at h
  rcases h with h | h
  · exact stmt.tree_faults_in _ h hcause
  · cases htrailing : stmt.parse.trailing with
    | none =>
      rw [htrailing] at h
      cases h
    | some tk =>
      rw [htrailing] at h
      cases List.mem_singleton.1 h
      have hother : SyntaxCause.trailingSymbol.text ≠ "expecting left parenthesis" := by decide
      exact absurd hcause hother

namespace Evaluator

/-- Where a run of a source breaks off, no parenthesis is missed. -/
theorem Breaks.not_missesParen {ev : Evaluator σ} {source : Bytes} {front more : List Token}
    {e : SyntaxError} {w w' : World σ} (hlex : lex source = .ok (front ++ more))
    (h : ev.Breaks w more (.fault (.malformed e)) w') : ¬ MissesParen (front ++ more) e := by
  have hopen : CallsOpen (front ++ more) := lex_callsOpen hlex
  cases h with
  | @within stmt semi _ _ inside ends hstmt rest =>
    have hne : stmt ≠ [] := by
      rintro rfl
      cases hstmt
    have hmem := evalStatement_raisesOnly ev hne w _ w' hstmt
    have hinner := hopen.statement ends
    rintro (hcause | ⟨hfn, hfunc, hend, hpos, -⟩)
    · exact hinner.not_unopened (Statement.unopened_of_fault hmem hcause)
    · -- The last token of the statement would be the function.
      rename_i fn
      have hlast := Statement.end_at_last hmem hend
      rw [List.getLast?_eq_some_getLast hne, hpos] at hlast
      have hin : stmt.getLast hne ∈ front ++ (stmt ++ semi :: rest) := by
        simp
      have heq := eq_of_pos_eq hlex hfn hin hlast
      obtain ⟨paren, more, hmore, -⟩ :=
        hinner stmt.dropLast fn [] (by rw [heq, List.dropLast_concat_getLast]) hfunc
      cases hmore
  | unended htail hne =>
    rintro (hcause | ⟨hfn, -, -, -, hname⟩)
    · have hother : SyntaxCause.endOfInput.text ≠ "expecting left parenthesis" := by decide
      exact hother hcause
    · exact (lex_tiled hlex).lexeme_ne_nil _ hfn hname.symm

end Evaluator

/-- **Function names and parentheses stay together.** In the tokens of a source every function has
its parenthesis right behind it, and a symbol has one there only across a line end, a carriage
return or a comment. So no run of a source, whoever answers its calls and in whatever world, ends in
the error that a function has no parenthesis: neither because another token stands there nor because
the input ends there. -/
theorem Evaluator.evalSource_calls_open (ev : Evaluator σ) (source : Bytes) (w : World σ) :
    (∀ tokens, lex source = .ok tokens → CallsOpen tokens ∧
      ∀ before tk paren after, tokens = before ++ tk :: paren :: after → tk.kind = .symbol →
        paren.kind = .leftParen → Lexer.Apart source.chars tk paren) ∧
    ∀ tokens e, lex source = .ok tokens →
      ((ev.evalSource source).run w).1.2 = some (.evaluation (.fault (.malformed e))) →
        ¬ MissesParen tokens e := by
  constructor
  · rintro tokens hlex
    refine ⟨lex_callsOpen hlex, ?_⟩
    rintro before tk paren after rfl hsymbol hparen
    exact (lex_tiled hlex).apart hsymbol hparen
  · intro tokens e hlex herror
    rw [ev.run_evalSource hlex] at herror
    cases hrun : (ev.evalStatements (.ofList tokens)).run w with
    | mk out w' =>
      obtain ⟨results, error⟩ := out
      rw [hrun] at herror
      obtain ⟨e', rfl, heq⟩ := Option.map_eq_some_iff.1 herror
      cases heq
      obtain ⟨front, more, w₁, rfl, -, hbreaks⟩ := (ev.run_eq_error_iff).1 hrun
      exact hbreaks.not_missesParen hlex

namespace Evaluator

/-- A call that breaks off, with a symbol and a parenthesis on two lines in it. -/
def halfCall : Bytes := Bytes.ofString "print (b\n("

/-- The run ends in the error that the input ends, at the place of the function even, but not for
want of a parenthesis. -/
theorem evalSource_calls_open_halfCall :
    ∃ fn paren b sign, lex halfCall = .ok [fn, paren, b, sign] ∧ fn.kind = .func ∧
      CallsOpen [fn, paren, b, sign] ∧ Lexer.Apart halfCall.chars b sign ∧
      ∃ e, (((standard none).evalSource halfCall).run (.fresh {})).1.2 =
          some (.evaluation (.fault (.malformed e))) ∧ e.isEnd = true ∧ e.pos = fn.pos ∧
        ¬ MissesParen [fn, paren, b, sign] e := by
  have hread : (lex halfCall).toOption.map (List.map Token.kind) =
      some [.func, .leftParen, .symbol, .leftParen] := by decide +kernel
  cases hlex : lex halfCall with
  | error e =>
    rw [hlex] at hread
    cases hread
  | ok tokens =>
    rw [hlex] at hread
    have hkinds : tokens.map Token.kind = [.func, .leftParen, .symbol, .leftParen] :=
      Option.some.inj hread
    obtain ⟨fn, _, rfl, hfn, hkinds⟩ := List.map_eq_cons_iff.1 hkinds
    obtain ⟨paren, _, rfl, hparen, hkinds⟩ := List.map_eq_cons_iff.1 hkinds
    obtain ⟨b, _, rfl, hb, hkinds⟩ := List.map_eq_cons_iff.1 hkinds
    obtain ⟨sign, _, rfl, hsign, hkinds⟩ := List.map_eq_cons_iff.1 hkinds
    obtain rfl := List.map_eq_nil_iff.1 hkinds
    have hinside : ∀ tk ∈ [fn, paren, b, sign], tk.kind ≠ .semicolon := by
      simp [hfn, hparen, hb, hsign]
    have hrun : (((standard none).evalSource halfCall).run (.fresh {})).1.2 =
        some (.evaluation (.fault (endFault [fn, paren, b, sign]))) := by
      rw [run_evalSource _ hlex, Cursor.ofList,
        run_evalStatements_unended _ hinside (List.cons_ne_nil _ _)]
      rfl
    obtain ⟨htokens, herrors⟩ := evalSource_calls_open (standard none) halfCall (.fresh {})
    obtain ⟨hopen, hapart⟩ := htokens _ hlex
    exact ⟨fn, paren, b, sign, rfl, hfn, hopen, hapart [fn, paren] b sign [] rfl hb hsign, _, hrun,
      rfl, rfl, herrors _ _ hlex hrun⟩

end Evaluator

end ChartScript
