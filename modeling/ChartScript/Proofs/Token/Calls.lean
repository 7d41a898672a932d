import ChartScript.Proofs.Token.Places

/-!
# Function names and their parentheses

A name is taken for a function's before the text behind it is read: the lexer looks past blanks and
tabs for a `(`. Whether the next token is that `(` is settled later, by what is skipped as a gap.
The two agree: behind the name of a function the gap has nothing but blanks and tabs in it and the
next token is its parenthesis (`lex_callsOpen`), and a symbol with a `(` behind it has a gap there with
more in it than that (`Lexer.Tiled.apart`).
-/

set_option autoImplicit false

namespace ChartScript

/-- Every function has an opening parenthesis right behind it. -/
def CallsOpen (tokens : List Token) : Prop :=
  ∀ before fn after, tokens = before ++ fn :: after → fn.kind = .func →
    ∃ paren rest, after = paren :: rest ∧ paren.kind = .leftParen

namespace Lexer

open Text

/-! ## What stands between a name and a parenthesis -/

/-- A comment, and what follows it. -/
inductive Comment : List Char → List Char → Prop where
  | line {opening body rest : List Char} (hopening : opening = ['#'] ∨ opening = ['/', '/'])
      (hbody : '\n' ∉ body) (hend : ∀ c ∈ rest.head?, c = '\n') : Comment (opening ++ body) rest
  | closed {body rest : List Char} (hbody : ¬ ['*', '/'] <:+: body ++ ['*']) :
      Comment (['/', '*'] ++ body ++ ['*', '/']) rest

/-- A gap with a line end, a carriage return or a comment in it, and what follows the gap. -/
inductive Parts (gap rest : List Char) : Prop where
  | newline (h : '\n' ∈ gap)
  | carriageReturn (h : '\r' ∈ gap)
  | comment {before text after : List Char} (split : gap = before ++ text ++ after)
      (hbefore : Gap before (text ++ after ++ rest)) (htext : Comment text (after ++ rest))

theorem Parts.cons {gap rest : List Char} (h : Parts gap rest) {c : Char}
    (hc : c = ' ' ∨ c = '\t' ∨ c = '\n' ∨ c = '\r') : Parts (c :: gap) rest := by
  cases h with
  | newline h => exact .newline (List.mem_cons_of_mem c h)
  | carriageReturn h => exact .carriageReturn (List.mem_cons_of_mem c h)
  | comment split hbefore htext =>
    subst split
    exact .comment rfl (.blank hc hbefore) htext

/-- A gap is blanks and tabs, or there is more in it. -/
theorem Gap.blank_or_parts {gap rest : List Char} (h : Gap gap rest) :
    (∀ c ∈ gap, c = ' ' ∨ c = '\t') ∨ Parts gap rest := by
  induction h with
  | nil =>
    left
    intro c hc
    cases hc
  | @blank c gap rest hc hgap ih =>
    rcases ih with hblank | hparts
    · rcases hc with rfl | rfl | rfl | rfl
      · exact .inl (List.forall_mem_cons.2 ⟨.inl rfl, hblank⟩)
      · exact .inl (List.forall_mem_cons.2 ⟨.inr rfl, hblank⟩)
      · exact .inr (.newline List.mem_cons_self)
      · exact .inr (.carriageReturn List.mem_cons_self)
    · exact .inr (hparts.cons hc)
  | line hopening hbody hend =>
    exact .inr (@Parts.comment _ _ [] _ _ rfl .nil (.line hopening hbody hend))
  | comment hbody =>
    exact .inr (@Parts.comment _ _ [] _ _ rfl .nil (.closed hbody))

/-! ## What a name's kind says of the text behind it -/

theorem nameKind_cons_blank {c : Char} (hc : c = ' ' ∨ c = '\t') (rest : List Char) :
    nameKind (c :: rest) = nameKind rest := by
  rcases hc with rfl | rfl <;> simp [nameKind]

/-- A character other than a blank or a tab ends the look-ahead. -/
theorem eq_paren_of_nameKind {c : Char} {rest : List Char} (h : nameKind (c :: rest) = .func)
    (hspace : c ≠ ' ') (htab : c ≠ '\t') : c = '(' := by
  by_contra hparen
  simp [nameKind, hspace, htab, hparen] at h

/-- Behind blanks and tabs a parenthesis is always seen. -/
theorem nameKind_blanks {gap : List Char} (h : ∀ c ∈ gap, c = ' ' ∨ c = '\t') (rest : List Char) :
    nameKind (gap ++ '(' :: rest) = .func := by
  induction gap with
  | nil => simp [nameKind]
  | cons c gap ih =>
    obtain ⟨hc, hgap⟩ := List.forall_mem_cons.1 h
    rw [List.cons_append, nameKind_cons_blank hc, ih hgap]

/-- The parenthesis that is seen from a name is the one that follows the gap. -/
theorem Gap.head_of_nameKind {gap rest : List Char} (h : Gap gap rest)
    (hrest : ∀ c ∈ rest.head?, isScriptBlank c = false) (hfunc : nameKind (gap ++ rest) = .func) :
    rest.head? = some '(' := by
  induction h with
  | @nil rest =>
    cases rest with
    | nil => simp [nameKind] at hfunc
    | cons c rest =>
      have hc : (c ≠ ' ' ∧ c ≠ '\t') ∧ c ≠ '\n' ∧ c ≠ '\r' := by
        simpa [isScriptBlank, and_assoc] using hrest c rfl
      rw [eq_paren_of_nameKind hfunc hc.1.1 hc.1.2]
      rfl
  | @blank c gap rest hc hgap ih =>
    by_cases hblank : c = ' ' ∨ c = '\t'
    · rw [List.cons_append, nameKind_cons_blank hblank] at hfunc
      exact ih hrest hfunc
    · obtain ⟨hspace, htab⟩ := not_or.1 hblank
      have hparen := eq_paren_of_nameKind hfunc hspace htab
      rcases hc with rfl | rfl | rfl | rfl <;> cases hparen
  | line hopening hbody hend =>
    rcases hopening with rfl | rfl
    · cases eq_paren_of_nameKind hfunc (by decide) (by decide)
    · cases eq_paren_of_nameKind hfunc (by decide) (by decide)
  | comment hbody => cases eq_paren_of_nameKind hfunc (by decide) (by decide)

/-! ## Tokens next to each other -/

/-- Only names are functions and symbols, and of which kind they are is up to what follows. -/
theorem Spelt.name_kind {kind : Kind} {text rest : List Char} {v : Value}
    (h : Spelt ⟨kind, text, v⟩ rest) (hkind : kind = .func ∨ kind = .symbol) :
    kind = nameKind rest := by
  cases h with
  | name => rfl
  | sign hsign =>
    unfold signKind? at hsign
    split at hsign
    all_goals cases hsign
    all_goals simp at hkind
  | _ => simp at hkind

theorem nameKind_ne_leftParen (rest : List Char) : nameKind rest ≠ .leftParen := by
  unfold nameKind
  split <;> decide

theorem Spelt.chars_leftParen {kind : Kind} {text rest : List Char} {v : Value}
    (h : Spelt ⟨kind, text, v⟩ rest) (hkind : kind = .leftParen) : text = ['('] := by
  cases h with
  | name => exact absurd hkind (nameKind_ne_leftParen rest)
  | sign hsign =>
    unfold signKind? at hsign
    split at hsign
    all_goals cases hsign
    all_goals first | rfl | cases hkind
  | _ => cases hkind

/-- A lexeme does not begin with a blank, and only the sign begins with a parenthesis. -/
theorem Spelt.opening {c : Char} {cs rest : List Char} {kind : Kind} {v : Value}
    (h : Spelt ⟨kind, c :: cs, v⟩ rest) :
    isScriptBlank c = false ∧ (c = '(' → kind = .leftParen) := by
  have hsplit : Lexer.splitLexeme c (cs ++ rest) = .ok (⟨kind, c :: cs, v⟩, rest) :=
    h.splitLexeme rfl
  constructor
  · rw [← Bool.not_eq_true]
    intro hblank
    have hstart : isTokenStart c = false := by
      have hc : c = ' ' ∨ c = '\t' ∨ c = '\n' ∨ c = '\r' := by
        simpa [isScriptBlank, or_assoc] using hblank
      rcases hc with rfl | rfl | rfl | rfl <;> decide +kernel
    rw [splitLexeme_of_not_start hstart] at hsplit
    cases hsplit
  · rintro rfl
    rw [@splitLexeme_sign '(' .leftParen rfl] at hsplit
    cases hsplit
    rfl

/-- What is read from a token on. -/
theorem Tiled.behind {before cs : List Char} {front tokens : List Token}
    (h : Tiled before cs (front ++ tokens)) :
    ∃ before' cs', before ++ cs = before' ++ cs' ∧ Tiled before' cs' tokens := by
  induction front generalizing before cs with
  | nil => exact ⟨before, cs, rfl, h⟩
  | cons tk front ih =>
    cases h with
    | token hgap htext hspelt hoffset hrest =>
      obtain ⟨before', cs', heq, htiled⟩ := ih hrest
      refine ⟨before', cs', ?_, htiled⟩
      rw [← heq]
      simp

theorem Tiled.callsOpen {before cs : List Char} {tokens : List Token}
    (h : Tiled before cs tokens) : CallsOpen tokens := by
  rintro front fn after rfl hfunc
  obtain ⟨before', cs', -, htiled⟩ := h.behind
  cases htiled with
  | token hgap htext hspelt hoffset hrest =>
    have hkind := hspelt.name_kind (.inl hfunc)
    rw [hfunc] at hkind
    cases hrest with
    | last hgap' =>
      have hparen := hgap'.head_of_nameKind (by simp) (by rw [List.append_nil, ← hkind])
      cases hparen
    | @token _ gap text rest paren more hgap' htext' hspelt' hoffset' hrest' =>
      obtain ⟨c, text, rfl⟩ := List.exists_cons_of_ne_nil hspelt'.chars_ne_nil
      obtain ⟨hblank, hparen⟩ := hspelt'.opening
      have hhead := hgap'.head_of_nameKind (by simpa using hblank) (by simpa using hkind.symm)
      exact ⟨paren, more, rfl, hparen (by simpa using hhead)⟩

/-- A symbol in a text with a `(` behind it, which a gap parts from it. -/
inductive Apart (cs : List Char) (tk paren : Token) : Prop where
  | mk {front name gap rest : List Char} (split : cs = front ++ name ++ gap ++ '(' :: rest)
      (hname : tk.lexeme = Bytes.ofChars name) (hoffset : tk.pos.offset = front.length)
      (hparen : paren.pos.offset = (front ++ name ++ gap).length) (hgap : Gap gap ('(' :: rest))
      (hparts : Parts gap ('(' :: rest))

theorem Tiled.apart {before cs : List Char} {front after : List Token} {tk paren : Token}
    (h : Tiled before cs (front ++ tk :: paren :: after)) (hsymbol : tk.kind = .symbol)
    (hparen : paren.kind = .leftParen) : Apart (before ++ cs) tk paren := by
  obtain ⟨before', cs', hcs, htiled⟩ := h.behind
  rw [hcs]
  cases htiled with
  | @token _ gap name rest _ _ hgap htext hspelt hoffset hrest =>
    cases hrest with
    | @token _ gap' text rest' _ _ hgap' htext' hspelt' hoffset' hrest' =>
      have hkind := hspelt.name_kind (.inr hsymbol)
      obtain rfl := hspelt'.chars_leftParen hparen
      refine .mk (by simp) htext hoffset hoffset' hgap' ?_
      rcases hgap'.blank_or_parts with hblank | hparts
      · -- Across blanks and tabs alone the parenthesis would have been seen.
        have hfunc := nameKind_blanks hblank rest'
        rw [hsymbol, List.append_assoc, List.singleton_append, hfunc] at hkind
        cases hkind
      · exact hparts

end Lexer

/-- **Function names and parentheses stay together** in every source that lexes. -/
theorem lex_callsOpen {source : Bytes} {tokens : List Token} (h : lex source = .ok tokens) :
    CallsOpen tokens :=
  (lex_tiled h).callsOpen

end ChartScript
