import ChartScript.Proofs.Token.Spelling

/-!
# A source is its lexemes and the gaps between them

Lexing loses nothing and makes nothing up: a source that lexes is a gap, a lexeme, a gap, a lexeme
and so on, up to a last gap, where the lexemes are those of its tokens and a token's offset counts
the characters before its lexeme (`Tiled`). What may be a gap (`Gap`) and what may be a lexeme
(`Spelt`) depends on what follows: a line comment ends where its line ends, and a name or a number
does not stop before a character that would belong to it.
-/

set_option autoImplicit false

namespace ChartScript
namespace Lexer

open Text

/-! ## What tilings are -/

/-- A gap, and what follows it: blanks, comments up to the end of their line or of the source, and
comments that are closed, at the first `*/` behind their opening. -/
inductive Gap : List Char → List Char → Prop where
  | nil {rest : List Char} : Gap [] rest
  | blank {c : Char} {gap rest : List Char} (hc : c = ' ' ∨ c = '\t' ∨ c = '\n' ∨ c = '\r')
      (h : Gap gap rest) : Gap (c :: gap) rest
  | line {opening body gap rest : List Char} (hopening : opening = ['#'] ∨ opening = ['/', '/'])
      (hbody : '\n' ∉ body) (hend : ∀ c ∈ (gap ++ rest).head?, c = '\n') (h : Gap gap rest) :
      Gap (opening ++ body ++ gap) rest
  | comment {body gap rest : List Char} (hbody : ¬ ['*', '/'] <:+: body ++ ['*'])
      (h : Gap gap rest) : Gap (['/', '*'] ++ body ++ ['*', '/'] ++ gap) rest

/-- Tokens whose lexemes, with gaps before, between and behind them, are a text that stands behind
`before`. -/
inductive Tiled : List Char → List Char → List Token → Prop where
  | last {before gap : List Char} (hgap : Gap gap []) : Tiled before gap []
  | token {before gap text rest : List Char} {tk : Token} {tokens : List Token}
      (hgap : Gap gap (text ++ rest)) (htext : tk.lexeme = Bytes.ofChars text)
      (hspelt : Spelt ⟨tk.kind, text, tk.value⟩ rest)
      (hoffset : tk.pos.offset = (before ++ gap).length)
      (hrest : Tiled (before ++ gap ++ text) rest tokens) :
      Tiled before (gap ++ text ++ rest) (tk :: tokens)

/-! ## Gaps -/

theorem splitComment?_closed {cs closed after : List Char}
    (h : splitComment? cs = some (closed, after)) :
    ∃ body, closed = body ++ ['*', '/'] ∧ cs = body ++ ['*', '/'] ++ after ∧
      ¬ ['*', '/'] <:+: body ++ ['*'] := by
  induction cs generalizing closed with
  | nil => cases h
  | cons c cs ih =>
    unfold splitComment? at h
    split at h
    · cases h
      exact ⟨[], rfl, rfl, by decide⟩
    · next hno =>
      obtain ⟨⟨closed', after'⟩, hc, heq⟩ := Option.map_eq_some_iff.1 h
      obtain ⟨rfl, rfl⟩ := Prod.mk.inj heq
      obtain ⟨body, rfl, rfl, hfree⟩ := ih hc
      refine ⟨c :: body, rfl, rfl, ?_⟩
      rw [List.cons_append, List.infix_cons_iff]
      rintro (hfront | hinner)
      · -- A star right before a slash would have closed the comment.
        obtain ⟨rfl, hslash⟩ := List.cons_prefix_cons.1 hfront
        cases body with
        | nil => exact absurd (List.cons_prefix_cons.1 hslash).1 (by decide)
        | cons d body =>
          obtain rfl := (List.cons_prefix_cons.1 hslash).1
          exact hno _ rfl rfl
      · exact hfree hinner

theorem splitComment?_eq_none {cs : List Char} (h : splitComment? cs = none) :
    ¬ ['*', '/'] <:+: cs := by
  induction cs with
  | nil => decide
  | cons c cs ih =>
    unfold splitComment? at h
    split at h
    · cases h
    · next hno =>
      rw [List.infix_cons_iff]
      rintro (hfront | hinner)
      · obtain ⟨rfl, hslash⟩ := List.cons_prefix_cons.1 hfront
        obtain ⟨more, rfl⟩ := hslash
        exact hno more rfl rfl
      · exact ih (Option.map_eq_none_iff.1 h) hinner

theorem gapAfter_eq_ok {front gap rest : List Char}
    {r : Except (List Char) (List Char × List Char)} (h : gapAfter front r = .ok (gap, rest)) :
    ∃ gap', r = .ok (gap', rest) ∧ gap = front ++ gap' := by
  cases r with
  | error before => cases h
  | ok p =>
    obtain ⟨gap', rest'⟩ := p
    cases h
    exact ⟨gap', rfl, rfl⟩

theorem splitLine_eq (cs : List Char) : (splitLine cs).1 ++ (splitLine cs).2 = cs :=
  List.takeWhile_append_dropWhile

theorem not_mem_splitLine (cs : List Char) : '\n' ∉ (splitLine cs).1 := by
  intro h
  exact absurd (List.mem_takeWhile_imp h) (by decide)

theorem head_splitLine (cs : List Char) : ∀ c ∈ (splitLine cs).2.head?, c = '\n' := by
  intro c hc
  simpa using head_dropWhile c hc

/-- Skipping ends behind a gap: where it is done, or where a comment begins that is not closed. -/
def SkipEnds (gap rest : List Char) (r : Except (List Char) (List Char × List Char)) : Prop :=
  r = .ok (gap, rest) ∨
    r = .error gap ∧ ∃ body, rest = '/' :: '*' :: body ∧ ¬ ['*', '/'] <:+: body

theorem SkipEnds.after {gap rest : List Char} {r : Except (List Char) (List Char × List Char)}
    (h : SkipEnds gap rest r) (front : List Char) :
    SkipEnds (front ++ gap) rest (gapAfter front r) := by
  rcases h with rfl | ⟨rfl, hopen⟩
  · exact .inl rfl
  · exact .inr ⟨rfl, hopen⟩

/-- **What is skipped is a gap.** -/
theorem splitGap_cases (cs : List Char) :
    ∃ gap rest, cs = gap ++ rest ∧ Gap gap rest ∧ SkipEnds gap rest (splitGap cs) := by
  fun_induction splitGap cs with
  | case1 => exact ⟨[], [], rfl, .nil, .inl rfl⟩
  | case2 c cs hblank ih =>
    obtain ⟨gap, rest, rfl, hgap, hends⟩ := ih
    have hc : c = ' ' ∨ c = '\t' ∨ c = '\n' ∨ c = '\r' := by
      simpa [isScriptBlank, or_assoc] using hblank
    exact ⟨c :: gap, rest, rfl, .blank hc hgap, hends.after [c]⟩
  | case3 c cs hblank hhash ih =>
    obtain ⟨gap, rest, heq, hgap, hends⟩ := ih
    obtain rfl := eq_of_beq hhash
    refine ⟨_, rest, ?_, ?_, hends.after _⟩
    · rw [List.append_assoc, ← heq, List.cons_append, splitLine_eq]
    · exact .line (.inl rfl) (not_mem_splitLine cs) (heq ▸ head_splitLine cs) hgap
  | case4 c cs hblank hhash hslash ih =>
    obtain ⟨gap, rest, heq, hgap, hends⟩ := ih
    obtain ⟨hc, hhead⟩ := Bool.and_eq_true_iff.1 hslash
    obtain rfl := eq_of_beq hc
    obtain ⟨cs, rfl⟩ := List.head?_eq_some_iff.1 (eq_of_beq hhead)
    refine ⟨_, rest, ?_, ?_, hends.after _⟩
    · rw [List.append_assoc, ← heq, List.cons_append, splitLine_eq]
    · exact .line (.inr rfl) (not_mem_splitLine cs) (heq ▸ head_splitLine cs) hgap
  | case5 c cs hblank hhash hslash hstar body after hc ih =>
    obtain ⟨gap, rest, rfl, hgap, hends⟩ := ih
    obtain ⟨hc', hhead⟩ := Bool.and_eq_true_iff.1 hstar
    obtain rfl := eq_of_beq hc'
    obtain ⟨cs, rfl⟩ := List.head?_eq_some_iff.1 (eq_of_beq hhead)
    obtain ⟨inner, rfl, hcs, hfree⟩ := splitComment?_closed hc
    refine ⟨_, rest, ?_, ?_, hends.after _⟩
    · rw [List.drop_one, List.tail_cons] at hcs
      simp [hcs]
    · simpa using Gap.comment hfree hgap
  | case6 c cs hblank hhash hslash hstar hc =>
    obtain ⟨hc', hhead⟩ := Bool.and_eq_true_iff.1 hstar
    obtain rfl := eq_of_beq hc'
    obtain ⟨cs, rfl⟩ := List.head?_eq_some_iff.1 (eq_of_beq hhead)
    exact ⟨[], _, rfl, .nil, .inr ⟨rfl, cs, rfl, splitComment?_eq_none hc⟩⟩
  | case7 c cs => exact ⟨[], c :: cs, rfl, .nil, .inl rfl⟩

theorem splitGap_gap {cs gap rest : List Char} (h : splitGap cs = .ok (gap, rest)) :
    cs = gap ++ rest ∧ Gap gap rest := by
  obtain ⟨gap', rest', hcs, hgap, hends⟩ := splitGap_cases cs
  rw [h] at hends
  rcases hends with hends | ⟨hends, -⟩
  · cases hends
    exact ⟨hcs, hgap⟩
  · cases hends

theorem splitGap_open {cs before : List Char} (h : splitGap cs = .error before) :
    ∃ body, cs = before ++ '/' :: '*' :: body ∧ ¬ ['*', '/'] <:+: body ∧
      Gap before ('/' :: '*' :: body) := by
  obtain ⟨gap, rest, hcs, hgap, hends⟩ := splitGap_cases cs
  rw [h] at hends
  rcases hends with hends | ⟨hends, body, rfl, hbody⟩
  · cases hends
  · cases hends
    exact ⟨body, hcs, hbody, hgap⟩

/-! ## Sources -/

theorem offset_advanceBy (p : Pos) (cs : List Char) :
    (p.advanceBy cs).offset = p.offset + cs.length := by
  induction cs generalizing p with
  | nil => simp [Pos.advanceBy]
  | cons c cs ih =>
    have hstep : (p.advance c).offset = p.offset + 1 := by
      unfold Pos.advance
      split <;> rfl
    rw [show p.advanceBy (c :: cs) = (p.advance c).advanceBy cs from rfl, ih, hstep,
      List.length_cons]
    omega

theorem lexFrom_tiled {p : Pos} {cs before : List Char} {tokens : List Token}
    (hp : p.offset = before.length) (h : lexFrom p cs = .ok tokens) : Tiled before cs tokens := by
  fun_induction lexFrom p cs generalizing before tokens with
  | case1 => cases h
  | case2 p cs gap hg =>
    cases h
    obtain ⟨rfl, hgap⟩ := splitGap_gap hg
    rw [List.append_nil]
    exact .last hgap
  | case3 => cases h
  | case4 p cs gap c rest hg here lx after hl =>
    rename_i ih
    cases hrest : lexFrom (here.advanceBy lx.chars) after with
    | error e => rw [hrest] at h; cases h
    | ok more =>
      rw [hrest] at h
      cases h
      obtain ⟨rfl, hgap⟩ := splitGap_gap hg
      obtain ⟨heq, hspelt⟩ := splitLexeme_spelt hl
      rw [heq] at hgap ⊢
      have hhere : here.offset = (before ++ gap).length := by
        rw [offset_advanceBy, hp, ← Int.natCast_add, ← List.length_append]
      have hbehind : (here.advanceBy lx.chars).offset = (before ++ gap ++ lx.chars).length := by
        rw [offset_advanceBy, hhere, ← Int.natCast_add, ← List.length_append]
      rw [← List.append_assoc]
      exact .token hgap rfl hspelt hhere (ih hbehind hrest)

end Lexer

/-- **Lexing is lossless**: the characters of a source are the lexemes of its tokens, in order and
each at its token's offset, with nothing but gaps around them. -/
theorem lex_tiled {source : Bytes} {tokens : List Token} (h : lex source = .ok tokens) :
    Lexer.Tiled [] source.chars tokens :=
  Lexer.lexFrom_tiled rfl h

/-- A line comment with a byte that belongs to no character, a name, a closed comment, and a string
with the sign of a comment in it. -/
def strayed : Bytes := Bytes.ofString "#" ++ [255, 10] ++ Bytes.ofString "ab /**/ \"#\""

theorem lex_tiled_strayed :
    ∃ tokens, lex strayed = .ok tokens ∧
      tokens.map (fun tk => (tk.lexeme, tk.pos.offset)) =
        [(Bytes.ofString "ab", 3), (Bytes.ofString "\"#\"", 11)] ∧
      Lexer.Tiled [] strayed.chars tokens := by
  have hread : (lex strayed).toOption.map (List.map fun tk => (tk.lexeme, tk.pos.offset)) =
      some [(Bytes.ofString "ab", 3), (Bytes.ofString "\"#\"", 11)] := by decide +kernel
  cases hlex : lex strayed with
  | error e =>
    rw [hlex] at hread
    cases hread
  | ok tokens =>
    rw [hlex] at hread
    exact ⟨tokens, rfl, Option.some.inj hread, lex_tiled hlex⟩

end ChartScript
