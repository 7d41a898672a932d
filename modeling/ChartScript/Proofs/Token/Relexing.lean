import ChartScript.Proofs.Grammar.Tree
import ChartScript.Proofs.Token.Lexeme
import Mathlib.Data.List.Forall2

/-!
# Reading a statement back

The text of a statement is read as the statement's tokens and a terminator, if every token is one of
a source and names stand where they can: a function's name before `(` and a symbol anywhere else
(`CallsTight`). Without the latter a symbol before `(` would come back as a function, because the
blank between them does not count. Trees of the grammar have no such place, so what was evaluated is
always read back (`roundTrips_tokens`).
-/

set_option autoImplicit false

namespace ChartScript

open Lexer

/-! ## Agreement -/

/-- Two tokens that mean the same: all that counts of a token but its place. -/
structure Token.Agrees (tk tk' : Token) : Prop where
  kind : tk.kind = tk'.kind
  lexeme : tk.kind = .int ∨ tk.kind = .real ∨ tk.kind = .symbol ∨ tk.kind = .func →
    tk.lexeme = tk'.lexeme
  value : tk.kind.isLiteral = true → tk.value = tk'.value

theorem Token.Agrees.source {tk tk' : Token} (h : tk.Agrees tk') : tk.source = tk'.source := by
  obtain ⟨hkind, hlexeme, hvalue⟩ := h
  unfold Token.source
  rw [← hkind]
  cases hk : tk.kind with
  | int => exact hlexeme (.inl hk)
  | real => exact hlexeme (.inr (.inl hk))
  | symbol => exact hlexeme (.inr (.inr (.inl hk)))
  | func => exact hlexeme (.inr (.inr (.inr hk)))
  | string => exact congrArg (fun v => v.inspect.quote) (hvalue (by rw [hk]; rfl))
  | _ => rfl

theorem Statement.textAfter_agrees {tks tks' : List Token} (h : List.Forall₂ Token.Agrees tks tks')
    (before : Kind) : textAfter before tks = textAfter before tks' := by
  induction h generalizing before with
  | nil => rfl
  | cons h hs ih => rw [textAfter, textAfter, h.kind, h.source, ih]

theorem Statement.text_agrees {tks tks' : Statement} (h : List.Forall₂ Token.Agrees tks tks') :
    Statement.text tks = Statement.text tks' := by
  cases h with
  | nil => rfl
  | cons h hs => rw [text, text, h.kind, h.source, textAfter_agrees hs]

/-- A statement whose text is read as the statement itself and its terminator, and what was read
has the same text again. -/
def Statement.RoundTrips (stmt : Statement) : Prop :=
  ∃ tokens semi, lex stmt.text = .ok (tokens ++ [semi]) ∧ semi.kind = .semicolon ∧
    List.Forall₂ Token.Agrees tokens stmt ∧ Statement.text tokens = stmt.text

/-! ## Where names stand -/

/-- A function's name stands before `(`, and `(` behind a function's name. -/
def CallsTight : List Token → Prop
  | [] => True
  | [tk] => tk.kind ≠ .func
  | tk :: next :: rest => (tk.kind = .func ↔ next.kind = .leftParen) ∧ CallsTight (next :: rest)

theorem CallsTight.tail {tk : Token} {rest : List Token} (h : CallsTight (tk :: rest)) :
    CallsTight rest := by
  cases rest with
  | nil => trivial
  | cons next rest => exact h.2

/-- The token in front is no `(`. -/
def NoCallHead (rest : List Token) : Prop := ∀ tk ∈ rest.head?, tk.kind ≠ .leftParen

theorem CallsTight.cons {tk : Token} {rest : List Token} (hk : tk.kind ≠ .func)
    (hhead : NoCallHead rest) (h : CallsTight rest) : CallsTight (tk :: rest) := by
  cases rest with
  | nil => exact hk
  | cons next rest => exact ⟨iff_of_false hk (hhead next rfl), h⟩

theorem noCallHead_cons {tk : Token} (rest : List Token) (h : tk.kind ≠ .leftParen) :
    NoCallHead (tk :: rest) := by
  intro tk' htk'
  obtain rfl : tk = tk' := by simpa using htk'
  exact h

namespace Grammar

theorem StartsOperand.noCallHead {tokens : List Token} (h : StartsOperand tokens) :
    NoCallHead tokens := by
  obtain ⟨tk, rest, rfl, hk⟩ := h
  intro tk' htk'
  obtain rfl : tk = tk' := by simpa using htk'
  intro hparen
  rw [hparen] at hk
  cases hk

mutual

theorem Primary.callsTight {p : Place} : (t : Primary p) → (rest : List Token) →
    NoCallHead rest → CallsTight rest → CallsTight (t.tokens ++ rest)
  | .literal tk, rest, hhead, h => by
    rw [Primary.tokens]
    refine .cons ?_ hhead h
    intro hf
    have hk := tk.property
    rw [hf] at hk
    cases hk
  | .symbol tk, rest, hhead, h => by
    rw [Primary.tokens]
    exact .cons (by rw [tk.property]; decide) hhead h
  | .assign tk sign rhs, rest, hhead, h => by
    rw [Primary.tokens]
    refine .cons (by rw [tk.property]; decide) ?_ (.cons (by rw [sign.property]; decide) ?_ ?_)
    · exact noCallHead_cons _ (by rw [sign.property]; decide)
    · exact (rhs.startsOperand.append rest).noCallHead
    · exact rhs.callsTight rest hhead h
  | .call fn left args right, rest, hhead, h => by
    rw [Primary.tokens, List.cons_append, List.cons_append, List.append_assoc]
    have hright : right.val.kind ≠ .leftParen := by rw [right.property]; decide
    have hclose : CallsTight (right.val :: rest) :=
      .cons (by rw [right.property]; decide) hhead h
    obtain ⟨hargs, hinner⟩ := args.callsTight (right.val :: rest) (noCallHead_cons _ hright) hclose
    exact ⟨iff_of_true fn.property left.property,
      .cons (by rw [left.property]; decide) hargs hinner⟩

theorem Term.callsTight {p : Place} : (t : Term p) → (rest : List Token) →
    NoCallHead rest → CallsTight rest → CallsTight (t.tokens ++ rest)
  | .single operand, rest, hhead, h => by
    rw [Term.tokens]
    exact operand.callsTight rest hhead h
  | .binary left op right, rest, hhead, h => by
    rw [Term.tokens, List.append_assoc, List.cons_append]
    have hop : op.val.kind ≠ .leftParen ∧ op.val.kind ≠ .func := by
      rcases op.property with hk | hk <;> rw [hk] <;> decide
    refine left.callsTight _ (noCallHead_cons _ hop.1) (.cons hop.2 ?_ ?_)
    · exact (right.startsOperand.append rest).noCallHead
    · exact right.callsTight rest hhead h

theorem Expression.callsTight {p : Place} : (e : Expression p) → (rest : List Token) →
    NoCallHead rest → CallsTight rest → CallsTight (e.tokens ++ rest)
  | .single term, rest, hhead, h => by
    rw [Expression.tokens]
    exact term.callsTight rest hhead h
  | .binary left op right, rest, hhead, h => by
    rw [Expression.tokens, List.append_assoc, List.cons_append]
    have hop : op.val.kind ≠ .leftParen ∧ op.val.kind ≠ .func := by
      rcases op.property with hk | hk <;> rw [hk] <;> decide
    refine left.callsTight _ (noCallHead_cons _ hop.1) (.cons hop.2 ?_ ?_)
    · exact (right.startsOperand.append rest).noCallHead
    · exact right.callsTight rest hhead h

theorem Arguments.callsTight : (args : Arguments) → (rest : List Token) →
    NoCallHead rest → CallsTight rest →
      NoCallHead (args.tokens ++ rest) ∧ CallsTight (args.tokens ++ rest)
  | .none, rest, hhead, h => by
    rw [Arguments.tokens]
    exact ⟨hhead, h⟩
  | .some items, rest, hhead, h => by
    rw [Arguments.tokens]
    exact ⟨(items.startsOperand.append rest).noCallHead, items.callsTight rest hhead h⟩

theorem Items.callsTight : (items : Items) → (rest : List Token) →
    NoCallHead rest → CallsTight rest → CallsTight (items.tokens ++ rest)
  | .one arg, rest, hhead, h => by
    rw [Items.tokens]
    exact arg.callsTight rest hhead h
  | .more arg comma more, rest, hhead, h => by
    rw [Items.tokens, List.append_assoc, List.cons_append]
    refine arg.callsTight _ (noCallHead_cons _ (by rw [comma.property]; decide)) ?_
    refine .cons (by rw [comma.property]; decide) ?_ (more.callsTight rest hhead h)
    exact (more.startsOperand.append rest).noCallHead

end

end Grammar

/-! ## The characters of a statement's text -/

/-- The characters behind a token of kind `before` in the text of a statement. -/
def textTail (before : Kind) : List Token → List Char
  | [] => [';']
  | tk :: rest =>
    (if Statement.isSpaced before tk.kind then [' '] else []) ++
      (tk.source.chars ++ textTail tk.kind rest)

/-- Every token is one of a source. -/
def AllWritten (tokens : List Token) : Prop := ∀ tk ∈ tokens, ∃ text, Written tk text

theorem ofChars_textTail {tokens : List Token} (h : AllWritten tokens) (before : Kind) :
    Bytes.ofChars (textTail before tokens) = Statement.textAfter before tokens ++ ";" := by
  induction tokens generalizing before with
  | nil => rfl
  | cons tk rest ih =>
    obtain ⟨text, hw⟩ := h tk List.mem_cons_self
    rw [textTail, Statement.textAfter, Bytes.ofChars_append, Bytes.ofChars_append,
      hw.chars_source, hw.source, ih fun tk' htk' => h tk' (List.mem_cons_of_mem _ htk')]
    split <;> simp [Bytes.ofString]

/-- A statement is written as if it stood behind `(`. -/
theorem text_eq {stmt : Statement} (h : AllWritten stmt) :
    stmt.text = Bytes.ofChars (textTail .leftParen stmt) := by
  rw [ofChars_textTail h]
  cases stmt with
  | nil => rfl
  | cons tk rest => rfl

theorem source_of_sign (tk : Token) (c : Char) (h : signKind? c = some tk.kind) :
    tk.source.chars = [c] := by
  have hsource : tk.source = Bytes.ofString tk.kind.name := by
    unfold Token.source
    generalize tk.kind = k at h
    unfold signKind? at h
    split at h
    all_goals cases h
    all_goals rfl
  rw [hsource, Bytes.ofString, name_of_signKind? h, Bytes.chars_ofChars]

/-- Behind the blank of a symbol stands the next token, which is no `(`. -/
theorem nameKind_blank {c : Char} {rest : List Char} (hc : isOpening c = true) (hparen : c ≠ '(') :
    nameKind (' ' :: c :: rest) = .symbol := by
  obtain ⟨⟨hspace, htab, -, -⟩, -⟩ := (isOpening_iff c).1 hc
  unfold nameKind
  rw [if_neg (by simp [hspace, htab, hparen])]

/-- What a statement's text has behind a token ends the token. -/
theorem stops_textTail {tk : Token} {rest : List Token} (h : AllWritten rest)
    (htight : CallsTight (tk :: rest)) : Stops tk.kind (textTail tk.kind rest) := by
  cases rest with
  | nil => exact .of_end htight rfl rfl
  | cons next rest =>
    obtain ⟨hcall, -⟩ := htight
    obtain ⟨text, hw⟩ := h next List.mem_cons_self
    rw [textTail]
    by_cases hf : tk.kind = .func
    · have hnext := source_of_sign next '(' (by rw [hcall.1 hf]; rfl)
      rw [hf, hnext]
      rfl
    by_cases hp : tk.kind = .leftParen
    · rw [hp]
      trivial
    -- What is left has a sign behind it that closes or separates arguments, or else a blank.
    by_cases hright : next.kind = .rightParen
    · rw [hright, source_of_sign next ')' (by rw [hright]; rfl)]
      exact .of_end hf (by simp [Statement.isSpaced, isEnd])
        (by simp [Statement.isSpaced, nameKind])
    by_cases hcomma : next.kind = .comma
    · rw [hcomma, source_of_sign next ',' (by rw [hcomma]; rfl)]
      exact .of_end hf (by simp [Statement.isSpaced, isEnd])
        (by simp [Statement.isSpaced, nameKind])
    have hspaced : Statement.isSpaced tk.kind next.kind = true := by
      simp [Statement.isSpaced, hf, hp, hright, hcomma]
    obtain ⟨c, cs, rfl, hopen, hparen, -⟩ := hw.opening
    rw [hspaced, if_pos rfl, hw.chars_source]
    exact .of_end hf rfl (nameKind_blank hopen fun hc => hf (hcall.2 (hparen hc)))

/-! ## Reading it -/

/-- Where neither a blank nor a comment begins, there is no gap. -/
theorem splitGap_opening {c : Char} {rest : List Char} (hc : isOpening c = true)
    (hcomment : c = '/' → rest.head? ≠ some '/' ∧ rest.head? ≠ some '*') :
    splitGap (c :: rest) = .ok ([], c :: rest) := by
  obtain ⟨⟨hspace, htab, hline, hreturn⟩, hhash⟩ := (isOpening_iff c).1 hc
  rw [splitGap, if_neg (by simp [Text.isScriptBlank, hspace, htab, hline, hreturn]),
    if_neg (by simpa using hhash)]
  rw [if_neg (by simpa using fun h => (hcomment h).1),
    if_neg (by simpa using fun h => (hcomment h).2)]

theorem splitGap_none {c : Char} {rest : List Char} (hc : isOpening c = true)
    (hslash : c = '/' → rest.head?.any isEnd = true) :
    splitGap (c :: rest) = .ok ([], c :: rest) := by
  refine splitGap_opening hc fun h => ?_
  obtain ⟨d, after, rfl, hd⟩ := head_of_isEnd (hslash h)
  constructor
  all_goals
    intro hhead
    obtain rfl := Option.some.inj hhead
    exact absurd hd (by decide)

theorem splitGap_blank {c : Char} {rest : List Char}
    (h : splitGap (c :: rest) = .ok ([], c :: rest)) :
    splitGap (' ' :: c :: rest) = .ok ([' '], c :: rest) := by
  rw [splitGap, if_pos (by decide), h]
  rfl

/-- Reading one token behind a gap. -/
theorem lexFrom_lexeme {cs gap rest after : List Char} {c : Char} {lx : Lexeme} (p : Pos)
    (hg : splitGap cs = .ok (gap, c :: rest)) (hl : splitLexeme c rest = .ok (lx, after)) :
    lexFrom p cs =
      (lexFrom ((p.advanceBy gap).advanceBy lx.chars) after).map fun tokens =>
        { kind := lx.kind, lexeme := Bytes.ofChars lx.chars, value := lx.value,
          pos := p.advanceBy gap } :: tokens := by
  rw [lexFrom]
  split
  · next h => rw [hg] at h; cases h
  · next h => rw [hg] at h; cases h
  · next gap' c' rest' h =>
    rw [hg] at h
    obtain ⟨rfl, rfl, rfl⟩ := by simpa using h
    split
    · next h' => rw [hl] at h'; cases h'
    · next lx' after' h' =>
      rw [hl] at h'
      obtain ⟨rfl, rfl⟩ := by simpa using h'
      rfl

theorem lexFrom_semicolon (p : Pos) : lexFrom p [';'] = .ok [⟨.semicolon, ";", .nil, p⟩] := by
  have hg : splitGap [';'] = .ok ([], [';']) := splitGap_none (by decide) (by decide)
  have hl : splitLexeme ';' [] = .ok (⟨.semicolon, [';'], .nil⟩, []) := rfl
  rw [lexFrom_lexeme p hg hl, lexFrom, splitGap]
  rfl

/-- A token behind at most one blank is read as it was written, and reading goes on behind it. -/
theorem Lexer.Written.lexFrom {tk : Token} {text rest : List Char} (h : Written tk text)
    (hstop : Stops tk.kind rest) (p : Pos) (spaced : Bool) :
    ∃ tk' p', tk'.Agrees tk ∧
      Lexer.lexFrom p ((if spaced then [' '] else []) ++ (text ++ rest)) =
        (Lexer.lexFrom p' rest).map (tk' :: ·) := by
  obtain ⟨c, cs, rfl, hopen, -, hslash⟩ := h.opening
  have hl := h.splitLexeme hstop
  -- A `/` is no gap here: it is all of its token, and what stops it does not make a comment of it.
  have hg : splitGap (c :: (cs ++ rest)) = .ok ([], c :: (cs ++ rest)) := by
    refine splitGap_none hopen fun hc => ?_
    obtain ⟨hdivide, rfl⟩ := hslash hc
    rw [hdivide] at hstop
    exact hstop
  have hgap : ∃ gap, splitGap ((if spaced then [' '] else []) ++ (c :: cs ++ rest)) =
      .ok (gap, c :: (cs ++ rest)) := by
    cases spaced with
    | false => exact ⟨[], hg⟩
    | true => exact ⟨[' '], splitGap_blank hg⟩
  obtain ⟨gap, hgap⟩ := hgap
  refine ⟨⟨tk.kind, Bytes.ofChars (c :: cs), tk.value, p.advanceBy gap⟩, _,
    ⟨rfl, fun hk => h.lexeme ?_, fun _ => rfl⟩, lexFrom_lexeme p hgap hl⟩
  intro hstring
  dsimp only at hk
  rw [hstring] at hk
  simp at hk

theorem lexFrom_textTail {tokens : List Token} (h : AllWritten tokens)
    (htight : CallsTight tokens) (before : Kind) (p : Pos) :
    ∃ tokens' semi, lexFrom p (textTail before tokens) = .ok (tokens' ++ [semi]) ∧
      semi.kind = .semicolon ∧ List.Forall₂ Token.Agrees tokens' tokens := by
  -- Places differ from those of the first reading, so the place is as general as the kind before.
  induction tokens generalizing before p with
  | nil => exact ⟨[], _, lexFrom_semicolon p, rfl, .nil⟩
  | cons tk rest ih =>
    have hrest : AllWritten rest := fun tk' htk' => h tk' (List.mem_cons_of_mem _ htk')
    obtain ⟨text, hw⟩ := h tk List.mem_cons_self
    obtain ⟨tk', p', hagrees, hlex⟩ :=
      hw.lexFrom (stops_textTail hrest htight) p (Statement.isSpaced before tk.kind)
    obtain ⟨tokens', semi, hmore, hsemi, hall⟩ := ih hrest htight.tail tk.kind p'
    refine ⟨tk' :: tokens', semi, ?_, hsemi, .cons hagrees hall⟩
    rw [textTail, hw.chars_source, hlex, hmore]
    rfl

theorem roundTrips_of_written {stmt : Statement} (h : AllWritten stmt) (htight : CallsTight stmt) :
    stmt.RoundTrips := by
  obtain ⟨tokens, semi, hlex, hsemi, hall⟩ := lexFrom_textTail h htight .leftParen .start
  refine ⟨tokens, semi, ?_, hsemi, hall, Statement.text_agrees hall⟩
  rw [lex, text_eq h, Bytes.chars_ofChars]
  exact hlex

/-- **The tokens of a tree are read back from their text**, if they come from a source. -/
theorem Grammar.roundTrips_tokens (t : Expression .last) (h : AllWritten t.tokens) :
    Statement.RoundTrips t.tokens := by
  have htight := t.callsTight [] (fun tk htk => by cases htk) trivial
  rw [List.append_nil] at htight
  exact roundTrips_of_written h htight

end ChartScript
