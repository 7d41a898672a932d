import ChartScript.Proofs.Token.Lines

/-!
# Lexing further down in a text

What a text is read as does not depend on where it stands, and the places of its tokens move with it:
down by the lines in front of it and on by the characters in front of it, as long as it begins a
line (`lexFrom_shift`). Together with `lexFrom_line` this makes lexing compositional at line ends
(`lex_append_line`): behind a text that lexes, another one is read, or fails, as it would alone.
-/

set_option autoImplicit false

namespace ChartScript

/-! ## Moving places -/

/-- The place as many lines further down and as many characters further on. -/
def Pos.shift (lines chars : Nat) (p : Pos) : Pos :=
  ⟨p.line + lines, p.column, p.offset + chars⟩

def Token.shift (lines chars : Nat) (tk : Token) : Token :=
  { tk with pos := tk.pos.shift lines chars }

def LexError.shift (lines chars : Nat) (e : LexError) : LexError :=
  { e with pos := e.pos.shift lines chars }

namespace Pos

variable (lines chars : Nat)

theorem advance_shift (p : Pos) (c : Char) :
    (p.shift lines chars).advance c = (p.advance c).shift lines chars := by
  unfold advance
  split
  · simp only [shift, mk.injEq, true_and]
    omega
  · simp only [shift, mk.injEq, true_and]
    omega

theorem advanceBy_shift (p : Pos) (cs : List Char) :
    (p.shift lines chars).advanceBy cs = (p.advanceBy cs).shift lines chars := by
  induction cs generalizing p with
  | nil => rfl
  | cons c cs ih =>
    rw [advanceBy, List.foldl_cons, advance_shift]
    exact ih (p.advance c)

theorem line_advanceBy (p : Pos) (cs : List Char) :
    (p.advanceBy cs).line = p.line + cs.count '\n' := by
  induction cs generalizing p with
  | nil => simp [advanceBy]
  | cons c cs ih =>
    rw [advanceBy, List.foldl_cons]
    refine (ih (p.advance c)).trans ?_
    unfold advance
    rw [List.count_cons]
    split
    · push_cast
      omega
    · push_cast
      omega

/-- Behind a line end everything is where it would be at the beginning, but for what is in front. -/
theorem start_advanceBy_line (cs : List Char) :
    start.advanceBy (cs ++ ['\n']) = start.shift (cs.count '\n' + 1) (cs.length + 1) := by
  have hline := line_advanceBy start cs
  have hoffset := Lexer.offset_advanceBy start cs
  rw [Lexer.advanceBy_append]
  show (start.advanceBy cs).advance '\n' = _
  rw [advance, if_pos (by decide), hline, hoffset]
  simp only [shift, start, mk.injEq, true_and]
  push_cast
  omega

end Pos

/-! ## Lexing at another place -/

namespace Lexer

/-- What was read of a text, as it is read of the same text further down. -/
def shifted (lines chars : Nat) :
    Except LexError (List Token) → Except LexError (List Token)
  | .ok tokens => .ok (tokens.map (Token.shift lines chars))
  | .error e => .error (e.shift lines chars)

theorem lexFrom_shift (lines chars : Nat) (p : Pos) (cs : List Char) :
    lexFrom (p.shift lines chars) cs = shifted lines chars (lexFrom p cs) := by
  fun_induction lexFrom p cs with
  | case1 p cs before hg =>
    rw [lexFrom_open _ hg, Pos.advanceBy_shift]
    rfl
  | case2 p cs gap hg =>
    rw [lexFrom_end _ hg]
    rfl
  | case3 p cs gap c rest hg here fault hl =>
    rw [lexFrom_fault _ hg hl, Pos.advanceBy_shift]
    rfl
  | case4 p cs gap c rest hg here lx after hl =>
    rename_i ih
    rw [lexFrom_lexeme _ hg hl, Pos.advanceBy_shift, Pos.advanceBy_shift, ih]
    cases lexFrom (here.advanceBy lx.chars) after <;> rfl

end Lexer

/-- **Lexing is compositional at line ends.** Behind a text that lexes and a line end, every text is
read as it is alone, or fails with the same fault: its lines are as many further down as the first
text has, its columns are the same, and its offsets are further on by the first text. -/
theorem lex_append_line {a : Bytes} {tokens : List Token} (h : lex a = .ok tokens) (b : Bytes) :
    lex (a ++ Bytes.newline ++ b) =
      match lex b with
      | .ok more =>
        .ok (tokens ++ more.map (Token.shift (a.chars.count '\n' + 1) (a.chars.length + 1)))
      | .error e => .error (e.shift (a.chars.count '\n' + 1) (a.chars.length + 1)) := by
  rw [lex, Bytes.chars_append_newline, Lexer.lexFrom_line b.chars h, Pos.start_advanceBy_line,
    Lexer.lexFrom_shift]
  show (Lexer.shifted _ _ (lex b)).map (tokens ++ ·) = _
  cases lex b <;> rfl

/-- A string that is not closed, behind a name and a comment of two lines. -/
theorem lex_append_line_unclosed :
    ∃ tokens, lex "a /*\n*/" = .ok tokens ∧
      ∃ e, lex ("a /*\n*/" ++ Bytes.newline ++ " \"") = .error e ∧ e.pos = ⟨3, 2, 9⟩ ∧
        e.fault.message = "unterminated string" := by
  have hfirst : (lex "a /*\n*/").toOption.isSome = true := by decide +kernel
  have hsecond : (match lex " \"" with
      | .ok _ => none
      | .error e => some (e.pos, e.fault.message)) =
        some (⟨1, 2, 1⟩, Bytes.ofString "unterminated string") := by
    decide +kernel
  cases hlex : lex "a /*\n*/" with
  | error e =>
    rw [hlex] at hfirst
    cases hfirst
  | ok tokens =>
    refine ⟨tokens, rfl, ?_⟩
    rw [lex_append_line hlex]
    cases hfault : lex " \"" with
    | ok more =>
      rw [hfault] at hsecond
      cases hsecond
    | error e =>
      rw [hfault] at hsecond
      obtain ⟨hpos, hmessage⟩ := Prod.mk.inj (Option.some.inj hsecond)
      refine ⟨_, rfl, ?_, hmessage⟩
      show e.pos.shift _ _ = _
      rw [hpos]
      decide +kernel

end ChartScript
