import ChartScript.Decimal.Reading
import ChartScript.Text.Blank
import ChartScript.Text.Letter
import ChartScript.Token.Basic

/-!
# From source to tokens

`lex` reads the characters of a source from left to right: it drops the gap before the next token
(blanks and comments), cuts the token's lexeme off the front, and goes on with the rest. Each of
these cuts only splits the list of characters in two, so positions are counted from what was cut
off and nothing else.
-/

set_option autoImplicit false

namespace ChartScript

open Text

/-- What is wrong at a place where no token can be read. -/
inductive LexFault where
  | unexpected (c : Char)
  | integerRange (lexeme : Bytes)
  | badReal (lexeme : Bytes)
  | badString (lexeme : Bytes)
  | unterminatedString
  | unterminatedComment

/-- The text of a fault. -/
def LexFault.message : LexFault → Bytes
  | .unexpected c => "unexpected character " ++ quoteChar c
  | .integerRange lexeme => "integer literal out of range: " ++ lexeme
  | .badReal lexeme => "bad real literal: " ++ lexeme
  | .badString lexeme => "bad string literal " ++ lexeme
  | .unterminatedString => "unterminated string"
  | .unterminatedComment => "unterminated comment"

/-- A fault and the place where the offending token or comment begins. -/
structure LexError where
  pos : Pos
  fault : LexFault

/-- The text of an error, with its place. -/
def LexError.message (e : LexError) : Bytes := e.pos.text ++ ": " ++ e.fault.message

namespace Lexer

/-! ## Gaps -/

/-- The characters up to the end of the line, and the line end with what follows. -/
def splitLine (cs : List Char) : List Char × List Char :=
  (cs.takeWhile (· != '\n'), cs.dropWhile (· != '\n'))

/-- The body of a comment up to and including `*/`, and what follows; none if it is not closed. -/
def splitComment? : List Char → Option (List Char × List Char)
  | [] => none
  | c :: rest =>
    match c, rest with
    | '*', '/' :: after => some (['*', '/'], after)
    | _, _ => (splitComment? rest).map fun (body, after) => (c :: body, after)

/-- A closed comment leaves less than it was given. -/
theorem splitComment?_length {cs body rest : List Char}
    (h : splitComment? cs = some (body, rest)) : rest.length < cs.length := by
  induction cs generalizing body with
  | nil => simp [splitComment?] at h
  | cons c cs ih =>
    unfold splitComment? at h
    split at h
    · simp only [Option.some.injEq, Prod.mk.injEq] at h
      obtain ⟨-, rfl⟩ := h
      simp only [List.length_cons]
      omega
    · obtain ⟨⟨body', after⟩, hc, heq⟩ := Option.map_eq_some_iff.1 h
      simp only [Prod.mk.injEq] at heq
      obtain ⟨-, rfl⟩ := heq
      exact Nat.lt_succ_of_lt (ih hc)

/-- Puts `front` before the gap of a split; a failure has it before the open comment. -/
def gapAfter (front : List Char) :
    Except (List Char) (List Char × List Char) → Except (List Char) (List Char × List Char)
  | .ok (gap, rest) => .ok (front ++ gap, rest)
  | .error before => .error (front ++ before)

/-- The gap at the front (blanks, `#` and `//` comments up to the line end, closed `/* */`
comments) and what follows it. Fails at a comment that is never closed, with what stands before. -/
def splitGap (cs : List Char) : Except (List Char) (List Char × List Char) :=
  match cs with
  | [] => .ok ([], [])
  | c :: rest =>
    if isScriptBlank c then gapAfter [c] (splitGap rest)
    else if c == '#' then
      gapAfter (c :: (splitLine rest).1) (splitGap (splitLine rest).2)
    else if c == '/' && rest.head? == some '/' then
      gapAfter (c :: (splitLine rest).1) (splitGap (splitLine rest).2)
    else if c == '/' && rest.head? == some '*' then
      match _h : splitComment? (rest.drop 1) with
      | some (body, after) => gapAfter (c :: '*' :: body) (splitGap after)
      | none => .error []
    else .ok ([], c :: rest)
termination_by cs.length
decreasing_by
  · simp
  · exact Nat.lt_succ_of_le (List.dropWhile_suffix _).length_le
  · exact Nat.lt_succ_of_le (List.dropWhile_suffix _).length_le
  · have := splitComment?_length _h
    simp only [List.length_drop] at this
    simp only [List.length_cons]
    omega

/-! ## Lexemes -/

/-- Whether a character may begin a name. -/
def isNameStart (c : Char) : Bool := c == '_' || isLetter c

/-- Whether a character may continue a name. -/
def isNamePart (c : Char) : Bool := c == '_' || c == '.' || isLetter c || isDecimalDigit c

/-- The kind of a token that is a single sign. -/
def signKind? : Char → Option Kind
  | '+' => some .plus
  | '-' => some .minus
  | '*' => some .times
  | '/' => some .divide
  | '=' => some .assign
  | '(' => some .leftParen
  | ')' => some .rightParen
  | ',' => some .comma
  | ';' => some .semicolon
  | _ => none

/-- A lexeme with its kind and value, before it has a place. -/
structure Lexeme where
  kind : Kind
  chars : List Char
  value : Value := .nil

/-- A name is a function's when `(` follows it, blanks and tabs allowed in between. -/
def nameKind (after : List Char) : Kind :=
  if (after.dropWhile fun c => c == ' ' || c == '\t').head? == some '(' then .func else .symbol

/-- The name at the front. -/
def splitName (c : Char) (rest : List Char) : Lexeme × List Char :=
  let after := rest.dropWhile isNamePart
  ({ kind := nameKind after, chars := c :: rest.takeWhile isNamePart }, after)

/-- The number at the front: digits, and a fraction when a digit follows the point. -/
def splitNumber (cs : List Char) : Except LexFault (Lexeme × List Char) :=
  let whole := cs.takeWhile isAsciiDigit
  let after := cs.dropWhile isAsciiDigit
  let fraction := (after.drop 1).takeWhile isAsciiDigit
  if after.head? == some '.' && !fraction.isEmpty then
    let lexeme := whole ++ '.' :: fraction
    match readReal? lexeme with
    | some x =>
      .ok ({ kind := .real, chars := lexeme, value := .real x },
        (after.drop 1).dropWhile isAsciiDigit)
    | none => .error (.badReal (Bytes.ofChars lexeme))
  else
    match readInteger? whole with
    | some n => .ok ({ kind := .int, chars := whole, value := .integer n }, after)
    | none => .error (.integerRange (Bytes.ofChars whole))

/-- What stands between the opening quote and its closing quote, which may not be on a later line,
and what follows the closing quote. A backslash keeps the next character from closing. -/
def splitString? : List Char → Option (List Char × List Char)
  | [] => none
  | c :: rest =>
    if c == '"' then some ([], rest)
    else if c == '\n' then none
    else if c == '\\' then
      match rest with
      | [] => none
      | e :: after => (splitString? after).map fun (body, tail) => (c :: e :: body, tail)
    else (splitString? rest).map fun (body, after) => (c :: body, after)

/-- The string literal whose opening quote has been read. -/
def splitText (cs : List Char) : Except LexFault (Lexeme × List Char) :=
  match splitString? cs with
  | none => .error .unterminatedString
  | some (body, after) =>
    let lexeme := '"' :: body ++ ['"']
    match Quoted.unquoteBody? body with
    | some t => .ok ({ kind := .string, chars := lexeme, value := .text t }, after)
    | none => .error (.badString (Bytes.ofChars lexeme))

/-- The lexeme at the front of a text that does not begin with a gap. -/
def splitLexeme (c : Char) (rest : List Char) : Except LexFault (Lexeme × List Char) :=
  if c == '"' then splitText rest
  else match signKind? c with
    | some kind => .ok ({ kind, chars := [c] }, rest)
    | none =>
      if isAsciiDigit c then splitNumber (c :: rest)
      else if isNameStart c then .ok (splitName c rest)
      else .error (.unexpected c)

/-- A string's rest is shorter than what follows its opening quote. -/
theorem splitString?_length {cs body rest : List Char}
    (h : splitString? cs = some (body, rest)) : rest.length < cs.length := by
  fun_induction splitString? cs generalizing body rest with
  | case1 => simp at h
  | case2 c cs hc =>
    simp only [Option.some.injEq, Prod.mk.injEq] at h
    obtain ⟨-, rfl⟩ := h
    simp
  | case3 c cs => simp at h
  | case4 c => simp at h
  | case5 c _ _ _ e after ih =>
    obtain ⟨⟨body', tail⟩, hs, heq⟩ := Option.map_eq_some_iff.1 h
    simp only [Prod.mk.injEq] at heq
    obtain ⟨-, rfl⟩ := heq
    have := ih hs
    simp only [List.length_cons]
    omega
  | case6 c cs _ _ _ ih =>
    obtain ⟨⟨body', after⟩, hs, heq⟩ := Option.map_eq_some_iff.1 h
    simp only [Prod.mk.injEq] at heq
    obtain ⟨-, rfl⟩ := heq
    exact Nat.lt_succ_of_lt (ih hs)

/-- A lexeme takes at least one character. -/
theorem splitLexeme_length {c : Char} {rest after : List Char} {lx : Lexeme}
    (h : splitLexeme c rest = .ok (lx, after)) : after.length < (c :: rest).length := by
  have shorter : ∀ (p : Char → Bool) (cs : List Char), (cs.dropWhile p).length ≤ cs.length :=
    fun p cs => (List.dropWhile_suffix p).length_le
  unfold splitLexeme at h
  split at h
  · unfold splitText at h
    split at h
    · simp at h
    · next body tail hs =>
      split at h
      · simp only [Except.ok.injEq, Prod.mk.injEq] at h
        obtain ⟨-, rfl⟩ := h
        exact Nat.lt_succ_of_lt (splitString?_length hs)
      · simp at h
  · split at h
    · simp only [Except.ok.injEq, Prod.mk.injEq] at h
      obtain ⟨-, rfl⟩ := h
      simp
    · split at h
      · next hd =>
        have hwhole : ((c :: rest).dropWhile isAsciiDigit).length < (c :: rest).length := by
          simp only [List.dropWhile_cons, hd, if_true, List.length_cons]
          exact Nat.lt_succ_of_le (shorter _ _)
        unfold splitNumber at h
        simp only at h
        split at h
        · split at h
          · simp only [Except.ok.injEq, Prod.mk.injEq] at h
            obtain ⟨-, rfl⟩ := h
            refine Nat.lt_of_le_of_lt (shorter _ _) ?_
            simp only [List.length_drop]
            omega
          · simp at h
        · split at h
          · simp only [Except.ok.injEq, Prod.mk.injEq] at h
            obtain ⟨-, rfl⟩ := h
            exact hwhole
          · simp at h
      · split at h
        · simp only [Except.ok.injEq, splitName, Prod.mk.injEq] at h
          obtain ⟨-, rfl⟩ := h
          exact Nat.lt_succ_of_le (shorter _ _)
        · simp at h

/-- A gap leaves at most what it was given. -/
theorem splitGap_length {cs gap rest : List Char} (h : splitGap cs = .ok (gap, rest)) :
    rest.length ≤ cs.length := by
  have gapAfter_ok : ∀ {front : List Char} {r : Except (List Char) (List Char × List Char)}
      {gap rest : List Char}, gapAfter front r = .ok (gap, rest) →
        ∃ gap', r = .ok (gap', rest) := by
    intro front r gap rest h
    cases r with
    | error e => simp [gapAfter] at h
    | ok p =>
      simp only [gapAfter, Except.ok.injEq, Prod.mk.injEq] at h
      exact ⟨p.1, by rw [← h.2]⟩
  have shorter : ∀ (cs : List Char), (splitLine cs).2.length ≤ cs.length :=
    fun cs => (List.dropWhile_suffix _).length_le
  fun_induction splitGap cs generalizing gap rest with
  | case1 => simp_all
  | case2 c cs _ ih =>
    obtain ⟨gap', h'⟩ := gapAfter_ok h
    exact Nat.le_succ_of_le (ih h')
  | case3 c cs _ _ ih =>
    obtain ⟨gap', h'⟩ := gapAfter_ok h
    exact Nat.le_succ_of_le (Nat.le_trans (ih h') (shorter cs))
  | case4 c cs _ _ _ ih =>
    obtain ⟨gap', h'⟩ := gapAfter_ok h
    exact Nat.le_succ_of_le (Nat.le_trans (ih h') (shorter cs))
  | case5 c cs _ _ _ _ body after hc ih =>
    obtain ⟨gap', h'⟩ := gapAfter_ok h
    have := splitComment?_length hc
    have := ih h'
    simp only [List.length_drop] at *
    simp only [List.length_cons]
    omega
  | case6 => simp at h
  | case7 c cs =>
    simp only [Except.ok.injEq, Prod.mk.injEq] at h
    exact h.2 ▸ Nat.le_refl _

/-! ## Tokens -/

/-- The tokens of a text that begins at a place. -/
def lexFrom (p : Pos) (cs : List Char) : Except LexError (List Token) :=
  match _hg : splitGap cs with
  | .error before => .error ⟨p.advanceBy before, .unterminatedComment⟩
  | .ok (_, []) => .ok []
  | .ok (gap, c :: rest) =>
    let here := p.advanceBy gap
    match _hl : splitLexeme c rest with
    | .error fault => .error ⟨here, fault⟩
    | .ok (lx, after) =>
      (lexFrom (here.advanceBy lx.chars) after).map fun tokens =>
        { kind := lx.kind, lexeme := Bytes.ofChars lx.chars, value := lx.value, pos := here } ::
          tokens
termination_by cs.length
decreasing_by
  exact Nat.lt_of_lt_of_le (splitLexeme_length _hl) (splitGap_length _hg)

end Lexer

/-- The tokens of a source. -/
def lex (source : Bytes) : Except LexError (List Token) := Lexer.lexFrom .start source.chars

/-- Whether a source lexes and its last token is a terminator. -/
def isComplete (source : Bytes) : Bool :=
  match lex source with
  | .ok tokens => tokens.getLast?.any fun tk => tk.kind == .semicolon
  | .error _ => false

/-- Whether a source lexes, has a token, and has not come to a terminator: the lines read so far
are the beginning of something. -/
def needsMore (source : Bytes) : Bool :=
  if source.trim.isEmpty || isComplete source then false
  else match lex source with
    | .ok tokens => !tokens.isEmpty
    | .error _ => false

end ChartScript
