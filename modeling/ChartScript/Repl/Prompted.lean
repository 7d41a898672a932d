import ChartScript.Text.Blank
import ChartScript.Token.Lexer

/-!
# Reading a statement at the prompt

Lines are asked for until what was typed so far is a whole: it ends in a terminator, it does not lex,
or it has no tokens. A line that begins with a colon is an order to the prompt itself and is a whole
by itself, but only where a statement could begin. Who breaks off at a prompt drops what was typed so
far.
-/

set_option autoImplicit false

namespace ChartScript

/-- What comes of asking for a line while there is input. -/
inductive Typed where
  | line (text : Bytes)
  /-- The prompt was broken off. -/
  | aborted

/-- What came of asking for a statement. -/
structure Prompted where
  /-- The prompts that were shown. -/
  prompts : Bytes
  /-- What was typed, unless the input ended before it was a whole. -/
  source : Option Bytes
  /-- The lines that were not asked for. -/
  rest : List Typed

namespace Prompted

/-- The prompt for a line; `pending` is what was typed of a statement so far. -/
def prompt (pending : Bytes) : Bytes := if pending.isEmpty then "dt> " else "... "

/-- Whether a line is an order to the prompt. -/
def isOrder (line : Bytes) : Bool := line.trim.head? == some 58

/-- What was typed, with one more line. -/
def extend (pending line : Bytes) : Bytes :=
  if pending.isEmpty then line else pending ++ Bytes.newline ++ line

/-- Reads a statement. -/
def read (pending : Bytes) : List Typed → Prompted
  | [] => ⟨prompt pending, none, []⟩
  | .aborted :: rest => ⟨prompt pending, some [], rest⟩
  | .line line :: rest =>
    let source := extend pending line
    if !(pending.isEmpty && isOrder line) && needsMore source then
      let more := read source rest
      { more with prompts := prompt pending ++ more.prompts }
    else ⟨prompt pending, some source, rest⟩

/-- A statement uses up lines. -/
theorem read_rest_length {pending source : Bytes} {lines : List Typed}
    (h : (read pending lines).source = some source) :
    (read pending lines).rest.length < lines.length := by
  induction lines generalizing pending with
  | nil => simp [read] at h
  | cons typed rest ih =>
    cases typed with
    | aborted => exact Nat.lt_succ_self _
    | line line =>
      unfold read at h ⊢
      simp only at h ⊢
      split
      · rename_i more
        rw [if_pos more] at h
        exact Nat.lt_succ_of_lt (ih h)
      · exact Nat.lt_succ_self _

end Prompted

end ChartScript
