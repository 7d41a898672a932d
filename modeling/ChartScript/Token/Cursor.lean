import ChartScript.Token.Basic

/-!
# Walking over tokens

A cursor stands between two tokens of a list. It can step over the next one, look at it, and look
back at the last one; stepping or looking beyond the end is an error of its own (`PastEnd`), which
is why a reader asks `hasNext` first.
-/

set_option autoImplicit false

namespace ChartScript

/-- A place between the tokens behind (`seen`, newest first) and the tokens ahead. -/
structure Cursor where
  seen : List Token
  ahead : List Token

/-- The attempt to read a token beyond the end of a list of `length` tokens. -/
structure PastEnd where
  length : Nat
  deriving DecidableEq, Repr

/-- The text of the error. -/
def PastEnd.message (e : PastEnd) : Bytes :=
  "runtime error: index out of range [" ++ Bytes.ofNat e.length ++ "] with length " ++
    Bytes.ofNat e.length

namespace Cursor

/-- The cursor before the first token. -/
def ofList (tokens : List Token) : Cursor := ⟨[], tokens⟩

/-- Whether a token is left. -/
def hasNext (c : Cursor) : Bool := !c.ahead.isEmpty

/-- How many tokens are left. -/
def remaining (c : Cursor) : Nat := c.ahead.length

/-- The last token stepped over. -/
def last? (c : Cursor) : Option Token := c.seen.head?

/-- The next token. -/
def peek (c : Cursor) : Except PastEnd Token :=
  match c.ahead with
  | tk :: _ => .ok tk
  | [] => .error ⟨c.seen.length⟩

/-- Steps over the next token. -/
def next (c : Cursor) : Except PastEnd (Token × Cursor) :=
  match c.ahead with
  | tk :: rest => .ok (tk, ⟨tk :: c.seen, rest⟩)
  | [] => .error ⟨c.seen.length⟩

/-- A step leaves one token fewer ahead. -/
theorem remaining_of_next {c c' : Cursor} {tk : Token} (h : c.next = .ok (tk, c')) :
    c'.remaining < c.remaining := by
  obtain ⟨seen, ahead⟩ := c
  cases ahead with
  | nil => simp [next] at h
  | cons t rest =>
    simp only [next, Except.ok.injEq, Prod.mk.injEq] at h
    obtain ⟨-, rfl⟩ := h
    simp [remaining]

end Cursor

end ChartScript
