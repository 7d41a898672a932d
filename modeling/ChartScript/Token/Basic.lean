import ChartScript.Value.Basic

/-!
# Tokens and statements

A token has a kind, the text it was read from, a value if it is a literal, and a position. A
statement is the run of tokens before a `;`. `Statement.text` writes a statement back as script
text: one blank between two tokens, except where a call is written tight.
-/

set_option autoImplicit false

namespace ChartScript

/-- A place in a source: line and column count from 1, the offset counts the characters before. -/
structure Pos where
  line : Int
  column : Int
  offset : Int
  deriving DecidableEq, Repr

namespace Pos

/-- The place of no token. -/
def none : Pos := ⟨0, 0, 0⟩

/-- The beginning of a source. -/
def start : Pos := ⟨1, 1, 0⟩

/-- The place behind a character. -/
def advance (p : Pos) (c : Char) : Pos :=
  if c == '\n' then ⟨p.line + 1, 1, p.offset + 1⟩ else ⟨p.line, p.column + 1, p.offset + 1⟩

/-- The place behind a list of characters. -/
def advanceBy (p : Pos) (cs : List Char) : Pos := cs.foldl advance p

/-- Line and column. -/
def text (p : Pos) : Bytes := Bytes.ofInt p.line ++ ":" ++ Bytes.ofInt p.column

end Pos

/-- The kinds of tokens; `unknown` is a kind number that stands for none of them. -/
inductive Kind where
  | int
  | real
  | string
  | symbol
  | func
  | plus
  | minus
  | times
  | divide
  | assign
  | leftParen
  | rightParen
  | comma
  | semicolon
  | unknown
  deriving DecidableEq, Repr

namespace Kind

/-- The name of a kind, which for signs is the sign itself. -/
def name : Kind → String
  | .int => "Int"
  | .real => "Real"
  | .string => "String"
  | .symbol => "Symbol"
  | .func => "Func"
  | .plus => "+"
  | .minus => "-"
  | .times => "*"
  | .divide => "/"
  | .assign => "="
  | .leftParen => "("
  | .rightParen => ")"
  | .comma => ","
  | .semicolon => ";"
  | .unknown => "Unknown"

/-- The kind with a given number. -/
def ofCode : Int → Kind
  | 0 => .int
  | 1 => .real
  | 2 => .string
  | 3 => .symbol
  | 4 => .func
  | 5 => .plus
  | 6 => .minus
  | 7 => .times
  | 8 => .divide
  | 9 => .assign
  | 10 => .leftParen
  | 11 => .rightParen
  | 12 => .comma
  | 13 => .semicolon
  | _ => .unknown

/-- Whether tokens of this kind carry a value. -/
def isLiteral : Kind → Bool
  | .int | .real | .string => true
  | _ => false

end Kind

/-- One unit of a script. `lexeme` is the text it was read from; symbols and functions have their
name there, literals carry a `value`. -/
structure Token where
  kind : Kind
  lexeme : Bytes
  value : Value := .nil
  pos : Pos

namespace Token

/-- A token as messages show it. -/
def describe (tk : Token) : Bytes :=
  match tk.kind with
  | .int | .real | .symbol | .func =>
    (tk.kind.name : Bytes) ++ " " ++ tk.lexeme ++ " at " ++ tk.pos.text
  | .string => (tk.kind.name : Bytes) ++ " " ++ tk.value.inspect.quote ++ " at " ++ tk.pos.text
  | kind => "'" ++ (kind.name : Bytes) ++ "' at " ++ tk.pos.text

/-- A token as script text. A string is quoted anew from its value. -/
def source (tk : Token) : Bytes :=
  match tk.kind with
  | .int | .real | .symbol | .func => tk.lexeme
  | .string => tk.value.inspect.quote
  | kind => kind.name

end Token

/-- The tokens between two terminators, without the terminator. -/
abbrev Statement := List Token

namespace Statement

/-- Whether a blank separates two neighbours: none behind a function name or `(`, none before `)`
or `,`. -/
def isSpaced (left right : Kind) : Bool :=
  left != .func && left != .leftParen && right != .rightParen && right != .comma

/-- The tokens of a statement as script text, behind a token of kind `before`. -/
def textAfter (before : Kind) : List Token → Bytes
  | [] => []
  | tk :: rest =>
    (if isSpaced before tk.kind then Bytes.ofString " " else []) ++ tk.source ++ textAfter tk.kind rest

/-- A statement as script text, with its terminator. -/
def text : Statement → Bytes
  | [] => ";"
  | tk :: rest => tk.source ++ textAfter tk.kind rest ++ ";"

end Statement

end ChartScript
