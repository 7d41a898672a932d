import ChartScript.Token.Cursor
import ChartScript.Token.Lexer
import ChartScript.Value.Arithmetic

/-!
# Why a script stops

The causes by which a statement yields no value, each with what it needs to be explained, and the
text of each.
-/

set_option autoImplicit false

namespace ChartScript

/-- What is wrong with the structure of a statement. -/
inductive SyntaxCause where
  | endOfInput
  | trailingSymbol
  | noLeftParen
  | unexpectedComma
  | noSeparator
  /-- A cause in the words of another reader of statements. -/
  | other (words : Bytes)

/-- The words for a cause. -/
def SyntaxCause.text : SyntaxCause → Bytes
  | .endOfInput => "unexpected end of input"
  | .trailingSymbol => "unexpected symbol at end of statement"
  | .noLeftParen => "expecting left parenthesis"
  | .unexpectedComma => "unexpected comma"
  | .noSeparator => "expecting ',' or ')'"
  | .other words => words

/-- A malformed statement, expression or argument list. `func` is the function whose arguments were
being read, if any. -/
structure SyntaxError where
  pos : Pos
  cause : SyntaxCause
  func : Bytes := []

namespace SyntaxError

/-- Whether more input could have completed the statement. -/
def isEnd (e : SyntaxError) : Bool :=
  match e.cause with
  | .endOfInput => true
  | _ => false

/-- The text of the error; the place is left out when there is none. -/
def message (e : SyntaxError) : Bytes :=
  let place : Bytes := if e.pos.line = 0 then [] else e.pos.text ++ ": "
  let func : Bytes := if e.func.isEmpty then [] else e.func ++ ": "
  place ++ "syntax error: " ++ func ++ e.cause.text

end SyntaxError

/-- A place where the structure of a statement breaks off. -/
inductive Fault where
  | malformed (e : SyntaxError)
  /-- A token that cannot begin an operand. -/
  | unsupportedPrimary (tk : Token)
  /-- A step beyond the last token. -/
  | pastEnd (e : PastEnd)

/-- The text of a fault. -/
def Fault.message : Fault → Bytes
  | .malformed e => e.message
  | .unsupportedPrimary tk => "unsupported primary expression: " ++ tk.describe
  | .pastEnd e => e.message

/-- What a standard function objects to in its arguments. -/
inductive ArgumentFault where
  | noName
  | nameNotText (v : Value)
  | noScopeForChart
  | propertyCount (n : Nat)
  | notText (v : Value)
  | noProperty (name : Bytes)
  | setPropertyCount (n : Nat)
  | noScopeForProperty (name : Bytes)
  | noArgument
  | notNumbers (v : Value)
  | notOne (n : Nat)
  | notNumber (v : Value)
  | unreadable (t : Bytes)
  | unconvertible (v : Value)

/-- The words for an objection. -/
def ArgumentFault.text : ArgumentFault → Bytes
  | .noName => "expects a name"
  | .nameNotText v => "name must be Text, got " ++ v.describe
  | .noScopeForChart => "no scope to record the chart in"
  | .propertyCount n => "expects name and optional default, got " ++ Bytes.ofNat n ++ " arguments"
  | .notText v => "expects Text, got " ++ v.describe
  | .noProperty name => "no property " ++ name.quote
  | .setPropertyCount n => "expects name and value, got " ++ Bytes.ofNat n ++ " arguments"
  | .noScopeForProperty name => "no scope to store " ++ name.quote ++ " in"
  | .noArgument => "expects at least 1 argument"
  | .notNumbers v => "expects numbers, got " ++ v.describe
  | .notOne n => "expects 1 argument, got " ++ Bytes.ofNat n
  | .notNumber v => "expects a number, got " ++ v.describe
  | .unreadable t => "cannot convert " ++ t.quote
  | .unconvertible v => "cannot convert " ++ v.describe

/-- Why a call yields no value. -/
inductive CallError where
  | unknownFunction (name : Bytes)
  | argument (func : Bytes) (fault : ArgumentFault)
  /-- A function of a plugin failed, with its own words. -/
  | plugin (func path words : Bytes)
  | other (words : Bytes)

/-- The text of a call's error. -/
def CallError.message : CallError → Bytes
  | .unknownFunction name => "unknown function: " ++ name
  | .argument func fault => func ++ ": " ++ fault.text
  | .plugin func path words => "plugin " ++ func ++ " (" ++ path ++ "): " ++ words
  | .other words => words

/-- Why a statement yields no value. -/
inductive EvalError where
  | fault (f : Fault)
  /-- A symbol is read that no scope on the way to the root binds. -/
  | uninitialized (name : Bytes) (pos : Pos)
  | operation (e : OperationError)
  | call (e : CallError)
  /-- A function is called where none can be. -/
  | noDispatcher

/-- The text of a statement's error. -/
def EvalError.message : EvalError → Bytes
  | .fault f => f.message
  | .uninitialized name pos => pos.text ++ ": uninitialized symbol: " ++ name
  | .operation e => e.message
  | .call e => e.message
  | .noDispatcher => "no function dispatcher configured"

/-- Why a script stops: its source does not lex, or a statement yields no value. -/
inductive ScriptError where
  | lexical (e : LexError)
  | evaluation (e : EvalError)

/-- The text of a script's error. -/
def ScriptError.message : ScriptError → Bytes
  | .lexical e => e.message
  | .evaluation e => e.message

end ChartScript
