import ChartScript.Function.Observation
import ChartScript.Repl.Prompted

/-!
# Conversations

A conversation takes turns: a statement is asked for, and it is answered. It ends with the input or
when it is told to. The statements are run one after the other in one world, so that together they do
what one script would do.
-/

set_option autoImplicit false

namespace ChartScript

/-- An order to the prompt. -/
inductive Order where
  | quit
  | dump
  | functions
  | help
  | unknown

/-- The order that a text gives. -/
def Order.ofText (text : Bytes) : Order :=
  let known : List (Bytes × Order) :=
    [(":q", .quit), (":quit", .quit), (":dump", .dump), (":funcs", .functions), (":help", .help)]
  ((known.find? fun k => k.1 == text).map (·.2)).getD .unknown

/-- How a turn is answered. -/
inductive Answer where
  /-- There was no more input. -/
  | ended
  /-- The conversation was told to end. -/
  | left
  /-- A text is shown. -/
  | shown (text : Bytes)
  /-- A source was run. -/
  | ran (source : Bytes) (seen : Observation)

/-- Whether no turn follows. -/
def Answer.isLast : Answer → Bool
  | .ended | .left => true
  | .shown _ | .ran .. => false

/-- One turn of a conversation: the prompts that were shown and the answer. -/
structure Turn where
  prompts : Bytes
  answer : Answer

/-- What a turn adds to the history of the prompt: what was run, on one line. -/
def Turn.entry? (t : Turn) : Option Bytes :=
  match t.answer with
  | .ran source _ => some (source.map fun b => if b = 10 then 32 else b)
  | .ended | .left | .shown _ => none

/-- Who answers: an evaluator and the functions it can call. -/
structure Respondent where
  evaluator : Evaluator Host
  table : FunctionTable

namespace Respondent

/-- The orders that can be given, explained. -/
def help : Bytes :=
  "REPL commands:\n" ++
  "  :dump    Print the scope\n" ++
  "  :funcs   List callable functions\n" ++
  "  :q       Exit the REPL\n"

/-- Follows an order. -/
def obey (r : Respondent) (order : Order) (w : World Host) : Answer :=
  match order with
  | .quit => .left
  | .dump => .shown (w.forest.scope r.evaluator.scope).dump
  | .functions => .shown (Bytes.join " " r.table.names ++ Bytes.newline)
  | .help => .shown help
  | .unknown => .shown "unknown command. Type :help for commands.\n"

/-- Answers what was typed: nothing to blanks, an order by obeying, anything else by running it. -/
def answer (r : Respondent) (source : Bytes) : StateM (World Host) Answer := do
  let trimmed := source.trim
  if trimmed.isEmpty then return .shown []
  else if Prompted.isOrder source then return r.obey (.ofText trimmed) (← get)
  else return .ran source (← r.evaluator.observe source)

/-- Takes turns until the input or the conversation ends. -/
def converse (r : Respondent) (lines : List Typed) : StateM (World Host) (List Turn) := do
  let asked := Prompted.read [] lines
  match _h : asked.source with
  | none => return [⟨asked.prompts, .ended⟩]
  | some source =>
    let turn : Turn := ⟨asked.prompts, ← r.answer source⟩
    if turn.answer.isLast then return [turn] else return turn :: (← r.converse asked.rest)
termination_by lines.length
decreasing_by exact Prompted.read_rest_length _h

end Respondent

end ChartScript
