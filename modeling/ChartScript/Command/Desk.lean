import ChartScript.Eval.Report
import ChartScript.Log.Sink
import ChartScript.Repl.Conversation

/-!
# The desk of a command

A command writes to two streams and to a log. The desk holds what it wrote so far and the files as
they are then; a log that is not kept in a file goes to the error stream, in between what the command
itself says there.
-/

set_option autoImplicit false

namespace ChartScript

/-- Where a command writes. -/
structure Desk where
  files : Files
  /-- The time that log lines bear. -/
  time : Bytes
  sink : Sink := .writer
  output : Output := {}

namespace Desk

/-- Writes a text to the standard stream. -/
def say (d : Desk) (text : Bytes) : Desk := { d with output := d.output ++ { out := text } }

/-- Writes a line to the error stream. -/
def complain (d : Desk) (words : Bytes) : Desk := { d with output := d.output ++ .errLine words }

/-- Says why a command fails. -/
def fail (d : Desk) (words : Bytes) : Desk := d.complain ("dtrader: " ++ words)

/-- Writes a completed entry to the log. -/
def write (d : Desk) (e : Entry) : Desk :=
  let (line, files) := d.sink.take (e.line d.time) d.files
  { d with files, output := d.output ++ { err := line } }

/-- Hands an entry to a logger. -/
def log (d : Desk) (logger : Logger) (e : Entry) : Desk :=
  match logger.complete? e with
  | some e => d.write e
  | none => d

/-- Opens the log, at a path unless that is empty. -/
def openLog (d : Desk) (path : Bytes) : Desk :=
  let opened := Sink.openAt .writer path d.files
  let d := { d with files := opened.files, sink := opened.sink }
  match opened.complaint with
  | some words => d.complain words
  | none => d

/-- Passes on what was printed and logged. -/
def pass (d : Desk) (printed : Bytes) (entries : List Entry) : Desk :=
  entries.foldl write (d.say printed)

/-- Shows a turn of a conversation. -/
def showTurn (d : Desk) (t : Turn) : Desk :=
  let d := d.say t.prompts
  match t.answer with
  | .ended => d.say Bytes.newline
  | .left => d
  | .shown text => d.say text
  | .ran _ seen =>
    let d := d.pass seen.printed seen.entries
    { d with output := d.output ++ .ofRun seen.results seen.error }

end Desk

end ChartScript
