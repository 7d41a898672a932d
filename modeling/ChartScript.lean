import ChartScript.Text.Utf8
import ChartScript.Text.Letter
import ChartScript.Text.Digit
import ChartScript.Text.Printable
import ChartScript.Text.Capital
import ChartScript.Text.Blank
import ChartScript.Text.Quoted
import ChartScript.Decimal.Layout
import ChartScript.Decimal.Reading
import ChartScript.Value.Arithmetic
import ChartScript.Token.Cursor
import ChartScript.Token.Lexer
import ChartScript.Scope.Snapshot
import ChartScript.Log.Logger
import ChartScript.Eval.Expr
import ChartScript.Eval.Script
import ChartScript.Eval.Report
import ChartScript.Function.Standard
import ChartScript.Store.Repository
import ChartScript.File.Glob
import ChartScript.Log.Journal
import ChartScript.Settings.Basic
import ChartScript.Plugin.Loading
import ChartScript.Session.Server
import ChartScript.Function.Observation
import ChartScript.Repl.Prompted
import ChartScript.Repl.Conversation
import ChartScript.Store.Database
import ChartScript.Command.Desk
import ChartScript.Command.Bench
import ChartScript.Command.Dispatch
import ChartScript.Main
import ChartScript.Proofs.Grammar.Tree
import ChartScript.Proofs.Grammar.Reader
import ChartScript.Proofs.Grammar.Reading
import ChartScript.Proofs.Grammar.Soundness
import ChartScript.Proofs.Eval.Simulation
import ChartScript.Proofs.Grammar.Reference
import ChartScript.Proofs.Grammar.Uniqueness
import ChartScript.Proofs.Grammar.Evaluation
import ChartScript.Proofs.Text.Quoted
import ChartScript.Proofs.Token.Lexeme
import ChartScript.Proofs.Token.Relexing
import ChartScript.Proofs.Eval.Trail
import ChartScript.Proofs.Eval.Recording
import ChartScript.Proofs.Scope.Confined
import ChartScript.Proofs.Session.Run
import ChartScript.Proofs.Session.Isolation
import ChartScript.Proofs.Eval.View
import ChartScript.Proofs.Session.Noninterference
import ChartScript.Proofs.Grammar.Arithmetic
import ChartScript.Proofs.Grammar.Faults
import ChartScript.Proofs.Token.Pending
import ChartScript.Proofs.Grammar.Agreement
import ChartScript.Proofs.Eval.Segments
import ChartScript.Proofs.Eval.Replay
import ChartScript.Proofs.Repl.Batch
import ChartScript.Proofs.Store.Dialogue
import ChartScript.Proofs.Store.Paging
import ChartScript.Proofs.Eval.Acts
import ChartScript.Proofs.Eval.Listening
import ChartScript.Proofs.Eval.Ways
import ChartScript.Proofs.Scope.Cells
import ChartScript.Proofs.Token.Shift
import ChartScript.Proofs.Eval.Unterminated
import ChartScript.Proofs.Token.Places
import ChartScript.Proofs.Eval.Within
import ChartScript.Proofs.Eval.Touched
import ChartScript.Proofs.Eval.Calls
import ChartScript.Proofs.Value.Outcomes
import ChartScript.Proofs.Function.Numbers
import ChartScript.Proofs.Decimal.Digits
import ChartScript.Proofs.Text.Trimming
import ChartScript.Proofs.Function.IntegerTexts
import ChartScript.Proofs.Decimal.Nearest
import ChartScript.Proofs.Decimal.Shortest
import ChartScript.Proofs.Decimal.Packing
import ChartScript.Proofs.Decimal.Spelling
import ChartScript.Proofs.Function.RealTexts
import ChartScript.Proofs.Plugin.Signature
import ChartScript.Proofs.File.Listing
import ChartScript.Proofs.Plugin.Installing
import ChartScript.Proofs.Scope.Shown
import ChartScript.Proofs.Data.Number
import ChartScript.Proofs.Data.Reading
import ChartScript.Proofs.Log.Lines
