import ChartScript.Eval.Script
import ChartScript.Store.Run

/-!
# Replies

What a client is told: the statements that completed, each with its value, and the error if there is
one. The other documents a client can fetch list the symbols and the charts of a scope.
-/

set_option autoImplicit false

namespace ChartScript

/-- A statement that completed, as texts; the type of `nil` is empty. -/
structure ReplyItem where
  statement : Bytes
  value : Bytes
  type : Bytes
  deriving DecidableEq

/-- A statement that completed, for a reply. -/
def ReplyItem.ofResult (r : Result) : ReplyItem :=
  ⟨r.statement.text, r.value.inspect, r.value.typeName⟩

/-- An item as JSON. -/
def ReplyItem.datum (i : ReplyItem) : Datum :=
  .object [("statement", .text i.statement), ("value", .text i.value), ("type", .text i.type)]

/-- The answer to a request. The error of a request that succeeded is empty. -/
structure Reply where
  results : List ReplyItem := []
  error : Bytes := []
  deriving DecidableEq

namespace Reply

/-- The answer to a message that is no request; the words are the decoder's. -/
def invalid (words : Bytes) : Reply := { error := "invalid request: " ++ words }

/-- The answer for a run. -/
def ofRun (results : List Result) (error : Option ScriptError) : Reply where
  results := results.map ReplyItem.ofResult
  error := (error.map ScriptError.message).getD []

/-- A reply as JSON. -/
def datum (r : Reply) : Datum :=
  let results : Bytes × Datum := ("results", .list (r.results.map ReplyItem.datum))
  .object (if r.error.isEmpty then [results] else [results, ("error", .text r.error)])

/-- The line a client gets. -/
def line (r : Reply) : Bytes := r.datum.write ++ Bytes.newline

end Reply

/-- A document over HTTP. -/
structure Response where
  status : Nat
  contentType : Bytes
  body : Bytes

namespace Response

/-- A document of JSON. -/
def json (status : Nat) (d : Datum) : Response :=
  ⟨status, "application/json", d.write ++ Bytes.newline⟩

/-- A document of one line. -/
def plain (status : Nat) (line : String) : Response :=
  ⟨status, "text/plain; charset=utf-8", (line : Bytes) ++ Bytes.newline⟩

/-- The bytes of a text as a page shows it. -/
def pageByte (b : UInt8) : Bytes :=
  match b with
  | 34 => "&#34;"
  | 38 => "&amp;"
  | 39 => "&#39;"
  | 60 => "&lt;"
  | 62 => "&gt;"
  | _ => [b]

/-- The answer that sends a request on to a location. Only one that asks for a document gets a page
that says so. -/
def moved (method location : Bytes) : Response :=
  let isGet := method == ("GET" : Bytes)
  let hasPage := isGet || method == ("HEAD" : Bytes)
  { status := 301
    contentType := if hasPage then "text/html; charset=utf-8" else []
    body :=
      if isGet then
        "<a href=\"" ++ location.flatMap pageByte ++ "\">Moved Permanently</a>.\n\n"
      else [] }

/-- The refusal of a request that asks for nothing in particular. -/
def badRequest : Response := ⟨400, [], []⟩

/-- The refusal of a method. -/
def methodNotAllowed : Response :=
  json 405 (.object [("error", .text "method not allowed"), ("code", .int 405)])

/-- A list under its name, with its length. -/
def counted (name : String) (items : List Datum) : Response :=
  json 200 (.object [(name, .list items), ("count", .int items.length)])

/-- The charts of a scope. -/
def charts (f : Forest) (scope : Nat) : Response :=
  counted "charts" ((f.chartRecords scope).map ChartRecord.datum)

/-- The symbols of a scope. -/
def symbols (f : Forest) (scope : Nat) : Response :=
  counted "symbols" ((f.symbolRecords scope).map SymbolRecord.datum)

end Response

end ChartScript
