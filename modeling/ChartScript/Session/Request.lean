import ChartScript.Data.JsonToken

/-!
# Requests

A request is a JSON object with a field `source`. The object is read with one pass over its tokens
and a stack of what is open; of the outermost object the fields are kept. Other fields may hold
anything. The name of the field may be written in any case, of several such fields the last counts,
and `null` leaves the source empty.
-/

set_option autoImplicit false

namespace ChartScript

/-- What is open around a token. -/
inductive JsonContainer where
  | object
  | array
  deriving DecidableEq

/-- What may come next. -/
inductive JsonExpectation where
  | value
  /-- A value, or the end of an array without any. -/
  | valueOrEnd
  | key
  /-- A key, or the end of an object without any. -/
  | keyOrEnd
  | colon
  | commaOrEnd
  deriving DecidableEq

/-- What a reader of requests tells values apart by. -/
inductive JsonShape where
  | null
  | text (t : Bytes)
  | object
  | other

/-- The state of a reader. -/
structure JsonReader where
  /-- What is open, the innermost first. -/
  stack : List JsonContainer := []
  expects : JsonExpectation := .value
  /-- The key of the value to come. -/
  key : Bytes := []
  /-- The fields of the outermost object, the first of them first. -/
  fields : List (Bytes × JsonShape) := []
  /-- The outermost value. -/
  whole : Option JsonShape := none

namespace JsonReader

/-- How deep values may be nested. -/
def maxDepth : Nat := 10000

/-- Takes note of a value that begins here. -/
def note (r : JsonReader) (shape : JsonShape) : JsonReader :=
  match r.stack with
  | [] => { r with whole := some shape }
  | [.object] => { r with fields := r.fields ++ [(r.key, shape)] }
  | _ => r

/-- Whether a value may begin here. -/
def takesValue (r : JsonReader) : Bool :=
  match r.expects with
  | .value | .valueOrEnd => true
  | _ => false

/-- Reads a value that is a single token. -/
def scalar? (r : JsonReader) (shape : JsonShape) : Option JsonReader :=
  if r.takesValue then some { r.note shape with expects := .commaOrEnd } else none

/-- Enters an object or an array. -/
def enter? (r : JsonReader) (c : JsonContainer) : Option JsonReader :=
  if r.takesValue && r.stack.length < maxDepth then
    let r := r.note (match c with
      | .object => .object
      | .array => .other)
    some { r with
      stack := c :: r.stack
      expects := match c with
        | .object => .keyOrEnd
        | .array => .valueOrEnd }
  else none

/-- Leaves the innermost object or array. -/
def leave? (r : JsonReader) (c : JsonContainer) (empty : JsonExpectation) : Option JsonReader :=
  match r.stack with
  | top :: rest =>
    if top = c && (r.expects = .commaOrEnd || r.expects = empty) then
      some { r with stack := rest, expects := .commaOrEnd }
    else none
  | [] => none

/-- Reads one token. -/
def step? (r : JsonReader) : JsonToken → Option JsonReader
  | .openObject => r.enter? .object
  | .closeObject => r.leave? .object .keyOrEnd
  | .openArray => r.enter? .array
  | .closeArray => r.leave? .array .valueOrEnd
  | .colon => if r.expects = .colon then some { r with expects := .value } else none
  | .comma =>
    match r.stack with
    | top :: _ =>
      if r.expects = .commaOrEnd then
        some { r with expects := if top = .object then .key else .value }
      else none
    | [] => none
  | .null => r.scalar? .null
  | .bool _ | .number => r.scalar? .other
  | .text t =>
    if r.expects = .key || r.expects = .keyOrEnd then some { r with key := t, expects := .colon }
    else r.scalar? (.text t)

/-- Reads tokens to the end, where nothing may be open. -/
def run? (r : JsonReader) : List JsonToken → Option JsonReader
  | [] => if r.stack.isEmpty && r.whole.isSome then some r else none
  | tk :: rest => (r.step? tk).bind (·.run? rest)

end JsonReader

/-- What a client asks to be evaluated. -/
structure Request where
  source : Bytes := []

namespace Request

/-- The small form of a letter, as far as the name of the field is concerned: its letters have no
other forms than the capital ones and the long s. -/
def small (c : Char) : Char := if c == '\u017F' then 's' else c.toLower

/-- Whether a key is the name of the field, in whatever case. -/
def isSource (key : Bytes) : Bool := key.chars.map small == "source".toList

/-- Takes over one field. -/
def takeField? (r : Request) (field : Bytes × JsonShape) : Option Request :=
  if isSource field.1 then
    match field.2 with
    | .text t => some { r with source := t }
    | .null => some r
    | _ => none
  else some r

/-- Reads a request; none if it is invalid. -/
def parse? (message : Bytes) : Option Request :=
  (JsonToken.all? message).bind fun tokens =>
    (JsonReader.run? {} tokens).bind fun r =>
      match r.whole with
      | some .object => r.fields.foldlM takeField? {}
      | some .null => some {}
      | _ => none

end Request

end ChartScript
