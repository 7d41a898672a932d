import ChartScript.Data.Datum
import ChartScript.Text.Blank

/-!
# Log entries

A logger decides which entries pass its minimum level and completes those that do with what it
knows: its component, a default log type, the run in progress. An entry becomes one line of JSON;
the time is put in when the line is written.

Levels are names. The four standard ones are ranked; an entry with any other name ranks lowest, and
a minimum of any other name counts as INFO.
-/

set_option autoImplicit false

namespace ChartScript

/-- The standard levels, lowest first. -/
inductive Level where
  | debug
  | info
  | warn
  | error
  deriving DecidableEq, Repr

namespace Level

/-- The name of a level. -/
def name : Level → String
  | .debug => "DEBUG"
  | .info => "INFO"
  | .warn => "WARN"
  | .error => "ERROR"

/-- The place of a level in their order. -/
def rank : Level → Nat
  | .debug => 0
  | .info => 1
  | .warn => 2
  | .error => 3

/-- The standard level with exactly this name. -/
def ofName? (name : Bytes) : Option Level :=
  [Level.debug, .info, .warn, .error].find? fun level => (level.name : Bytes) == name

/-- The capital of a character, as far as level names are concerned: the letters whose capital is
an ASCII letter are the small ASCII ones, the dotless i and the long s. -/
def capital (c : Char) : Char :=
  if c == '\u0131' then 'I' else if c == '\u017F' then 'S' else c.toUpper

/-- Reads a level name in any case and with blanks around it; `WARNING` is `WARN`, and any unknown
name is `INFO`. -/
def parse (s : Bytes) : Level :=
  let name := Bytes.ofChars (s.trim.chars.map capital)
  if name == ("WARNING" : Bytes) then .warn else (ofName? name).getD .info

end Level

/-- What is logged. Empty texts are filled in by the logger or, the time, by the writer. -/
structure Entry where
  time : Bytes := []
  level : Bytes := []
  logType : Bytes := []
  component : Bytes := []
  msg : Bytes := []
  runId : Bytes := []
  vars : List (Bytes × Datum) := []
  tags : List (Bytes × Datum) := []

namespace Entry

/-- An entry as JSON, with `now` for the time if it has none. Empty optional fields are left
out. -/
def datum (e : Entry) (now : Bytes) : Datum :=
  let optional := fun (name : String) (present : Bool) (d : Datum) =>
    if present then [((name : Bytes), d)] else []
  let required : List (Bytes × Datum) :=
    [("ts", .text (if e.time.isEmpty then now else e.time)),
     ("level", .text e.level),
     ("log_type", .text e.logType),
     ("component", .text e.component),
     ("msg", .text e.msg)]
  .object (required ++
    optional "run_id" (!e.runId.isEmpty) (.text e.runId) ++
    optional "vars" (!e.vars.isEmpty) (.ofMap e.vars) ++
    optional "meta" (!e.tags.isEmpty) (.ofMap e.tags))

/-- The line of an entry; nothing when a value has no JSON text. -/
def line (e : Entry) (now : Bytes) : Bytes :=
  let d := e.datum now
  if d.isWritable then d.write ++ Bytes.newline else []

end Entry

/-- A source of log entries. -/
structure Logger where
  component : Bytes
  defaultType : Bytes := []
  minLevel : Bytes := (Level.info.name : Bytes)
  runId : Bytes := []
  /-- Messages are echoed to the console too. -/
  echoes : Bool := false

namespace Logger

/-- Whether entries of a level pass. -/
def admits (l : Logger) (level : Bytes) : Bool :=
  let floor := ((Level.ofName? l.minLevel).getD .info).rank
  floor ≤ ((Level.ofName? level).map Level.rank).getD 0

/-- The completed form of an entry, if it passes. An entry without a level is `INFO`. -/
def complete? (l : Logger) (e : Entry) : Option Entry :=
  let level := if e.level.isEmpty then (Level.info.name : Bytes) else e.level
  if l.admits level then
    some { e with
      level
      component := if e.component.isEmpty then l.component else e.component
      logType := if e.logType.isEmpty then l.defaultType else e.logType
      runId := if e.runId.isEmpty then l.runId else e.runId }
  else none

/-- A logger for another component. -/
def withComponent (l : Logger) (component : Bytes) : Logger := { l with component }

/-- Sets the minimum level by a name in any spelling that `Level.parse` takes. -/
def setMinLevel (l : Logger) (name : Bytes) : Logger :=
  { l with minLevel := (Level.parse name).name }

end Logger

end ChartScript
