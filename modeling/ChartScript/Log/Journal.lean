import ChartScript.Log.Sink

/-!
# Journals

A journal is a sink with the loggers that write to it. The first logger owns the sink; the others
were derived from it or from one another, each with settings of its own, and only the owner can close
the file. A logger that is absent takes everything and does nothing.
-/

set_option autoImplicit false

namespace ChartScript

/-- A sink, its loggers, and what has been written. -/
structure Journal where
  sink : Sink
  loggers : List (Option Logger)
  files : Files := .empty
  /-- What the writer got. -/
  written : Bytes := []
  /-- What was echoed to the console. -/
  echoed : Bytes := []

namespace Journal

/-- The logger at a place, if it is not an absent one. -/
def logger? (j : Journal) (i : Nat) : Option Logger := j.loggers[i]?.join

/-- Changes the settings of a logger. -/
def configure (j : Journal) (i : Nat) (change : Logger → Logger) : Journal :=
  { j with loggers := j.loggers.modify i (Option.map change) }

/-- Writes a completed entry. -/
def write (j : Journal) (echoes : Bool) (e : Entry) (now : Bytes) : Journal :=
  let (more, files) := j.sink.take (e.line now) j.files
  { j with
    files
    written := j.written ++ more
    echoed := if echoes then j.echoed ++ e.msg ++ Bytes.newline else j.echoed }

/-- Hands an entry to a logger. -/
def emit (j : Journal) (i : Nat) (e : Entry) (now : Bytes) : Journal :=
  match j.logger? i with
  | none => j
  | some l =>
    match l.complete? e with
    | none => j
    | some e => j.write l.echoes e now

/-- Whether a logger lets entries of a level pass. -/
def admits (j : Journal) (i : Nat) (level : Bytes) : Bool :=
  match j.logger? i with
  | none => false
  | some l => l.admits level

/-- Derives a logger for another component, which comes last. -/
def derive (j : Journal) (i : Nat) (component : Bytes) : Journal :=
  { j with loggers := j.loggers ++ [(j.logger? i).map (·.withComponent component)] }

/-- Closes the file, if the logger is the one that owns it. -/
def close (j : Journal) (i : Nat) : Journal :=
  if i = 0 && (j.logger? 0).isSome then { j with sink := j.sink.close } else j

end Journal

end ChartScript
