import ChartScript.File.Tree
import ChartScript.Log.Logger

/-!
# Where log lines go

A sink takes lines: to a writer that whoever opened it reads, to the end of a file, or nowhere. A
file that cannot be opened leaves the writer in its place, with a complaint.
-/

set_option autoImplicit false

namespace ChartScript

/-- Where log lines go. -/
inductive Sink where
  | nowhere
  | writer
  | file (location : Bytes)

/-- A sink that was opened, the files then, and the complaint if a file could not be had. -/
structure OpenedSink where
  sink : Sink
  files : Files
  complaint : Option Bytes := none

namespace Sink

/-- Opens the file at a path, unless the path is empty, and makes the directories it is in. -/
def openAt (fallback : Sink) (path : Bytes) (files : Files) : OpenedSink :=
  if path.isEmpty then { sink := fallback, files }
  else
    match files.makeDirectories (Path.directory path) with
    | (some e, files) =>
      { sink := fallback, files, complaint := some
          ("logger: failed mkdir for " ++ path ++ ": " ++ e.message) }
    | (none, files) =>
      match files.openFile path with
      | .error e =>
        { sink := fallback, files, complaint := some
            ("logger: failed open file " ++ path ++ ": " ++ e.message) }
      | .ok (location, files) => { sink := .file location, files }

/-- Takes a line: what the writer gets of it, and the files then. -/
def take (s : Sink) (line : Bytes) (files : Files) : Bytes × Files :=
  match s with
  | .nowhere => ([], files)
  | .writer => (line, files)
  | .file location => ([], files.append location line)

/-- The sink after its file was closed: lines for a closed file are lost. -/
def close : Sink → Sink
  | .file _ => .nowhere
  | s => s

end Sink

end ChartScript
