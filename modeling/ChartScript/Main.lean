import ChartScript.Command.Dispatch
import Std.Time.DateTime.Timestamp

/-!
# The program

Everything a command needs is gathered first, the command is carried out, and what it leaves behind
is put where it belongs. Files are looked for below the working directory, under the paths that the
arguments and the environment mention. Nobody here reads property files or plugins, keeps a database
or carries messages: a command that needs one of them is told so.
-/

set_option autoImplicit false

namespace ChartScript.Program

/-- The variables of the environment that count. -/
def variableNames : List String :=
  ["DTRADER_PLUGIN_DIR", "DTRADER_LOG_LEVEL", "DTRADER_LOG_FILE", "DATABASE_URL"]

/-- The paths that arguments may mention: the arguments themselves, and the values of flags. -/
def mentioned (args : List Bytes) : List Bytes :=
  args.flatMap fun arg => [arg, arg.drop ((arg.takeWhile (· != 61)).length + 1)]

/-- A reader that can read no property file there is. -/
def noPropertyReader (files : Files) : PropertyReader where
  read path mayBeMissing :=
    match files.read path with
    | .ok _ => .error "no reader of property files"
    | .error e => if mayBeMissing && e.fault = .notFound then .ok {} else .error e.message

/-- An interpreter that reads no source. -/
def noInterpreter : Interpreter := ⟨fun _ _ => .error (.unparsable "no interpreter")⟩

/-- A database that cannot be reached. -/
def noDatabase : Database := ⟨fun _ _ => .error (.unconnected "no database")⟩

/-- The content of a file, if it can be read. -/
def content? (path : Bytes) : IO (Option Bytes) := do
  match path.toString? with
  | none => return none
  | some p =>
    try
      return some (← IO.FS.readBinFile p).toList
    catch _ =>
      return none

/-- Adds the files at the given paths, those that there are below the working directory. -/
def gather (files : Files) (paths : List Bytes) : IO Files :=
  paths.foldlM (fun files path => do
    let path := Path.clean path
    if Path.isRooted path || Path.above.isPrefixOf path then return files
    match ← content? path with
    | some content => return files.add path content
    | none => return files) files

/-- The lines that are left on a stream, without their line ends. -/
partial def readLines (stream : IO.FS.Stream) (sofar : List Typed) : IO (List Typed) := do
  let line := Bytes.ofString (← stream.getLine)
  if line.isEmpty then return sofar
  else
    let typed := if line.getLast? = some 10 then line.dropLast else line
    readLines stream (sofar ++ [.line typed])

/-- Writes a file and makes the directory it is in. -/
def writeFile (path content : Bytes) : IO Unit := do
  match path.toString?, (Path.directory path).toString? with
  | some p, some directory =>
    IO.FS.createDirAll directory
    IO.FS.writeBinFile p ⟨content.toArray⟩
  | _, _ => return

/-- Gathers what a command needs. -/
def surroundings (args : List Bytes) : IO Surroundings := do
  let env : Environment ← variableNames.filterMapM fun name => do
    return (← IO.getEnv name).map fun (value : String) => ((name : Bytes), (value : Bytes))
  let now ← Std.Time.Timestamp.now
  let files ← gather .empty
    ((Settings.defaultPath : Bytes) :: mentioned args ++ env.map (·.2))
  let isTyped := (args.head?.bind Command.ofName?) == some .repl
  return {
    env, files
    time := Instant.text ⟨now.toNanosecondsSinceUnixEpoch.val⟩
    properties := noPropertyReader files
    interpreter := noInterpreter
    database := noDatabase
    decoderWords := fun _ => "no decoder"
    lines := ← if isTyped then readLines (← IO.getStdin) [] else pure [] }

/-- Puts what a command leaves behind where it belongs. -/
def settle (before : Files) (o : Outcome) (historyPath : Bytes) : IO Unit := do
  (← IO.getStdout).write ⟨o.output.out.toArray⟩
  (← IO.getStderr).write ⟨o.output.err.toArray⟩
  for (path, content) in o.files.contents do
    unless before.contents.contains (path, content) do
      writeFile path content
  match o.history with
  | some entries =>
    let kept := (← content? historyPath).getD []
    writeFile historyPath (kept ++ entries.flatMap fun e => e ++ Bytes.newline)
  | none => return

end ChartScript.Program

/-- Carries out the command that the arguments name. -/
def main (args : List String) : IO UInt32 := do
  let args := args.map ChartScript.Bytes.ofString
  let home := ((← IO.getEnv "HOME").getD "" : String)
  let s ← ChartScript.Program.surroundings args
  let o := ChartScript.Command.dispatch s args
  ChartScript.Program.settle s.files o (ChartScript.Path.join home ".dtrader_history")
  return o.code.toUInt32
