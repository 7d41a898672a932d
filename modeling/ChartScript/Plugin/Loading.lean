import ChartScript.File.Glob
import ChartScript.Plugin.Declaration
import ChartScript.Text.Capital

/-!
# Loading plugins

All sources of a directory are loaded, in the order of their paths, before any of their functions is
installed: if one of them cannot be loaded, none is. Where two sources offer a function of one name,
the later one counts.
-/

set_option autoImplicit false

namespace ChartScript

/-- Why plugins cannot be loaded. -/
inductive LoadError where
  | pattern
  | unreadable (e : FileError)
  | source (path : Bytes) (fault : SourceFault)
  /-- A function is written like a plugin function and yet is of another type. -/
  | signature (name : Bytes)

/-- The text of an error. -/
def LoadError.message : LoadError → Bytes
  | .pattern => "syntax error in pattern"
  | .unreadable e => "read plugin: " ++ e.message
  | .source _ (.unparsable words) => "parse plugin: " ++ words
  | .source path (.unresolved words) => "eval plugin " ++ path ++ ": " ++ words
  | .signature name => "plugin function " ++ name ++ " has unexpected signature"

namespace Plugin

/-- Whether a name is offered to others: it begins with a capital. -/
def isExported (name : Bytes) : Bool :=
  match Bytes.front? name with
  | some (c, _) => Text.isCapital c
  | none => false

/-- The name by which scripts call a function: its first letter small. -/
def scriptName (name : Bytes) : Bytes :=
  match Bytes.front? name with
  | some (c, rest) => String.utf8EncodeChar (Text.toSmall c) ++ rest
  | none => name

/-- Adds a declaration to the functions of a plugin, if it is one that scripts can call. -/
def collect (functions : Table HostFunction) :
    Declaration → Except LoadError (Table HostFunction)
  | .function name signature body =>
    if isExported name && signature.isPluginShape then
      if signature.isPluginType then .ok (functions.insert (scriptName name) body)
      else .error (.signature name)
    else .ok functions
  | .method _ | .global _ => .ok functions

/-- The plugin that declarations make; of two functions of one name the later counts. -/
def ofDeclarations (path : Bytes) (declarations : List Declaration) : Except LoadError Plugin := do
  let functions ← declarations.foldlM collect Table.empty
  return ⟨path, functions⟩

/-- Loads one source. -/
def load (interpreter : Interpreter) (files : Files) (path : Bytes) : Except LoadError Plugin := do
  let source ← (files.read path).mapError .unreadable
  let declarations ← (interpreter.read path source).mapError (.source path)
  ofDeclarations path declarations

/-- Whether a path is that of a plugin's tests. -/
def isTest (path : Bytes) : Bool := ("_test.go" : Bytes).isSuffixOf path

/-- The paths of the sources in a directory, in byte order. -/
def sources (files : Files) (directory : Bytes) : Except LoadError (List Bytes) :=
  match Glob.paths? files (Path.join directory "*.go") with
  | some paths => .ok ((Bytes.sort paths).filter fun p => !isTest p)
  | none => .error .pattern

/-- Loads all sources of a directory; the first that fails ends it. -/
def loadAll (interpreter : Interpreter) (files : Files) (directory : Bytes) :
    Except LoadError (List Plugin) := do
  let paths ← sources files directory
  paths.mapM (load interpreter files)

end Plugin

/-- A table with plugins installed. -/
structure Installation where
  table : FunctionTable
  /-- The names of all functions of the plugins, in byte order. -/
  names : List Bytes
  /-- What there is to log. -/
  entries : List Entry

namespace Installation

/-- Installs plugins, the first of them first. -/
def ofPlugins (plugins : List Plugin) (t : FunctionTable) : Installation where
  table := plugins.foldl (fun t p => p.register t) t
  names := Bytes.sort (plugins.flatMap Plugin.names)
  entries := plugins.map Plugin.entry

/-- Loads the plugins of a directory and installs them. -/
def ofDirectory (interpreter : Interpreter) (files : Files) (directory : Bytes)
    (t : FunctionTable) : Except LoadError Installation := do
  let plugins ← Plugin.loadAll interpreter files directory
  return ofPlugins plugins t

end Installation

end ChartScript
