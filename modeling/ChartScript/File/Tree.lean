import ChartScript.File.Path
import ChartScript.Scope.Table

/-!
# A tree of files

The files and directories below the working directory, and the few outside it that every machine has.
Each stands under its *location*: the names on the way to it from the working directory, joined by
slashes, with a step up for every directory above; the location of the working directory itself is
empty. A location that begins with a slash counts from the root of all files. Paths are followed one
part at a time, so that what fails first is what is reported.
-/

set_option autoImplicit false

namespace ChartScript

/-- What stands at a location. -/
inductive FileNode where
  | directory
  | file (content : Bytes)
  /-- A file that swallows what is written to it and is always empty. -/
  | sink

/-- Why the file system refuses. -/
inductive FileFault where
  | notFound
  | notDirectory
  | isDirectory
  | nameTooLong
  | invalid
  deriving DecidableEq, Repr

/-- The words for a refusal. -/
def FileFault.text : FileFault → String
  | .notFound => "no such file or directory"
  | .notDirectory => "not a directory"
  | .isDirectory => "is a directory"
  | .nameTooLong => "file name too long"
  | .invalid => "invalid argument"

/-- A refused operation. -/
structure FileError where
  operation : String
  path : Bytes
  fault : FileFault

/-- The text of a refused operation. -/
def FileError.message (e : FileError) : Bytes :=
  (e.operation : Bytes) ++ " " ++ e.path ++ ": " ++ e.fault.text

/-- Files and directories by location. -/
structure Files where
  nodes : Table FileNode

namespace Files

/-- The directories that every machine has below its root. -/
def systemDirectories : List String :=
  ["/bin", "/dev", "/etc", "/home", "/lib", "/opt", "/proc", "/root", "/run", "/sbin", "/srv", "/sys",
   "/tmp", "/usr", "/var"]

/-- The working directory with nothing in it. -/
def empty : Files where
  nodes := Table.ofList (((("/dev/null" : String) : Bytes), FileNode.sink) ::
    systemDirectories.map fun (d : String) => ((d : Bytes), FileNode.directory))

/-- The location of the root of all files. -/
def root : Bytes := [Path.slash]

/-- Whether a location is one or more steps up from the working directory. -/
def isAbove (location : Bytes) : Bool := (Bytes.splitOn Path.slash location).all (· == Path.above)

/-- What stands at a location. The working directory and all above it are directories. -/
def node? (f : Files) (location : Bytes) : Option FileNode :=
  if location.isEmpty || location == root || isAbove location then some .directory
  else f.nodes.get? location

/-- Puts something at a location. -/
def put (f : Files) (location : Bytes) (node : FileNode) : Files := ⟨f.nodes.insert location node⟩

/-- The location of a name in a directory. -/
def inside (directory name : Bytes) : Bytes :=
  if directory.isEmpty then name
  else if directory == root then Path.slash :: name
  else directory ++ Path.slash :: name

/-- The location above another; the root is above itself. -/
def parent (location : Bytes) : Bytes :=
  if location == root then root
  else if location.isEmpty || isAbove location then inside location Path.above
  else
    let directory := (Path.split location).1
    if directory == root then root else directory.dropLast

/-- The location one part further than a directory. -/
def advance (directory part : Bytes) : Except FileFault Bytes :=
  if part.isEmpty || part == Path.here then .ok directory
  else if part == Path.above then .ok (parent directory)
  else if 255 < part.length then .error .nameTooLong
  else .ok (inside directory part)

/-- Follows the parts of a path from a location. Only where the last part leads may nothing stand. -/
def follow (f : Files) (location : Bytes) : List Bytes → Except FileFault Bytes
  | [] => .ok location
  | part :: rest =>
    match f.node? location with
    | none => .error .notFound
    | some .directory =>
      match advance location part with
      | .error e => .error e
      | .ok next => f.follow next rest
    | some _ => .error .notDirectory

/-- A path is shorter than this. -/
def pathLimit : Nat := 4096

/-- The location a path leads to. -/
def locate (f : Files) (path : Bytes) : Except FileFault Bytes :=
  if path.contains 0 then .error .invalid
  else if path.isEmpty then .error .notFound
  else if pathLimit ≤ path.length then .error .nameTooLong
  else f.follow (if Path.isRooted path then root else []) (Bytes.splitOn Path.slash path)

/-- What stands where a path leads. -/
def find (f : Files) (path : Bytes) : Except FileFault FileNode :=
  match f.locate path with
  | .error e => .error e
  | .ok location =>
    match f.node? location with
    | some node => .ok node
    | none => .error .notFound

/-- The content of a file. -/
def read (f : Files) (path : Bytes) : Except FileError Bytes :=
  match f.find path with
  | .ok (.file content) => .ok content
  | .ok .sink => .ok []
  | .ok .directory => .error ⟨"read", path, .isDirectory⟩
  | .error e => .error ⟨"open", path, e⟩

/-- The names in a directory, in byte order; none for anything else. -/
def names (f : Files) (path : Bytes) : List Bytes :=
  match f.locate path with
  | .error _ => []
  | .ok location =>
    match f.node? location with
    | some .directory => f.nodes.names.filterMap fun l =>
        if parent l == location then some (Path.split l).2 else none
    | _ => []

/-- Makes sure that there is a file to append to: its location. -/
def openFile (f : Files) (path : Bytes) : Except FileError (Bytes × Files) :=
  match f.locate path with
  | .error e => .error ⟨"open", path, e⟩
  | .ok location =>
    match f.node? location with
    | some .directory => .error ⟨"open", path, .isDirectory⟩
    | some _ => .ok (location, f)
    | none => .ok (location, f.put location (.file []))

/-- Appends to the file at a location. -/
def append (f : Files) (location more : Bytes) : Files :=
  match f.node? location with
  | some (.file content) => f.put location (.file (content ++ more))
  | _ => f

/-- Makes the directories on a way, the first of them first. `passed` is the path so far. Those that
were made before one cannot be made stay. -/
def makeFrom (f : Files) (passed : Bytes) : List Bytes → Option FileError × Files
  | [] => (none, f)
  | part :: rest =>
    let path := inside passed part
    match f.find path with
    | .ok .directory => f.makeFrom path rest
    | .ok _ => (some ⟨"mkdir", path, .notDirectory⟩, f)
    | .error .notFound =>
      match f.locate path with
      | .ok location => (f.put location .directory).makeFrom path rest
      | .error e => (some ⟨"mkdir", path, e⟩, f)
    | .error e => (some ⟨"mkdir", path, e⟩, f)

/-- Makes a directory and those above it, as far as they are missing. -/
def makeDirectories (f : Files) (path : Bytes) : Option FileError × Files :=
  if Path.isRooted path then f.makeFrom root (Bytes.splitOn Path.slash (path.drop 1))
  else f.makeFrom [] (Bytes.splitOn Path.slash path)

/-- Adds the directories on the way to a location. -/
def putAbove (f : Files) (location : Bytes) : List Bytes → Files
  | [] | [_] => f
  | part :: rest =>
    let next := inside location part
    (f.put next .directory).putAbove next rest

/-- Adds a file, or a directory for a name that ends in a slash, and the directories above it. The
name is taken from the working directory on, and does not lead out of it. -/
def add (f : Files) (name content : Bytes) : Files :=
  let location := (Path.clean (Path.slash :: name)).drop 1
  let f := f.putAbove [] (Bytes.splitOn Path.slash location)
  if location.isEmpty then f
  else f.put location (if name.getLast? == some Path.slash then .directory else .file content)

/-- Whether a location is below the working directory. -/
def isBelow (location : Bytes) : Bool :=
  !Path.isRooted location && (Bytes.splitOn Path.slash location).head? != some Path.above

/-- All files below the working directory with their contents, in byte order of their locations. -/
def contents (f : Files) : List (Bytes × Bytes) := f.nodes.entries.filterMap fun
  | (location, .file content) => if isBelow location then some (location, content) else none
  | _ => none

end Files

end ChartScript
