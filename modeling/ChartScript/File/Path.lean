import ChartScript.Text.Bytes

/-!
# Paths

A path names a file by the directories on the way to it, divided by slashes. Many paths name the same
file; `clean` gives the shortest one that does, as far as the text alone tells.
-/

set_option autoImplicit false

namespace ChartScript.Path

/-- The byte that divides the parts of a path. -/
def slash : UInt8 := 47

/-- The part that stands for the directory one is in. -/
def here : Bytes := "."

/-- The part that stands for the directory above. -/
def above : Bytes := ".."

/-- Whether a path starts at the root of all files. -/
def isRooted (p : Bytes) : Bool := p.head? == some slash

/-- Adds a part to those passed so far, the last one first. A step up cancels the part before it; at
the very front it stays, except that there is nothing above the root. -/
def push (rooted : Bool) (passed : List Bytes) (part : Bytes) : List Bytes :=
  if part.isEmpty || part == here then passed
  else if part == above then
    match passed with
    | [] => if rooted then [] else [above]
    | last :: rest => if last == above then above :: passed else rest
  else part :: passed

/-- The shortest path with the same meaning; that of the empty path is `.`. -/
def clean (p : Bytes) : Bytes :=
  let rooted := isRooted p
  let body := Bytes.join [slash] ((Bytes.splitOn slash p).foldl (push rooted) []).reverse
  if rooted then slash :: body else if body.isEmpty then here else body

/-- A path continued by another. An empty part adds nothing. -/
def join (a b : Bytes) : Bytes :=
  if a.isEmpty then if b.isEmpty then [] else clean b
  else if b.isEmpty then clean a
  else clean (a ++ slash :: b)

/-- A path up to its last slash, which is included, and what follows. -/
def split (p : Bytes) : Bytes × Bytes :=
  let name := (p.reverse.takeWhile (· != slash)).reverse
  (p.take (p.length - name.length), name)

/-- The directory that the last part of a path is in. -/
def directory (p : Bytes) : Bytes := clean (split p).1

end ChartScript.Path
