import ChartScript.Text.Bytes

/-!
# Properties

Properties are keys with values, read from a file of which a program may be told. How such a file is
found and what it looks like is up to a *reader*, which yields the properties of the file at a path or
says why there are none.
-/

set_option autoImplicit false

namespace ChartScript

/-- Keys with their values, in the order in which the keys first appeared. -/
structure Properties where
  entries : List (Bytes × Bytes) := []

namespace Properties

/-- The value of a key. -/
def get? (p : Properties) (key : Bytes) : Option Bytes :=
  (p.entries.find? fun e => e.1 == key).map (·.2)

/-- The keys, in the order of their first appearance. -/
def keys (p : Properties) : List Bytes := p.entries.map (·.1)

end Properties

/-- Whoever reads property files. Where a file may be missing, one that is has no properties. -/
structure PropertyReader where
  read : (path : Bytes) → (mayBeMissing : Bool) → Except Bytes Properties

end ChartScript
