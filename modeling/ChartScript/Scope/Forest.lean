import ChartScript.Scope.Basic

/-!
# Trees of scopes

A forest is a list of scopes, each with the index of its parent. Reading a name walks from a scope
toward the root and takes the nearest binding. Writing updates that same nearest binding, so that a
scope never shadows a name of an ancestor; a name bound nowhere on the way is created in the scope
written to. Symbols and properties follow the same rule and do not meet.
-/

set_option autoImplicit false

namespace ChartScript

/-- A scope and the index of its parent; a root has none. -/
structure Node where
  parent : Option Nat
  scope : Scope

/-- Scopes, addressed by their index. -/
structure Forest where
  nodes : List Node

namespace Forest

/-- The forest of one empty root, which has index 0. -/
def root : Forest := ⟨[⟨none, {}⟩]⟩

/-- The contents of a scope; an index without one has none. -/
def scope (f : Forest) (i : Nat) : Scope := (f.nodes[i]?.map Node.scope).getD {}

/-- The index of a scope's parent. A parent always has a smaller index. -/
def parent? (f : Forest) (i : Nat) : Option Nat :=
  (f.nodes[i]?.bind Node.parent).bind fun p => if p < i then some p else none

/-- A parent stands before its children. -/
theorem parent?_lt {f : Forest} {i p : Nat} (h : f.parent? i = some p) : p < i := by
  simp only [parent?, Option.bind_eq_some_iff] at h
  obtain ⟨q, -, hq⟩ := h
  split at hq
  · next hlt =>
    simp only [Option.some.injEq] at hq
    exact hq ▸ hlt
  · simp at hq

/-- The scopes from `i` to its root, `i` first. -/
def chain (f : Forest) (i : Nat) : List Nat :=
  match _h : f.parent? i with
  | some p => i :: f.chain p
  | none => [i]
termination_by i
decreasing_by exact parent?_lt _h

/-- Adds an empty scope, which gets the next free index. -/
def add (f : Forest) (parent : Option Nat) : Forest := ⟨f.nodes ++ [⟨parent, {}⟩]⟩

/-- The index the next scope will get. -/
def size (f : Forest) : Nat := f.nodes.length

/-- The root of the tree a scope belongs to. -/
def rootOf (f : Forest) (i : Nat) : Nat := (f.chain i).getLast?.getD i

/-- Changes the contents of one scope. -/
def modify (f : Forest) (i : Nat) (change : Scope → Scope) : Forest :=
  ⟨f.nodes.modify i fun n => { n with scope := change n.scope }⟩

/-- A table of names that scopes have, and how to replace it. -/
structure Field where
  table : Scope → Table Value
  replace : Scope → Table Value → Scope

/-- The symbols of a scope. -/
def symbolField : Field := ⟨Scope.symbols, fun s t => { s with symbols := t }⟩

/-- The properties of a scope. -/
def propertyField : Field := ⟨Scope.properties, fun s t => { s with properties := t }⟩

/-- The nearest scope from `i` to the root that binds a name. -/
def holder? (f : Forest) (field : Field) (i : Nat) (name : Bytes) : Option Nat :=
  (f.chain i).find? fun j => (field.table (f.scope j)).contains name

/-- The nearest binding of a name. -/
def get? (f : Forest) (field : Field) (i : Nat) (name : Bytes) : Option Value :=
  (f.holder? field i name).bind fun j => (field.table (f.scope j)).get? name

/-- Stores a value under a name: in the nearest scope that binds it, else in `i` itself. -/
def put (f : Forest) (field : Field) (i : Nat) (name : Bytes) (v : Value) : Forest :=
  f.modify ((f.holder? field i name).getD i) fun s =>
    field.replace s ((field.table s).insert name v)

/-- The value of a symbol. -/
def symbol? (f : Forest) (i : Nat) (name : Bytes) : Option Value := f.get? symbolField i name

/-- Stores a symbol. -/
def putSymbol (f : Forest) (i : Nat) (name : Bytes) (v : Value) : Forest :=
  f.put symbolField i name v

/-- The value of a property. -/
def property? (f : Forest) (i : Nat) (name : Bytes) : Option Value := f.get? propertyField i name

/-- Stores a property. -/
def putProperty (f : Forest) (i : Nat) (name : Bytes) (v : Value) : Forest :=
  f.put propertyField i name v

/-- Records a statement on a scope. -/
def addStatement (f : Forest) (i : Nat) (stmt : Statement) : Forest :=
  f.modify i fun s => { s with statements := s.statements ++ [stmt] }

/-- Records a chart on a scope. -/
def addChart (f : Forest) (i : Nat) (c : Chart) : Forest :=
  f.modify i fun s => { s with charts := s.charts ++ [c] }

end Forest

end ChartScript
