import ChartScript.Text.Bytes

/-!
# Signatures of plugin functions

A plugin is a Go source. Scripts can call those of its functions that take a slice of anything and
yield anything and an error. Two tests say which ones they are: `isPluginShape` looks at a signature
as it is written, where one field may declare several names, and `isPluginType` at the type it
denotes, where it may not.
-/

set_option autoImplicit false

namespace ChartScript

/-- A type, as far as signatures are told apart. -/
inductive TypeExpr where
  | named (name : Bytes)
  | slice (element : TypeExpr)
  | variadic (element : TypeExpr)
  | emptyInterface
  | other (written : Bytes)
  deriving DecidableEq, Repr

namespace TypeExpr

/-- Whether every value has the type. -/
def isAny : TypeExpr → Bool
  | .emptyInterface => true
  | .named name => name == ("any" : Bytes)
  | _ => false

/-- Whether the type is that of errors. -/
def isError : TypeExpr → Bool
  | .named name => name == ("error" : Bytes)
  | _ => false

/-- Whether the type is a slice of anything. -/
def isAnySlice : TypeExpr → Bool
  | .slice element => element.isAny
  | _ => false

end TypeExpr

/-- A field of a signature: the names it declares, which may be none, and their type. -/
structure SignatureField where
  names : List Bytes
  type : TypeExpr

/-- The types a field stands for: one for each of its names, and one if it has none. -/
def SignatureField.types (f : SignatureField) : List TypeExpr :=
  if f.names.isEmpty then [f.type] else f.names.map fun _ => f.type

/-- What a function takes and yields, as it is written. -/
structure Signature where
  params : List SignatureField
  results : List SignatureField

namespace Signature

/-- The types of the parameters. -/
def paramTypes (s : Signature) : List TypeExpr := s.params.flatMap SignatureField.types

/-- The types of the results. -/
def resultTypes (s : Signature) : List TypeExpr := s.results.flatMap SignatureField.types

/-- Whether a signature is written like that of a plugin function: one field of at most one name for
the parameters, and two fields, of however many names, for the results. -/
def isPluginShape (s : Signature) : Bool :=
  (match s.params with
    | [p] => p.names.length ≤ 1 && p.type.isAnySlice
    | _ => false) &&
  (match s.results with
    | [v, e] => v.type.isAny && e.type.isError
    | _ => false)

/-- Whether a signature denotes the type of plugin functions. -/
def isPluginType (s : Signature) : Bool :=
  (match s.paramTypes with
    | [p] => p.isAnySlice
    | _ => false) &&
  (match s.resultTypes with
    | [v, e] => v.isAny && e.isError
    | _ => false)

end Signature

end ChartScript
