import ChartScript.Plugin.Basic
import ChartScript.Plugin.Signature

/-!
# Declarations of plugins

What a source means is up to an *interpreter*, which reads it as a list of declarations or says why it
cannot.
-/

set_option autoImplicit false

namespace ChartScript

/-- A declaration at the top of a source. -/
inductive Declaration where
  | function (name : Bytes) (signature : Signature) (body : HostFunction)
  | method (name : Bytes)
  | global (name : Bytes)

/-- Why a source cannot be read. -/
inductive SourceFault where
  /-- It cannot be parsed. -/
  | unparsable (words : Bytes)
  /-- It cannot be resolved. -/
  | unresolved (words : Bytes)

/-- Whoever reads sources. -/
structure Interpreter where
  read : (path source : Bytes) → Except SourceFault (List Declaration)

end ChartScript
