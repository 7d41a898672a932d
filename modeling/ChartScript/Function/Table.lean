import ChartScript.Eval.Machine

/-!
# Function tables

A table of functions answers calls by name. What its functions share is the host: a counter for new
identities and what has been printed so far.
-/

set_option autoImplicit false

namespace ChartScript

/-- The state that functions share. -/
structure Host where
  /-- The serial number of the next identity. -/
  nextSerial : Nat := 1
  /-- What was printed, oldest first. -/
  printed : Bytes := []

/-- Takes a new identity. -/
def Host.newId (h : Host) : Id × Host := (⟨h.nextSerial⟩, { h with nextSerial := h.nextSerial + 1 })

/-- A function on evaluated arguments, given the scope of its call. -/
abbrev Function : Type :=
  List Value → Option Nat → Forest → Host → Except CallError Value × Forest × Host

/-- A function without effects. -/
def Function.ofPure (f : List Value → Except CallError Value) : Function :=
  fun args _ forest host => (f args, forest, host)

/-- Functions by name. -/
abbrev FunctionTable : Type := Table Function

namespace FunctionTable

/-- Answers a call. -/
def invoke (t : FunctionTable) (call : Call) (forest : Forest) (host : Host) :
    Except CallError Value × Forest × Host :=
  match t.get? call.name with
  | some f => f call.args call.scope forest host
  | none => (.error (.unknownFunction call.name), forest, host)

/-- The dispatcher of a table. -/
def dispatcher (t : FunctionTable) : Dispatcher Host := ⟨t.invoke⟩

end FunctionTable

end ChartScript
