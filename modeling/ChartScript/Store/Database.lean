import ChartScript.Store.Run

/-!
# Databases

A database keeps runs beyond the life of the program. It is no part of the program: all that is known
of one is what becomes of a run that is to be kept in it.
-/

set_option autoImplicit false

namespace ChartScript

/-- Why a run is not kept, in the words of the database. -/
inductive DatabaseError where
  | unconnected (words : Bytes)
  /-- There are no tables for runs, and none can be made. -/
  | unprepared (words : Bytes)
  | unsaved (words : Bytes)

/-- The text of an error. -/
def DatabaseError.message : DatabaseError → Bytes
  | .unconnected words => "connect database: " ++ words
  | .unprepared words => "migrate: " ++ words
  | .unsaved words => words

/-- Whoever keeps runs in the database that a URL names. -/
structure Database where
  save : (url : Bytes) → Run → Except DatabaseError Unit

end ChartScript
