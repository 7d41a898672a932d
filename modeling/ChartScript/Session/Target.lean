import ChartScript.File.Path
import ChartScript.Network.Url

/-!
# Targets of requests

A request names what it asks for by its target, a path and maybe a query. Documents are found by the
path alone, and only under their proper path: whoever comes by a detour (a doubled slash, a step to
the same directory or up) is sent to the proper one. A request for a tunnel names its other end
instead of a path, and goes without a detour.
-/

set_option autoImplicit false

namespace ChartScript

/-- What a request asks for. -/
structure Target where
  path : Bytes
  query : Bytes := []

namespace Target

/-- The method of a request for a tunnel. -/
def tunnel : Bytes := "CONNECT"

/-- Reads the target of a request. -/
def parse? (method written : Bytes) : Option Target :=
  let isEnd := method == tunnel && !Path.isRooted written
  match Url.parseTarget (if isEnd then "http://" ++ written else written) with
  | .ok u => some ⟨u.path, u.query.getD []⟩
  | .error _ => none

/-- The proper path of a document: the shortest with the same meaning, from the root on. A slash at
its end stays. -/
def properPath (path : Bytes) : Bytes :=
  let rooted := if Path.isRooted path then path else Path.slash :: path
  let shortest := Path.clean rooted
  if rooted.getLast? == some Path.slash && shortest != [Path.slash] then
    shortest ++ [Path.slash]
  else shortest

/-- Where a request is sent on to, unless its path is proper. -/
def detour? (t : Target) (method : Bytes) : Option Bytes :=
  let proper := properPath t.path
  if method == tunnel || proper == t.path then none
  else
    let location : Url :=
      { path := proper, query := if t.query.isEmpty then none else some t.query }
    some location.text

end Target

end ChartScript
