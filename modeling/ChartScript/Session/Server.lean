import ChartScript.Network.Address
import ChartScript.Session.Reply
import ChartScript.Session.Request
import ChartScript.Session.Target

/-!
# Sessions

A server evaluates for many clients. Each has a session: a scope of its own below the shared root, so
that names the root binds are common to all, and all other names are private. Messages are evaluated
one at a time, in the order in which they come; `Server` is the state between two of them.

How messages are carried is not part of a server. What whoever carries them says of a connection that
fails, or of a request that opens none, comes with the event, and what the decoder says of a message
that is no request is a field of the server.
-/

set_option autoImplicit false

namespace ChartScript

/-- Why no further message of a session can be read. -/
structure ReadFailure where
  /-- The code that the connection was closed with, if it was closed with one. -/
  closeCode : Option Nat
  words : Bytes

namespace ReadFailure

/-- The codes of an ordinary end: the client closes its session, or it goes away. -/
def ordinaryCodes : List Nat := [1000, 1001]

/-- What is said of an end: nothing if it is an ordinary one, or one without a code. -/
def complaint? (f : ReadFailure) : Option Bytes :=
  match f.closeCode with
  | some code => if ordinaryCodes.contains code then none else some f.words
  | none => none

end ReadFailure

/-- A plain request where a session could be opened: how it is turned away, and why. -/
structure Refusal where
  response : Response
  words : Bytes

/-- A client's session. Sessions are numbered from one. -/
structure Session where
  number : Nat
  scope : Nat
  isOpen : Bool := true

/-- A server between two events. -/
structure Server where
  /-- The scopes, the host of the functions, and what was logged. -/
  world : World Host
  /-- The scope that all sessions share. -/
  root : Nat
  table : FunctionTable
  /-- Who listens to evaluations. -/
  evalLogger : Option Logger := none
  /-- Who listens to the server. -/
  logger : Option Logger := none
  /-- The decoder's words for a message that is no request. -/
  decoderWords : Bytes → Bytes
  sessions : List Session := []
  isStopped : Bool := false

namespace Server

/-- Runs a source in a scope. -/
def evaluate (s : Server) (scope : Nat) (source : Bytes) : Reply × Server :=
  let ev : Evaluator Host := ⟨scope, some s.table.dispatcher, s.evalLogger⟩
  let ((results, error), world) := (ev.evalSource source).run s.world
  (.ofRun results error, { s with world })

/-- Adds a scope below the root. -/
def newScope (s : Server) : Nat × Server :=
  (s.world.forest.size,
    { s with world := { s.world with forest := s.world.forest.add (some s.root) } })

/-- Logs an entry of the server itself. -/
def log (s : Server) (e : Entry) : Server := { s with world := s.world.log s.logger e }

/-- Logs an entry about a session. -/
def logSession (s : Server) (session : Session) (level : Level) (msg : String)
    (vars : List (Bytes × Datum)) : Server :=
  let entry : Entry :=
    { level := level.name, msg, vars := ("session", .int session.number) :: vars }
  { s with world := s.world.log (s.logger.map (·.withComponent "Session")) entry }

/-- Opens a session for a client. -/
def openSession (s : Server) (remote : Bytes) : Server :=
  let (scope, s) := s.newScope
  let session : Session := ⟨s.sessions.length + 1, scope, true⟩
  let s := { s with sessions := s.sessions ++ [session] }
  s.logSession session .info "session opened" [("remote", .text remote)]

/-- The session with an index. -/
def session? (s : Server) (i : Nat) : Option Session := s.sessions[i]?

/-- Answers a message of a session; what fails is logged. -/
def answer (s : Server) (session : Session) (message : Bytes) : Reply × Server :=
  let (reply, s) := match Request.parse? message with
    | some request => s.evaluate session.scope request.source
    | none => (.invalid (s.decoderWords message), s)
  if reply.error.isEmpty then (reply, s)
  else (reply, s.logSession session .warn "session evaluation failed"
    [("error", .text reply.error)])

/-- Ends a session, after logging what went wrong, if anything did. -/
def endSession (s : Server) (i : Nat) (trouble : Option (String × Bytes)) : Server :=
  match s.session? i with
  | none => s
  | some session =>
    if session.isOpen then
      let s := { s with sessions := s.sessions.modify i fun e => { e with isOpen := false } }
      let s := match trouble with
        | some (msg, words) => s.logSession session .warn msg [("error", .text words)]
        | none => s
      s.logSession session .info "session closed" []
    else s

/-- Ends a session of which no further message can be read. -/
def closeSession (s : Server) (i : Nat) (failure : ReadFailure) : Server :=
  s.endSession i (failure.complaint?.map fun words => ("session read failed", words))

/-- Answers a message of a session whose client is gone by then: the message is evaluated, and the
reply cannot be written. -/
def answerGone (s : Server) (i : Nat) (message words : Bytes) : Server :=
  match s.session? i with
  | none => s
  | some session =>
    (s.answer session message).2.endSession i (some ("session write failed", words))

/-- Answers a request for the document at a path. A session cannot be opened by one. -/
def document (s : Server) (method path : Bytes) (refusal : Refusal) : Response × Server :=
  let isGet := method == ("GET" : Bytes)
  if path == ("/charts" : Bytes) then
    (if isGet then .charts s.world.forest s.root else .methodNotAllowed, s)
  else if path == ("/symbols" : Bytes) then
    (if isGet then .symbols s.world.forest s.root else .methodNotAllowed, s)
  else if path == ("/ws" : Bytes) then
    (refusal.response, s.log {
      level := Level.warn.name
      msg := "websocket upgrade failed"
      vars := [("error", .text refusal.words)] })
  else (.plain 404 "404 page not found", s)

/-- Answers a plain HTTP request. One without a method asks for a document, and a star asks for
nothing in particular. -/
def respond (s : Server) (method target : Bytes) (refusal : Refusal) : Response × Server :=
  let method : Bytes := if method.isEmpty then "GET" else method
  if target == ("*" : Bytes) then (.badRequest, s)
  else match Target.parse? method target with
    | none => (.badRequest, s)
    | some t =>
      match t.detour? method with
      | some location => (.moved method location, s)
      | none => s.document method t.path refusal

/-- Begins to listen, unless the server was stopped. The error is that of an address that nothing can
listen on. -/
def start (s : Server) (addr : Bytes) : Option AddressError × Server :=
  if s.isStopped then (none, s)
  else (Address.error? addr, s.log {
    level := Level.info.name
    msg := "session server listening"
    vars := [("addr", .text addr)] })

/-- Stops the server, for good. -/
def stop (s : Server) : Server := { s with isStopped := true }

/-! ## Events -/

/-- Something that happens to a server. Sessions are named by their index. -/
inductive Event where
  | opened (remote : Bytes)
  /-- A message came and its reply was written. -/
  | sent (i : Nat) (message : Bytes)
  /-- A message came whose client was gone before the reply; the words are for that. -/
  | lost (i : Nat) (message words : Bytes)
  | closed (i : Nat) (failure : ReadFailure)
  | requested (method target : Bytes) (refusal : Refusal)
  | started (addr : Bytes)
  | stopped

/-- The session an event belongs to. -/
def Event.session? : Event → Option Nat
  | .sent i _ | .lost i _ _ | .closed i _ => some i
  | _ => none

/-- The session with an index, if it is open. -/
def live? (s : Server) (i : Nat) : Option Session := (s.session? i).filter (·.isOpen)

/-- The server after an event. Only open sessions have messages. -/
def step (s : Server) : Event → Server
  | .opened remote => s.openSession remote
  | .sent i message =>
    match s.live? i with
    | some session => (s.answer session message).2
    | none => s
  | .lost i message words =>
    match s.live? i with
    | some _ => s.answerGone i message words
    | none => s
  | .closed i failure => s.closeSession i failure
  | .requested method target refusal => (s.respond method target refusal).2
  | .started addr => (s.start addr).2
  | .stopped => s.stop

/-- The server after a sequence of events. -/
def run (s : Server) (es : List Event) : Server := es.foldl step s

end Server

end ChartScript
