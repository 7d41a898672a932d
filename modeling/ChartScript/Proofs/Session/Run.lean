import ChartScript.Proofs.Eval.Trail
import ChartScript.Session.Server

/-!
# Runs of a server

What an event makes of the scopes and the sessions of a server: `step_does` lists all that a step can
do. The log, and the host of the functions, are of no account for either.
-/

set_option autoImplicit false

namespace ChartScript
namespace Server

/-! ## What becomes of scopes and sessions -/

/-- Who evaluates the messages of a session. -/
def evaluator (s : Server) (session : Session) : Evaluator Host :=
  ⟨session.scope, some s.table.dispatcher, s.evalLogger⟩

/-- The scopes after a message of a session. -/
def forestAfter (s : Server) (session : Session) (message : Bytes) : Forest :=
  match Request.parse? message with
  | some request => (((s.evaluator session).evalSource request.source).run s.world).2.forest
  | none => s.world.forest

/-- The reply to a message of a session. -/
def replyAfter (s : Server) (session : Session) (message : Bytes) : Reply :=
  match Request.parse? message with
  | some request =>
    let run := ((s.evaluator session).evalSource request.source).run s.world
    Reply.ofRun run.1.1 run.1.2
  | none => .invalid (s.decoderWords message)

/-- The sessions when one of them has ended. -/
def withoutSession (sessions : List Session) (i : Nat) : List Session :=
  sessions.modify i fun e => { e with isOpen := false }

/-- A server that has come to the given scopes and sessions. -/
structure Does (s : Server) (forest : Forest) (sessions : List Session) (s' : Server) : Prop where
  root : s'.root = s.root
  table : s'.table = s.table
  words : s'.decoderWords = s.decoderWords
  forest : s'.world.forest = forest
  sessions : s'.sessions = sessions

theorem Does.refl (s : Server) : s.Does s.world.forest s.sessions s := ⟨rfl, rfl, rfl, rfl, rfl⟩

theorem Does.log {s s' : Server} {forest : Forest} {sessions : List Session}
    (h : s.Does forest sessions s') (e : Entry) : s.Does forest sessions (s'.log e) :=
  ⟨h.root, h.table, h.words, (World.forest_log ..).trans h.forest, h.sessions⟩

theorem Does.logSession {s s' : Server} {forest : Forest} {sessions : List Session}
    (h : s.Does forest sessions s') (session : Session) (level : Level) (msg : String)
    (vars : List (Bytes × Datum)) :
    s.Does forest sessions (s'.logSession session level msg vars) :=
  ⟨h.root, h.table, h.words, (World.forest_log ..).trans h.forest, h.sessions⟩

theorem openSession_does (s : Server) (remote : Bytes) :
    s.Does (s.world.forest.add (some s.root))
      (s.sessions ++ [⟨s.sessions.length + 1, s.world.forest.size, true⟩])
      (s.openSession remote) := by
  refine ⟨rfl, rfl, rfl, ?_, rfl⟩
  exact World.forest_log ..

theorem answer_does (s : Server) (session : Session) (message : Bytes) :
    s.Does (s.forestAfter session message) s.sessions (s.answer session message).2 := by
  unfold answer forestAfter
  cases Request.parse? message with
  | none =>
    dsimp only
    split
    · exact .refl s
    · exact (Does.refl s).logSession ..
  | some request =>
    have heval : s.Does (((s.evaluator session).evalSource request.source).run s.world).2.forest
        s.sessions (s.evaluate session.scope request.source).2 := ⟨rfl, rfl, rfl, rfl, rfl⟩
    dsimp only
    split
    · exact heval
    · exact heval.logSession ..

theorem answer_reply (s : Server) (session : Session) (message : Bytes) :
    (s.answer session message).1 = s.replyAfter session message := by
  unfold answer replyAfter
  cases Request.parse? message with
  | none =>
    dsimp only
    split <;> rfl
  | some request =>
    dsimp only
    split <;> rfl

/-- To end a session that is over, or was never there, changes nothing. -/
theorem withoutSession_of_not_live {s : Server} {i : Nat} (h : s.live? i = none) :
    withoutSession s.sessions i = s.sessions := by
  unfold withoutSession
  refine List.ext_getElem? fun j => ?_
  rw [List.getElem?_modify]
  by_cases hj : i = j
  · subst hj
    unfold live? session? at h
    cases hs : s.sessions[i]? with
    | none => rfl
    | some session =>
      obtain ⟨number, scope, isOpen⟩ := session
      rw [hs] at h
      have hclosed : isOpen = false := by simpa using h
      simp [hclosed]
  · simp [hj]

theorem endSession_does (s : Server) (i : Nat) (trouble : Option (String × Bytes)) :
    s.Does s.world.forest (withoutSession s.sessions i) (s.endSession i trouble) := by
  cases hlive : s.live? i with
  | none =>
    -- Nothing is done, and to close a session that is not open would change nothing either.
    have hsame : s.endSession i trouble = s := by
      unfold live? at hlive
      unfold endSession
      cases hs : s.session? i with
      | none => rfl
      | some session =>
        rw [hs] at hlive
        have hclosed : ¬ session.isOpen = true := by simpa using hlive
        dsimp only
        rw [if_neg hclosed]
    rw [hsame, withoutSession_of_not_live hlive]
    exact .refl s
  | some session =>
    obtain ⟨hs, hopen⟩ := Option.filter_eq_some_iff.1 hlive
    unfold endSession
    rw [hs]
    dsimp only
    rw [if_pos hopen]
    refine Does.logSession ?_ ..
    cases trouble with
    | none => exact ⟨rfl, rfl, rfl, rfl, rfl⟩
    | some t =>
      refine Does.logSession ?_ ..
      exact ⟨rfl, rfl, rfl, rfl, rfl⟩

theorem answerGone_does {s : Server} {i : Nat} {session : Session} (h : s.live? i = some session)
    (message words : Bytes) :
    s.Does (s.forestAfter session message) (withoutSession s.sessions i)
      (s.answerGone i message words) := by
  obtain ⟨hs, -⟩ := Option.filter_eq_some_iff.1 h
  unfold answerGone
  rw [hs]
  have hanswer := s.answer_does session message
  have hend := (s.answer session message).2.endSession_does i
    (some ("session write failed", words))
  rw [hanswer.forest, hanswer.sessions] at hend
  exact ⟨hend.root.trans hanswer.root, hend.table.trans hanswer.table,
    hend.words.trans hanswer.words, hend.forest, hend.sessions⟩

theorem respond_does (s : Server) (method target : Bytes) (refusal : Refusal) :
    s.Does s.world.forest s.sessions (s.respond method target refusal).2 := by
  unfold respond
  dsimp only
  split
  · exact .refl s
  split
  · exact .refl s
  split
  · exact .refl s
  unfold document
  dsimp only
  split
  · exact .refl s
  split
  · exact .refl s
  split
  · exact (Does.refl s).log _
  · exact .refl s

theorem start_does (s : Server) (addr : Bytes) :
    s.Does s.world.forest s.sessions (s.start addr).2 := by
  unfold start
  split
  · exact .refl s
  · exact (Does.refl s).log _

/-- **What a step can do.** A session is added with an empty scope below the root, or a message of
an open session is evaluated, or the scopes stay as they are. -/
theorem step_does (s : Server) (e : Event) :
    (e.session? = none ∧ s.Does (s.world.forest.add (some s.root))
        (s.sessions ++ [⟨s.sessions.length + 1, s.world.forest.size, true⟩]) (s.step e)) ∨
    (∃ i session message sessions, e.session? = some i ∧ s.live? i = some session ∧
        (sessions = s.sessions ∨ sessions = withoutSession s.sessions i) ∧
        s.Does (s.forestAfter session message) sessions (s.step e)) ∨
    (∃ sessions, (sessions = s.sessions ∨
          ∃ i, e.session? = some i ∧ sessions = withoutSession s.sessions i) ∧
        s.Does s.world.forest sessions (s.step e)) := by
  cases e with
  | opened remote => exact .inl ⟨rfl, s.openSession_does remote⟩
  | sent i message =>
    cases hlive : s.live? i with
    | none =>
      refine .inr (.inr ⟨_, .inl rfl, ?_⟩)
      rw [step, hlive]
      exact .refl s
    | some session =>
      refine .inr (.inl ⟨i, session, message, _, rfl, hlive, .inl rfl, ?_⟩)
      rw [step, hlive]
      exact s.answer_does session message
  | lost i message words =>
    cases hlive : s.live? i with
    | none =>
      refine .inr (.inr ⟨_, .inl rfl, ?_⟩)
      rw [step, hlive]
      exact .refl s
    | some session =>
      refine .inr (.inl ⟨i, session, message, _, rfl, hlive, .inr rfl, ?_⟩)
      rw [step, hlive]
      exact answerGone_does hlive message words
  | closed i failure =>
    exact .inr (.inr ⟨_, .inr ⟨i, rfl, rfl⟩, s.endSession_does i _⟩)
  | requested method target refusal =>
    exact .inr (.inr ⟨_, .inl rfl, s.respond_does method target refusal⟩)
  | started addr => exact .inr (.inr ⟨_, .inl rfl, s.start_does addr⟩)
  | stopped => exact .inr (.inr ⟨_, .inl rfl, ⟨rfl, rfl, rfl, rfl, rfl⟩⟩)

/-- The decoder stays what it is. -/
theorem decoderWords_step (s : Server) (e : Event) :
    (s.step e).decoderWords = s.decoderWords := by
  rcases s.step_does e with ⟨-, hd⟩ | ⟨i, session, message, sessions, -, -, -, hd⟩ |
    ⟨sessions, -, hd⟩
  · exact hd.words
  · exact hd.words
  · exact hd.words

theorem decoderWords_run (s : Server) (es : List Event) :
    (s.run es).decoderWords = s.decoderWords := by
  induction es generalizing s with
  | nil => rfl
  | cons e es ih => exact (ih (s.step e)).trans (s.decoderWords_step e)

/-- Ending a session changes no scope. -/
theorem scopes_withoutSession (sessions : List Session) (i : Nat) :
    (withoutSession sessions i).map Session.scope = sessions.map Session.scope := by
  unfold withoutSession
  refine List.ext_getElem? fun j => ?_
  rw [List.getElem?_map, List.getElem?_map, List.getElem?_modify]
  by_cases hj : i = j
  · subst hj
    cases sessions[i]? <;> simp
  · simp [hj]

end Server
end ChartScript
