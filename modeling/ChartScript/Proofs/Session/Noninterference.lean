import ChartScript.Proofs.Eval.Replay
import ChartScript.Proofs.Session.Isolation

/-!
# Sessions do not interfere

What a session is told depends on its own messages and on the values of the root, and on nothing
else. The proof is a simulation of two servers: one with any number of sessions, and one that has
the session in question alone. As long as no other session changes a value of the root, the scope of
the session in the one is `Alike` to its scope in the other, so its messages have the same replies.
-/

set_option autoImplicit false

namespace ChartScript

open Forest Step

/-- From a scope below the root, a name is read from the scope itself or else from the root. -/
theorem Forest.IsChild.get? {f : Forest} {root i : Nat} (h : f.IsChild root i) (field : Field)
    (name : Bytes) :
    f.get? field i name =
      ((field.table (f.scope i)).get? name).or ((field.table (f.scope root)).get? name) := by
  unfold Forest.get? holder? Table.contains
  rw [h.chain]
  cases hown : (field.table (f.scope i)).get? name with
  | some v => simp [hown]
  | none =>
    cases hroot : (field.table (f.scope root)).get? name with
    | some v => simp [hown, hroot]
    | none => simp [hown, hroot]

namespace Server

/-! ## What a session is told -/

/-- The reply to an event that a session gets, if it gets one. -/
def replyTo (s : Server) (k : Nat) : Event → List Reply
  | .sent i message =>
    if i = k then ((s.live? k).map fun session => (s.answer session message).1).toList else []
  | _ => []

/-- The replies a session gets, in their order. -/
def replies (s : Server) (k : Nat) : List Event → List Reply
  | [] => []
  | e :: es => s.replyTo k e ++ (s.step e).replies k es

/-- What is left of an event for the session `k` on its own, as the only session there is. -/
def Event.alone? (k : Nat) : Event → Option Event
  | .sent i message => if i = k then some (.sent 0 message) else none
  | .lost i message words => if i = k then some (.lost 0 message words) else none
  | .closed i failure => if i = k then some (.closed 0 failure) else none
  | _ => none

/-- The symbols and the properties of the root have kept their values. -/
structure KeepsRoot (s s' : Server) : Prop where
  symbols : ∀ name, s'.rootScope.symbols.get? name = s.rootScope.symbols.get? name
  properties : ∀ name, s'.rootScope.properties.get? name = s.rootScope.properties.get? name

/-- None of the events that belong to another session than `k` changes a value of the root. -/
def Undisturbed (k : Nat) : Server → List Event → Prop
  | _, [] => True
  | s, e :: es =>
    (∀ i, e.session? = some i → i ≠ k → s.KeepsRoot (s.step e)) ∧ Undisturbed k (s.step e) es

theorem undisturbed_append {k : Nat} {s : Server} {es es' : List Event}
    (h : Undisturbed k s (es ++ es')) : Undisturbed k s es ∧ Undisturbed k (s.run es) es' := by
  induction es generalizing s with
  | nil => exact ⟨trivial, h⟩
  | cons e es ih =>
    obtain ⟨hes, hes'⟩ := ih h.2
    exact ⟨⟨h.1, hes⟩, hes'⟩

/-! ## The root -/

variable {s₀ s s' t : Server}

theorem KeepsRoot.of_rootScope (h : s'.rootScope = s.rootScope) : s.KeepsRoot s' :=
  ⟨fun _ => by rw [h], fun _ => by rw [h]⟩

theorem KeepsRoot.trans {a b c : Server} (h : a.KeepsRoot b) (h' : b.KeepsRoot c) :
    a.KeepsRoot c :=
  ⟨fun name => (h'.symbols name).trans (h.symbols name),
    fun name => (h'.properties name).trans (h.properties name)⟩

theorem KeepsRoot.get? (h : s.KeepsRoot s') {field : Field} (hfield : field ∈ fields)
    (name : Bytes) :
    (field.table s'.rootScope).get? name = (field.table s.rootScope).get? name := by
  rcases mem_fields.1 hfield with rfl | rfl
  · exact h.symbols name
  · exact h.properties name

/-- The root keeps its names, so its values are kept if those of the names it had are. -/
theorem KeepsRoot.of_names (h : Isolated s₀ s) (h' : Isolated s₀ s')
    (hnames : ∀ field ∈ fields, ∀ name ∈ (field.table s₀.rootScope).names,
      (field.table s'.rootScope).get? name = (field.table s.rootScope).get? name) :
    s.KeepsRoot s' := by
  have hall : ∀ field ∈ fields, ∀ name,
      (field.table s'.rootScope).get? name = (field.table s.rootScope).get? name := by
    intro field hfield name
    by_cases hname : name ∈ (field.table s₀.rootScope).names
    · exact hnames field hfield name hname
    · have hnone : ∀ r : Scope, s₀.rootScope.SameShape r → (field.table r).get? name = none := by
        intro r hr
        rw [← Table.contains_iff, ← hr.contains hfield, Bool.not_eq_true] at hname
        exact Option.isSome_eq_false_iff.1 hname |> Option.isNone_iff_eq_none.1
      rw [hnone _ h'.shape, hnone _ h.shape]
  exact ⟨hall _ symbolField_mem, hall _ propertyField_mem⟩

/-- An event that no open session has sent keeps the root. -/
theorem keepsRoot_of_not_live {e : Event} (h : ∀ i, e.session? = some i → s.live? i = none) :
    s.KeepsRoot (s.step e) := by
  apply KeepsRoot.of_rootScope
  rcases s.step_does e with ⟨-, hd⟩ | ⟨i, session, message, sessions, he, hlive, -, hd⟩ |
    ⟨sessions, -, hd⟩
  · rw [rootScope, hd.forest, hd.root, scope_add]
    rfl
  · rw [h i he] at hlive
    cases hlive
  · rw [rootScope, hd.forest, hd.root]
    rfl

/-- Sessions are never forgotten. -/
theorem length_sessions_step (s : Server) (e : Event) :
    s.sessions.length ≤ (s.step e).sessions.length := by
  have hlen : ∀ i, (withoutSession s.sessions i).length = s.sessions.length := by
    intro i
    simp [withoutSession]
  rcases s.step_does e with ⟨-, hd⟩ | ⟨i, session, message, sessions, -, -, hs, hd⟩ |
    ⟨sessions, hs, hd⟩
  · rw [hd.sessions, List.length_append]
    exact Nat.le_add_right ..
  · rw [hd.sessions]
    rcases hs with rfl | rfl
    · exact Nat.le_refl _
    · exact Nat.le_of_eq (hlen i).symm
  · rw [hd.sessions]
    rcases hs with rfl | ⟨i, -, rfl⟩
    · exact Nat.le_refl _
    · exact Nat.le_of_eq (hlen i).symm

theorem length_sessions_run (s : Server) (es : List Event) :
    s.sessions.length ≤ (s.run es).sessions.length := by
  induction es generalizing s with
  | nil => exact Nat.le_refl _
  | cons e es ih => exact Nat.le_trans (s.length_sessions_step e) (ih (s.step e))

/-- Before the session `k` there is, undisturbed events keep the root. -/
theorem Undisturbed.keepsRoot {k : Nat} {es : List Event} (h : Undisturbed k s es)
    (hk : (s.run es).sessions.length ≤ k) : s.KeepsRoot (s.run es) := by
  induction es generalizing s with
  | nil => exact .of_rootScope rfl
  | cons e es ih =>
    have hlen := Nat.le_trans (Nat.le_trans (s.length_sessions_step e)
      ((s.step e).length_sessions_run es)) hk
    refine KeepsRoot.trans ?_ (ih h.2 hk)
    by_cases hother : ∃ i, e.session? = some i ∧ i ≠ k
    · obtain ⟨i, he, hi⟩ := hother
      exact h.1 i he hi
    · refine keepsRoot_of_not_live fun i he => ?_
      have hik : i = k := Classical.byContradiction fun hne => hother ⟨i, he, hne⟩
      subst hik
      rw [live?, session?, List.getElem?_eq_none hlen]
      rfl

/-! ## The two servers -/

/-- The session `k` of one server and the only session of another one, which sees the same. -/
structure Mirrors (k : Nat) (s t : Server) (a b : Session) : Prop where
  table : s.table = .standard
  table' : t.table = .standard
  words : s.decoderWords = t.decoderWords
  session : s.session? k = some a
  session' : t.session? 0 = some b
  isOpen : a.isOpen = b.isOpen
  alike : Alike s.world.forest a.scope t.world.forest b.scope

variable {k : Nat} {a b : Session}

theorem live?_of_session? {i : Nat} (h : s.session? i = some a) :
    s.live? i = if a.isOpen then some a else none := by
  rw [live?, h]
  cases hopen : a.isOpen <;> simp [Option.filter, hopen]

/-- A message has the same reply in both, and they see the same again. -/
theorem Mirrors.answer (h : Mirrors k s t a b) (message : Bytes) :
    (s.answer a message).1 = (t.answer b message).1 ∧
      Alike (s.forestAfter a message) a.scope (t.forestAfter b message) b.scope := by
  have htwins : (s.evaluator a).Twins (t.evaluator b) := by
    refine ⟨by rw [evaluator, evaluator, h.table, h.table'], fun d hd => ?_⟩
    obtain rfl := Option.some.inj hd
    rw [h.table]
    exact FunctionTable.blind_standard
  rw [answer_reply, answer_reply, replyAfter, replyAfter, forestAfter, forestAfter]
  cases Request.parse? message with
  | none => exact ⟨congrArg (fun words => Reply.invalid (words message)) h.words, h.alike⟩
  | some request =>
    obtain ⟨hrun, hsees⟩ := Evaluator.evalSource_alike htwins request.source h.alike
    exact ⟨congrArg (fun r => Reply.ofRun r.1 r.2) hrun, hsees⟩

theorem getElem?_withoutSession (sessions : List Session) (i j : Nat) :
    (withoutSession sessions i)[j]? =
      if i = j then sessions[j]?.map fun e => { e with isOpen := false } else sessions[j]? := by
  unfold withoutSession
  rw [List.getElem?_modify]
  by_cases hij : i = j <;> simp [hij]

/-- After the same message both see the same, whether or not the session goes on. -/
theorem Mirrors.of_does (h : Mirrors k s t a b) {f f' : Forest} {ss ss' : List Session}
    {s' t' : Server} (hd : s.Does f ss s') (hd' : t.Does f' ss' t')
    (halike : Alike f a.scope f' b.scope)
    (hss : ss = s.sessions ∧ ss' = t.sessions ∨
      ss = withoutSession s.sessions k ∧ ss' = withoutSession t.sessions 0) :
    ∃ a' b', Mirrors k s' t' a' b' := by
  have hs : s.sessions[k]? = some a := h.session
  have ht : t.sessions[0]? = some b := h.session'
  have hwords := hd.words.trans (h.words.trans hd'.words.symm)
  rcases hss with ⟨rfl, rfl⟩ | ⟨rfl, rfl⟩
  · refine ⟨a, b, hd.table.trans h.table, hd'.table.trans h.table', hwords, ?_, ?_, h.isOpen, ?_⟩
    · rw [session?, hd.sessions, hs]
    · rw [session?, hd'.sessions, ht]
    · rw [hd.forest, hd'.forest]
      exact halike
  · refine ⟨{ a with isOpen := false }, { b with isOpen := false }, hd.table.trans h.table,
      hd'.table.trans h.table', hwords, ?_, ?_, rfl, ?_⟩
    · rw [session?, hd.sessions, getElem?_withoutSession, if_pos rfl, hs]
      rfl
    · rw [session?, hd'.sessions, getElem?_withoutSession, if_pos rfl, ht]
      rfl
    · rw [hd.forest, hd'.forest]
      exact halike

/-- The events of a session. -/
theorem Event.own_cases {e : Event} (h : e.session? = some k) :
    (∃ message, e = .sent k message) ∨ (∃ message words, e = .lost k message words) ∨
      ∃ failure, e = .closed k failure := by
  cases e with
  | sent i message =>
    obtain rfl := Option.some.inj h
    exact .inl ⟨message, rfl⟩
  | lost i message words =>
    obtain rfl := Option.some.inj h
    exact .inr (.inl ⟨message, words, rfl⟩)
  | closed i failure =>
    obtain rfl := Option.some.inj h
    exact .inr (.inr ⟨failure, rfl⟩)
  | _ => cases h

/-- The session's own events: the same happens in both. -/
theorem Mirrors.own (h : Mirrors k s t a b) {e : Event} (he : e.session? = some k) :
    ∃ e', e.alone? k = some e' ∧ s.replyTo k e = t.replyTo 0 e' ∧
      ∃ a' b', Mirrors k (s.step e) (t.step e') a' b' := by
  have hlive := live?_of_session? h.session
  have hlive' := live?_of_session? h.session'
  rw [← h.isOpen] at hlive'
  rcases Event.own_cases he with ⟨message, rfl⟩ | ⟨message, words, rfl⟩ | ⟨failure, rfl⟩
  · obtain ⟨hreply, halike⟩ := h.answer message
    refine ⟨_, if_pos rfl, ?_⟩
    rw [replyTo, replyTo, step, step, if_pos rfl, if_pos rfl, hlive, hlive']
    cases hopen : a.isOpen with
    | false => exact ⟨rfl, a, b, h⟩
    | true =>
      refine ⟨by simp [hreply], ?_⟩
      exact h.of_does (s.answer_does a message) (t.answer_does b message) halike (.inl ⟨rfl, rfl⟩)
  · obtain ⟨-, halike⟩ := h.answer message
    refine ⟨_, if_pos rfl, rfl, ?_⟩
    rw [step, step, hlive, hlive']
    cases hopen : a.isOpen with
    | false => exact ⟨a, b, h⟩
    | true =>
      rw [hopen] at hlive hlive'
      exact h.of_does (answerGone_does hlive message words) (answerGone_does hlive' message words)
        halike (.inr ⟨rfl, rfl⟩)
  · refine ⟨_, if_pos rfl, rfl, ?_⟩
    exact h.of_does (s.endSession_does k _) (t.endSession_does 0 _) h.alike (.inr ⟨rfl, rfl⟩)

/-- An event of another session leaves the session `k` as it is. -/
theorem session?_step_other {e : Event} (h : s.session? k = some a) (hne : e.session? ≠ some k) :
    (s.step e).session? k = some a := by
  have hs : s.sessions[k]? = some a := h
  have hwithout : ∀ i, e.session? = some i → (withoutSession s.sessions i)[k]? = some a := by
    intro i he
    have hik : i ≠ k := fun hik => hne (hik ▸ he)
    rw [getElem?_withoutSession, if_neg hik, hs]
  rcases s.step_does e with ⟨-, hd⟩ | ⟨i, session, message, sessions, he, -, hss, hd⟩ |
    ⟨sessions, hss, hd⟩
  · rw [session?, hd.sessions, List.getElem?_append_left (List.getElem?_eq_some_iff.1 hs).1, hs]
  · rw [session?, hd.sessions]
    rcases hss with rfl | rfl
    · exact hs
    · exact hwithout i he
  · rw [session?, hd.sessions]
    rcases hss with rfl | ⟨i, he, rfl⟩
    · exact hs
    · exact hwithout i he

/-- Events of others that keep the root change nothing of what the session sees. -/
theorem Mirrors.other (hiso : Isolated s₀ s) (h : Mirrors k s t a b) {e : Event}
    (hne : e.session? ≠ some k) (hroot : s.KeepsRoot (s.step e)) :
    Mirrors k (s.step e) t a b := by
  have hiso' := hiso.step e
  have hsession := session?_step_other h.session hne
  refine ⟨hiso'.table, h.table', (s.decoderWords_step e).trans h.words, hsession, h.session',
    h.isOpen, ?_⟩
  have hchild := hiso.child _ (scope_mem h.session)
  have hchild' := hiso'.child _ (scope_mem hsession)
  refine ⟨hchild'.lt, h.alike.lt', fun field hfield name => ?_⟩
  -- A name is read from the scope itself, which others leave alone, or else from the root.
  rw [← h.alike.get? field hfield name, hchild.get?, hchild'.get?, hiso.others h.session hne]
  exact congrArg _ (hroot.get? hfield name)

theorem Event.alone?_of_ne {e : Event} (h : e.session? ≠ some k) : e.alone? k = none := by
  cases e with
  | sent i message => exact if_neg fun hik => h (congrArg some hik)
  | lost i message words => exact if_neg fun hik => h (congrArg some hik)
  | closed i failure => exact if_neg fun hik => h (congrArg some hik)
  | _ => rfl

theorem replyTo_of_ne {e : Event} (h : e.session? ≠ some k) : s.replyTo k e = [] := by
  cases e with
  | sent i message => exact if_neg fun hik => h (congrArg some hik)
  | _ => rfl

/-- Both servers tell the session the same, as long as it is undisturbed. -/
theorem Mirrors.replies (hiso : Isolated s₀ s) (h : Mirrors k s t a b) {es : List Event}
    (hu : Undisturbed k s es) : s.replies k es = t.replies 0 (es.filterMap (Event.alone? k)) := by
  induction es generalizing s t a b with
  | nil => rfl
  | cons e es ih =>
    by_cases he : e.session? = some k
    · obtain ⟨e', he', hreply, a', b', hnext⟩ := h.own he
      rw [List.filterMap_cons_some he', Server.replies, Server.replies, hreply,
        ih (hiso.step e) hnext hu.2]
    · have hroot : s.KeepsRoot (s.step e) := by
        cases hs : e.session? with
        | none =>
          refine keepsRoot_of_not_live fun i hi => ?_
          rw [hs] at hi
          cases hi
        | some i => exact hu.1 i hs fun hik => he (hs.trans (congrArg some hik))
      rw [List.filterMap_cons_none (Event.alone?_of_ne he), Server.replies, replyTo_of_ne he,
        List.nil_append]
      exact ih (hiso.step e) (h.other hiso he hroot) hu.2

/-- Where a session begins: it sees the root, and nothing else. -/
theorem get?_opened (hiso : Isolated s₀ s) (remote : Bytes) {field : Field}
    (hfield : field ∈ fields) (name : Bytes) :
    (s.openSession remote).world.forest.get? field s.world.forest.size name =
      (field.table s.rootScope).get? name := by
  have hown : (field.table ({} : Scope)).get? name = none := by
    rcases mem_fields.1 hfield with rfl | rfl <;> rfl
  rw [(s.openSession_does remote).forest, (isChild_add hiso.root_lt hiso.root_parent).get?,
    scope_add, scope_add, scope_size, hown]
  rfl

/-- A session that is opened while the root has its first values sees what one sees that is opened
at first. -/
theorem mirrors_opened (h₀ : s₀.Fresh) (hiso : Isolated s₀ s) (hroot : s₀.KeepsRoot s)
    (hwords : s.decoderWords = s₀.decoderWords) (remote remote' : Bytes) :
    Mirrors s.sessions.length (s.step (.opened remote)) (s₀.step (.opened remote'))
      ⟨s.sessions.length + 1, s.world.forest.size, true⟩ ⟨1, s₀.world.forest.size, true⟩ := by
  have hd : s.Does _ _ (s.step (.opened remote)) := s.openSession_does remote
  have hd' : s₀.Does _ _ (s₀.step (.opened remote')) := s₀.openSession_does remote'
  refine ⟨hd.table.trans hiso.table, hd'.table.trans h₀.table,
    hd.words.trans (hwords.trans hd'.words.symm), ?_, ?_, rfl, ?_, ?_, ?_⟩
  · rw [session?, hd.sessions, List.getElem?_append_right (Nat.le_refl _), Nat.sub_self]
    rfl
  · rw [session?, hd'.sessions, h₀.sessions]
    rfl
  · rw [hd.forest, size_add]
    exact Nat.lt_succ_self _
  · rw [hd'.forest, size_add]
    exact Nat.lt_succ_self _
  · intro field hfield name
    calc (s.step (.opened remote)).world.forest.get? field s.world.forest.size name
        = (field.table s.rootScope).get? name := get?_opened hiso remote hfield name
      _ = (field.table s₀.rootScope).get? name := hroot.get? hfield name
      _ = (s₀.step (.opened remote')).world.forest.get? field s₀.world.forest.size name :=
          (get?_opened h₀.isolated remote' hfield name).symm

/-- **Sessions do not interfere.** A server with the standard functions comes to some state, a
session is opened, and anything happens. If no message of another session changes a value of the
root, the session is told what it would be told if its own messages were evaluated alone, below the
root as it was at first. -/
theorem replies_noninterference {s₀ : Server} (h₀ : s₀.Fresh) (before after : List Event)
    (remote remote' : Bytes) {k : Nat} (hk : k = (s₀.run before).sessions.length)
    (hu : Undisturbed k s₀ (before ++ .opened remote :: after)) :
    ((s₀.run before).step (.opened remote)).replies k after =
      (s₀.step (.opened remote')).replies 0 (after.filterMap (Event.alone? k)) := by
  obtain ⟨hbefore, -, hafter⟩ := undisturbed_append hu
  have hiso := h₀.isolated.run before
  have hroot := hbefore.keepsRoot (Nat.le_of_eq hk.symm)
  subst hk
  have hwords := s₀.decoderWords_run before
  exact (mirrors_opened h₀ hiso hroot hwords remote remote').replies (hiso.step _) hafter

/-! ## Two clients of one root -/

/-- The world after a session has evaluated a tree and recorded its tokens. -/
def afterTree (s : Server) (session : Session) (tree : Grammar.Expression .last)
    (w : World Host) : World Host :=
  let w := (on ((s.evaluator session).evalExpr tree.toExpr) w).2
  { w with forest := w.forest.addStatement session.scope tree.tokens }

/-- A tree that has a value, run as the only statement there is. -/
theorem on_evalEach_tree {ev : Evaluator Host} {tree : Grammar.Expression .last} {v : Value}
    {w w' : World Host} (h : on (ev.evalExpr tree.toExpr) w = (.ok v, w')) :
    on (ev.evalEach [tree.tokens]) w =
      (.ok (if tree.tokens.isEmpty then [] else [v]), ev.recorded tree.tokens v w') := by
  have hstmt : on (ev.evalStatement tree.tokens) w = (.ok v, ev.recorded tree.tokens v w') := by
    rw [Evaluator.on_evalStatement _ tree.startsOperand.ne_nil, Grammar.parse_tokens]
    dsimp only
    rw [h]
  rw [Evaluator.evalEach, on_bind_ok hstmt]
  rfl

/-- A request that is evaluated without an error leaves the world of its run. -/
theorem world_answer {s : Server} {session : Session} {message : Bytes} {request : Request}
    (hparse : Request.parse? message = some request) {results : List Result} {u : World Host}
    (hrun : ((s.evaluator session).evalSource request.source).run s.world =
      ((results, none), u)) : (s.answer session message).2.world = u := by
  unfold answer
  rw [hparse]
  dsimp only [evaluate]
  rw [← evaluator, hrun]
  rfl

/-- A message that is read as a tree which has a value leaves what the tree leaves. -/
theorem step_agrees (htable : s.table = .standard) {i : Nat} {session : Session}
    (hlive : s.live? i = some session) {message source : Bytes}
    (hparse : (Request.parse? message).map Request.source = some source)
    {tree : Grammar.Expression .last} (inside : ∀ tk ∈ tree.tokens, tk.kind ≠ .semicolon)
    {semi : Token} (ends : semi.kind = .semicolon) (hs : Reads source (tree.tokens ++ [semi]))
    {w : World Host} (hw : w.Agrees s.world)
    (hvalue : (on ((s.evaluator session).evalExpr tree.toExpr) w).1.isOk = true) :
    (s.afterTree session tree w).Agrees (s.step (.sent i message)).world := by
  obtain ⟨request, hrequest, rfl⟩ := Option.map_eq_some_iff.1 hparse
  have hev : (s.evaluator session).IsStandard := by rw [evaluator, htable]; rfl
  rw [step, hlive, afterTree]
  dsimp only
  cases hon : on ((s.evaluator session).evalExpr tree.toExpr) w with
  | mk answer w' =>
    cases answer with
    | error e =>
      rw [hon] at hvalue
      cases hvalue
    | ok v =>
      obtain ⟨results, u, hrun, -, hu⟩ := Evaluator.evalSource_of_reads hev hs
        (.cons inside ends .nil) (on_evalEach_tree hon) hw
      rw [world_answer hrequest hrun]
      -- The entry for the statement goes to the log alone.
      exact ⟨World.forest_log .. ▸ hu.forest, World.host_log .. ▸ hu.host⟩

/-- Messages do not change who evaluates. -/
theorem evaluator_sent (s : Server) (i : Nat) (message : Bytes) (session : Session) :
    (s.step (.sent i message)).evaluator session = s.evaluator session := by
  have hanswer : ∀ session' : Session,
      (s.answer session' message).2.evaluator session = s.evaluator session := by
    intro session'
    unfold answer
    cases Request.parse? message with
    | none => dsimp only; split <;> rfl
    | some request => dsimp only; split <;> rfl
  rw [step]
  cases s.live? i with
  | none => rfl
  | some session' => exact hanswer session'

/-- A token without a value. -/
def named (kind : Kind) (lexeme : Bytes) : Grammar.TokenOf kind :=
  ⟨⟨kind, lexeme, .nil, .start⟩, rfl⟩

/-- The tree of an assignment. -/
def assigned (name : Bytes) (rhs : Grammar.Expression .last) : Grammar.Expression .last :=
  .single (.single (.assign (named .symbol name) (named .assign "=") rhs))

/-- The tree of a name. -/
def read (name : Bytes) : Grammar.Expression .last :=
  .single (.single (.symbol (named .symbol name)))

/-- The tree of a call. -/
def called (fn : Bytes) (args : Grammar.Items) : Grammar.Expression .last :=
  .single (.single (.call (named .func fn) (named .leftParen "(") (.some args)
    (named .rightParen ")")))

/-- The tree of `c = a`. -/
def copied : Grammar.Expression .last := assigned "c" (read "a")

/-- The tree of `c = chart(str(a), a)`. -/
def charted : Grammar.Expression .last :=
  assigned "c" (called "chart"
    (.more (called "str" (.one (read "a"))) (named .comma ",") (.one (read "a"))))

theorem reads_copied : Reads "c = a;" (copied.tokens ++ [(named .semicolon ";").1]) := by
  apply reads_of_names <;> decide +kernel

theorem reads_charted :
    Reads "c = chart(str(a), a);" (charted.tokens ++ [(named .semicolon ";").1]) := by
  apply reads_of_names <;> decide +kernel

theorem source_copied : (Request.parse? (asking "c = a;")).map Request.source =
    some "c = a;" := by decide +kernel

theorem source_charted : (Request.parse? (asking "c = chart(str(a), a);")).map Request.source =
    some "c = chart(str(a), a);" := by decide +kernel

/-- The loaded server with two sessions. -/
def visited : Server := (loaded.run [.opened "one"]).step (.opened "two")

/-- The world after the second session has evaluated `c = a`. -/
def afterCopy : World Host := visited.afterTree ⟨2, 2, true⟩ copied visited.world

/-- The world after the first session has then evaluated `c = chart(str(a), a)`. -/
def afterChart : World Host := visited.afterTree ⟨1, 1, true⟩ charted afterCopy

/-- Whether an entry is the integer `n`. -/
def holds (n : Int64) : Option Value → Bool
  | some (.integer m) => m == n
  | _ => false

theorem eq_of_holds {n : Int64} {entry : Option Value} (h : holds n entry = true) :
    entry = some (.integer n) := by
  unfold holds at h
  split at h
  · rw [beq_iff_eq.1 h]
  · cases h

/-- The server after the second session has sent `c = a;`. -/
def copying : Server := visited.step (.sent 1 (asking "c = a;"))

/-- The server after the first session has then sent `c = chart(str(a), a);`. -/
def charting : Server := copying.step (.sent 0 (asking "c = chart(str(a), a);"))

theorem copying_isolated : Isolated loaded copying :=
  loaded_fresh.isolated.run [.opened "one", .opened "two", .sent 1 (asking "c = a;")]

theorem copying_agrees : afterCopy.Agrees copying.world := by
  refine step_agrees rfl rfl source_copied (by decide) rfl reads_copied (.refl _) ?_
  decide +kernel

theorem charting_agrees : afterChart.Agrees charting.world := by
  have hsession : copying.session? 0 = some ⟨1, 1, true⟩ :=
    session?_step_other (k := 0) rfl (by decide)
  have hevaluator := visited.evaluator_sent 1 (asking "c = a;") ⟨1, 1, true⟩
  have hchart := step_agrees copying_isolated.table (live?_of_session? hsession) source_charted
    (by decide) rfl reads_charted copying_agrees
  rw [copying, afterTree, hevaluator] at hchart
  refine hchart ?_
  decide +kernel

/-- Of the names of the root, `a` alone could have got another value. -/
theorem copying_keepsRoot : copying.KeepsRoot charting := by
  have hiso' : Isolated loaded charting := copying_isolated.step _
  refine KeepsRoot.of_names copying_isolated hiso' fun field hfield name hname => ?_
  rcases mem_fields.1 hfield with rfl | rfl
  · obtain rfl : name = "a" := List.mem_singleton.1 hname
    have hbefore : holds 1 ((afterCopy.forest.scope 0).symbols.get? "a") = true := by
      decide +kernel
    have hafter : holds 1 ((afterChart.forest.scope 0).symbols.get? "a") = true := by
      decide +kernel
    rw [(copying_agrees.forest.scope 0).symbols] at hbefore
    rw [(charting_agrees.forest.scope 0).symbols] at hafter
    rw [rootScope, rootScope, copying_isolated.root, hiso'.root]
    exact (eq_of_holds hafter).trans (eq_of_holds hbefore).symm
  · cases hname

/-- While a session reads `a` of the root, sends what is no request and reads again, another one
charts `a` and binds the name that the first one uses. -/
theorem replies_noninterference_loaded :
    loaded.Fresh ∧
      visited.replies 1
          [.sent 1 (asking "c = a;"), .sent 0 (asking "c = chart(str(a), a);"), .sent 1 "\x7b",
            .sent 1 (asking "c + a;")] =
        (loaded.step (.opened "alone")).replies 0
          [.sent 0 (asking "c = a;"), .sent 0 "\x7b", .sent 0 (asking "c + a;")] ∧
      (charting.world.forest.scope 1).symbols.names = ["c"] ∧
        (charting.world.forest.scope 1).charts.length = 1 := by
  refine ⟨loaded_fresh, ?_, ?_, ?_⟩
  · refine replies_noninterference loaded_fresh [.opened "one"] _ "two" "alone" rfl
      ⟨fun i hi _ => ?_, fun i hi _ => ?_, fun i hi hne => ?_, fun _ _ _ => copying_keepsRoot,
        fun i hi hne => ?_, fun i hi hne => ?_, trivial⟩
    · cases hi
    · cases hi
    · exact absurd (Option.some.inj hi).symm hne
    · exact absurd (Option.some.inj hi).symm hne
    · exact absurd (Option.some.inj hi).symm hne
  · rw [← (charting_agrees.forest.scope 1).symbols]
    decide +kernel
  · rw [← (charting_agrees.forest.scope 1).charts]
    decide +kernel

end Server
end ChartScript
