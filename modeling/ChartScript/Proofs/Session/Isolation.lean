import ChartScript.Proofs.Function.Effects
import ChartScript.Proofs.Scope.Confined
import ChartScript.Proofs.Session.Run

/-!
# Sessions are isolated

The invariant of a server with the standard functions, `Isolated`: the root keeps its names, its
statements and its charts, every session has a scope of its own below the root, and no session binds
a name that the root binds. A message can break it in no way because of what its evaluation can do
from the scope of its session (`forestAfter_confined`), whether it succeeds or fails.
-/

set_option autoImplicit false

namespace ChartScript

open Forest

/-! ## One message -/

/-- Whatever is evaluated in a scope below the root with the standard functions is confined. -/
theorem Trail.confined {ev : Evaluator Host}
    (hev : ev.dispatcher = some FunctionTable.standard.dispatcher) {root : Nat}
    {a b : Forest × Host} {stmts : List Statement} (h : Trail ev a stmts b)
    (hchild : a.1.IsChild root ev.scope) : Confined root ev.scope a.1 b.1 := by
  -- A step is confined only from a scope below the root, which is kept by being confined.
  refine h.keeps (R := fun a b => a.1.IsChild root ev.scope → Confined root ev.scope a.1 b.1)
    (fun s _ => .refl root ev.scope s.1) (fun hab hbc hc => ?_) (fun f h name v hc => ?_)
    (fun d hd name args f h hc => ?_) (fun f h stmt hc => ?_) hchild
  · exact (hab hc).trans (hbc (hc.confined (hab hc)))
  · exact confined_put hc symbolField_mem name v
  · obtain rfl := Option.some.inj (hev.symm.trans hd)
    have hfoot := FunctionTable.footprint_invoke name args ev.scope f h
    revert hfoot
    show Footprint ev.scope f (FunctionTable.standard.invoke ⟨name, args, some ev.scope⟩ f h).2.1 →
      Confined root ev.scope f (FunctionTable.standard.invoke ⟨name, args, some ev.scope⟩ f h).2.1
    generalize (FunctionTable.standard.invoke ⟨name, args, some ev.scope⟩ f h).2.1 = f'
    intro hfoot
    cases hfoot with
    | none => exact .refl root ev.scope f
    | property name v => exact confined_put hc propertyField_mem name v
    | chart c => exact confined_record hc fun field hfield s => table_addChart hfield c s
  · exact confined_record hc fun field hfield s => table_addStatement hfield stmt s

namespace Server

theorem forestAfter_confined {s : Server} (htable : s.table = .standard) {session : Session}
    (hchild : s.world.forest.IsChild s.root session.scope) (message : Bytes) :
    Confined s.root session.scope s.world.forest (s.forestAfter session message) := by
  unfold forestAfter
  cases Request.parse? message with
  | none => exact .refl ..
  | some request =>
    have htrail := (s.evaluator session).evalSource_trail request.source s.world
    exact htrail.confined (by rw [evaluator, htable]) hchild

/-! ## The invariant -/

/-- A server with the standard functions before its first session: its root has been loaded with
whatever it was to hold. -/
structure Fresh (s : Server) : Prop where
  table : s.table = .standard
  root_lt : s.root < s.world.forest.size
  root_parent : s.world.forest.parent? s.root = none
  sessions : s.sessions = []

/-- The contents of the root. -/
def rootScope (s : Server) : Scope := s.world.forest.scope s.root

/-- The scopes of the sessions, in the order in which they were opened. -/
def scopes (s : Server) : List Nat := s.sessions.map Session.scope

/-- The sessions keep apart from each other and from the root as it was in `s₀`. -/
structure Isolated (s₀ s : Server) : Prop where
  root : s.root = s₀.root
  table : s.table = .standard
  root_lt : s.root < s.world.forest.size
  root_parent : s.world.forest.parent? s.root = none
  shape : s₀.rootScope.SameShape s.rootScope
  child : ∀ i ∈ s.scopes, s.world.forest.IsChild s.root i
  distinct : s.scopes.Nodup
  apart : ∀ i ∈ s.scopes, s.rootScope.Apart (s.world.forest.scope i)

theorem Fresh.isolated {s : Server} (h : s.Fresh) : Isolated s s where
  root := rfl
  table := h.table
  root_lt := h.root_lt
  root_parent := h.root_parent
  shape := .refl _
  child i hi := by simp [scopes, h.sessions] at hi
  distinct := by simp [scopes, h.sessions]
  apart i hi := by simp [scopes, h.sessions] at hi

variable {s₀ s s' : Server}

/-- A server with the sessions it had is as isolated as before, if its scopes have kept their places
and their distance. -/
theorem Isolated.of_forest {sessions : List Session} {forest : Forest} (h : Isolated s₀ s)
    (hd : s.Does forest sessions s') (hs : sessions.map Session.scope = s.scopes)
    (hsize : forest.size = s.world.forest.size)
    (hparent : ∀ j, forest.parent? j = s.world.forest.parent? j)
    (hshape : s.rootScope.SameShape (forest.scope s.root))
    (happart : ∀ j ∈ s.scopes, (forest.scope s.root).Apart (forest.scope j)) :
    Isolated s₀ s' := by
  have hscopes : s'.scopes = s.scopes := by rw [scopes, hd.sessions, hs]
  have hroot : s'.rootScope = forest.scope s.root := by rw [rootScope, hd.forest, hd.root]
  refine ⟨hd.root.trans h.root, hd.table.trans h.table, ?_, ?_, ?_, ?_, ?_, ?_⟩
  · rw [hd.root, hd.forest, hsize]
    exact h.root_lt
  · rw [hd.root, hd.forest, hparent]
    exact h.root_parent
  · rw [hroot]
    exact h.shape.trans hshape
  · rw [hscopes, hd.root, hd.forest]
    intro j hj
    have hchild := h.child j hj
    exact ⟨hsize ▸ hchild.root_lt, hsize ▸ hchild.lt, (hparent _).trans hchild.root_parent,
      (hparent j).trans hchild.parent⟩
  · rw [hscopes]
    exact h.distinct
  · rw [hscopes, hroot, hd.forest]
    exact happart

/-- What is confined to the scope of a session keeps the sessions isolated. -/
theorem Isolated.of_confined {sessions : List Session} {forest : Forest} {i : Nat}
    (h : Isolated s₀ s) (hc : Confined s.root i s.world.forest forest)
    (hd : s.Does forest sessions s') (hs : sessions.map Session.scope = s.scopes) :
    Isolated s₀ s' := by
  refine h.of_forest hd hs hc.size hc.parent hc.shape fun j hj => ?_
  by_cases hji : j = i
  · subst hji
    exact hc.apart (h.apart j hj)
  · -- The root has the names it had, and the scope is as it was.
    rw [hc.others j hji (h.child j hj).ne.symm]
    exact (h.apart j hj).of_shape hc.shape

/-- A new session has an empty scope, so it is apart from the root. -/
theorem Isolated.of_opened {number : Nat} (h : Isolated s₀ s)
    (hd : s.Does (s.world.forest.add (some s.root))
      (s.sessions ++ [⟨number, s.world.forest.size, true⟩]) s') : Isolated s₀ s' := by
  have hscopes : s'.scopes = s.scopes ++ [s.world.forest.size] := by
    rw [scopes, hd.sessions, List.map_append]
    rfl
  have hroot : s'.rootScope = s.rootScope := by
    rw [rootScope, hd.forest, hd.root, scope_add]
    rfl
  have hnew := isChild_add h.root_lt h.root_parent
  refine ⟨hd.root.trans h.root, hd.table.trans h.table, ?_, ?_, ?_, ?_, ?_, ?_⟩
  · rw [hd.root, hd.forest]
    exact hnew.root_lt
  · rw [hd.root, hd.forest]
    exact hnew.root_parent
  · rw [hroot]
    exact h.shape
  · rw [hscopes, hd.root, hd.forest]
    intro i hi
    rcases List.mem_append.1 hi with hi | hi
    · exact (h.child i hi).add _
    · obtain rfl := List.mem_singleton.1 hi
      exact hnew
  · rw [hscopes]
    refine List.nodup_append.2 ⟨h.distinct, by simp, fun i hi j hj => ?_⟩
    obtain rfl := List.mem_singleton.1 hj
    exact Nat.ne_of_lt (h.child i hi).lt
  · rw [hscopes, hroot, hd.forest]
    intro i hi
    rw [scope_add]
    rcases List.mem_append.1 hi with hi | hi
    · exact h.apart i hi
    · obtain rfl := List.mem_singleton.1 hi
      rw [scope_size]
      exact Scope.apart_empty _

/-- The scope of a session, by the session's index. -/
theorem scopes_getElem? {i : Nat} {session : Session} (h : s.session? i = some session) :
    s.scopes[i]? = some session.scope := by
  rw [scopes, List.getElem?_map]
  exact congrArg (Option.map Session.scope) h

theorem scope_mem {i : Nat} {session : Session} (h : s.session? i = some session) :
    session.scope ∈ s.scopes := List.mem_of_getElem? (scopes_getElem? h)

theorem session?_of_live? {i : Nat} {session : Session} (h : s.live? i = some session) :
    s.session? i = some session := (Option.filter_eq_some_iff.1 h).1

/-- An evaluated message is confined to the scope of its session. -/
theorem Isolated.message_confined (h : Isolated s₀ s) {i : Nat} {session : Session}
    (hlive : s.live? i = some session) (message : Bytes) :
    Confined s.root session.scope s.world.forest (s.forestAfter session message) :=
  forestAfter_confined h.table (h.child _ (scope_mem (session?_of_live? hlive))) message

theorem Isolated.step (h : Isolated s₀ s) (e : Event) : Isolated s₀ (s.step e) := by
  rcases s.step_does e with ⟨-, hd⟩ | ⟨i, session, message, sessions, -, hlive, hs, hd⟩ |
    ⟨sessions, hs, hd⟩
  · exact h.of_opened hd
  · refine h.of_confined (h.message_confined hlive message) hd ?_
    rcases hs with rfl | rfl
    · rfl
    · exact scopes_withoutSession s.sessions i
  · refine h.of_forest hd ?_ rfl (fun _ => rfl) (.refl _) h.apart
    rcases hs with rfl | ⟨i, -, rfl⟩
    · rfl
    · exact scopes_withoutSession s.sessions i

/-- A server that another one can come to. -/
def Reachable (s₀ s : Server) : Prop := ∃ es, s = s₀.run es

theorem Isolated.run (h : Isolated s₀ s) (es : List Event) : Isolated s₀ (s.run es) := by
  induction es generalizing s with
  | nil => exact h
  | cons e es ih => exact ih (h.step e)

/-- A step leaves the scope of every session alone that it does not belong to. -/
theorem Isolated.others (h : Isolated s₀ s) {e : Event} {j : Nat} {other : Session}
    (hj : s.session? j = some other) (hne : e.session? ≠ some j) :
    (s.step e).world.forest.scope other.scope = s.world.forest.scope other.scope := by
  rcases s.step_does e with ⟨-, hd⟩ | ⟨i, session, message, sessions, he, hlive, -, hd⟩ |
    ⟨sessions, -, hd⟩
  · rw [hd.forest, scope_add]
  · have hi := session?_of_live? hlive
    have hij : i ≠ j := fun heq => hne (heq ▸ he)
    -- Different sessions have different scopes.
    have hscope : other.scope ≠ session.scope := by
      intro heq
      have hsame := (scopes_getElem? hj).trans (heq ▸ (scopes_getElem? hi).symm)
      have hlt := (List.getElem?_eq_some_iff.1 (scopes_getElem? hj)).1
      exact hij ((List.getElem?_inj hlt h.distinct).1 hsame).symm
    rw [hd.forest]
    exact (h.message_confined hlive message).others _ hscope
      (h.child _ (scope_mem hj)).ne.symm
  · rw [hd.forest]

/-- **Sessions are isolated.** In every state a server with the standard functions can come to, the
root has the names, the statements and the charts it had at first; every session has a scope of its
own below the root and binds no name the root binds; and no event changes the scope of a session it
does not belong to. -/
theorem sessions_isolated {s₀ s : Server} (h₀ : s₀.Fresh) (h : Reachable s₀ s) :
    (s.root = s₀.root ∧
      s.rootScope.symbols.names = s₀.rootScope.symbols.names ∧
      s.rootScope.properties.names = s₀.rootScope.properties.names ∧
      s.rootScope.statements = s₀.rootScope.statements ∧
      s.rootScope.charts = s₀.rootScope.charts) ∧
    s.scopes.Nodup ∧
    (∀ session ∈ s.sessions, s.world.forest.parent? session.scope = some s.root ∧
      (∀ name ∈ s.rootScope.symbols.names,
        name ∉ (s.world.forest.scope session.scope).symbols.names) ∧
      ∀ name ∈ s.rootScope.properties.names,
        name ∉ (s.world.forest.scope session.scope).properties.names) ∧
    ∀ e j other, s.session? j = some other → e.session? ≠ some j →
      (s.step e).world.forest.scope other.scope = s.world.forest.scope other.scope := by
  obtain ⟨es, rfl⟩ := h
  have hiso := h₀.isolated.run es
  refine ⟨⟨hiso.root, hiso.shape.names _ symbolField_mem,
    hiso.shape.names _ propertyField_mem, hiso.shape.statements, hiso.shape.charts⟩,
    hiso.distinct, fun session hsession => ?_, fun e j other hj hne => hiso.others hj hne⟩
  have hmem : session.scope ∈ (s₀.run es).scopes := List.mem_map_of_mem hsession
  have happart := hiso.apart _ hmem
  exact ⟨(hiso.child _ hmem).parent, happart.not_mem symbolField symbolField_mem,
    happart.not_mem propertyField propertyField_mem⟩

/-- A server whose root holds the symbol `a`. -/
def loaded : Server where
  world := ⟨⟨[⟨none, { symbols := .ofList [("a", .integer 1)] }⟩]⟩, {}, []⟩
  root := 0
  table := .standard
  decoderWords := fun _ => "unexpected end of JSON input"

theorem loaded_fresh : loaded.Fresh := ⟨rfl, by decide, by decide, rfl⟩

/-- The message of a client that has a source evaluated. -/
def asking (source : String) : Bytes := ("\x7b\"source\": \"" ++ source ++ "\"\x7d" : String)

/-- Two clients, of which one writes to `a` and to a symbol of its own. -/
theorem sessions_isolated_loaded :
    loaded.Fresh ∧
      (loaded.run [.opened "one", .opened "two", .sent 0 (asking "a = 2; b = a;")]
        ).rootScope.symbols.names = loaded.rootScope.symbols.names :=
  ⟨loaded_fresh, (sessions_isolated loaded_fresh ⟨_, rfl⟩).1.2.1⟩

end Server
end ChartScript
