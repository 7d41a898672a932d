import ChartScript.Proofs.Eval.Trail

/-!
# What a run does, whoever listens

A run is a list of acts: it stores symbols, makes calls, records statements and rejects malformed
ones. An act has an effect on the scopes and the host, and it leaves events in the trace. A logger
has a part in the events and in nothing else, so a run answers and acts alike whoever listens:
`evalSource_acts` gives one list of acts for all loggers, and from it the world that each of them
leaves behind. What is recorded on the list are the results of the run, and a statement is rejected
if and only if that is the error of the run.
-/

set_option autoImplicit false

namespace ChartScript

open Step

variable {σ : Type}

/-! ## Acts -/

/-- Something that an evaluator does. -/
inductive Act where
  | store (name : Bytes) (v : Value)
  | call (fn : Token) (args : List Value)
  | record (stmt : Statement) (v : Value)
  | reject (e : SyntaxError)

/-- The event of an entry, if somebody listens and lets it pass. -/
def Event.ofEntry (logger : Option Logger) (e : Entry) : List Event :=
  ((logger.bind (·.complete? e)).map Event.logged).toList

theorem World.log_eq (w : World σ) (logger : Option Logger) (e : Entry) :
    w.log logger e = { w with trace := w.trace ++ Event.ofEntry logger e } := by
  unfold log Event.ofEntry
  cases logger.bind (·.complete? e) with
  | none => exact congrArg (World.mk w.forest w.host) (List.append_nil _).symm
  | some e => rfl

namespace Act

/-- What an act makes of the scopes and the host. -/
def effect (ev : Evaluator σ) (s : Forest × σ) : Act → Forest × σ
  | .store name v => (s.1.putSymbol ev.scope name v, s.2)
  | .call fn args =>
    match ev.dispatcher with
    | some d => (d.invoke ⟨fn.lexeme, args, some ev.scope⟩ s.1 s.2).2
    | none => s
  | .record stmt _ => (s.1.addStatement ev.scope stmt, s.2)
  | .reject _ => s

/-- What an act leaves in the trace. -/
def events (logger : Option Logger) : Act → List Event
  | .store _ _ => []
  | .call fn args =>
    Event.ofEntry logger (Evaluator.callEntry fn args) ++ [.called fn.lexeme args]
  | .record stmt v => Event.ofEntry logger (Evaluator.statementEntry stmt v)
  | .reject e => Event.ofEntry logger (Evaluator.syntaxEntry e)

/-- The result that is recorded by an act. -/
def result? : Act → Option Result
  | .record stmt v => some ⟨stmt, v⟩
  | _ => none

/-- What a statement is rejected for. -/
def rejection? : Act → Option SyntaxError
  | .reject e => some e
  | _ => none

end Act

/-- What is wrong with a statement, if that is the error. -/
def EvalError.rejection? : EvalError → Option SyntaxError
  | .fault (.malformed e) => some e
  | _ => none

/-- The world after some acts. -/
def World.after (w : World σ) (ev : Evaluator σ) (acts : List Act) : World σ :=
  let s := acts.foldl (Act.effect ev) w.state
  ⟨s.1, s.2, w.trace ++ acts.flatMap (Act.events ev.logger)⟩

namespace World

theorem after_nil (w : World σ) (ev : Evaluator σ) : w.after ev [] = w := by
  rw [after, List.flatMap_nil, List.append_nil]
  rfl

theorem after_append (w : World σ) (ev : Evaluator σ) (acts acts' : List Act) :
    w.after ev (acts ++ acts') = (w.after ev acts).after ev acts' := by
  simp only [after, List.foldl_append, List.flatMap_append, List.append_assoc]

theorem after_singleton (w : World σ) (ev : Evaluator σ) (act : Act) :
    w.after ev [act] =
      ⟨(act.effect ev w.state).1, (act.effect ev w.state).2,
        w.trace ++ act.events ev.logger⟩ := by
  rw [after, List.flatMap_singleton]
  rfl

theorem after_reject (w : World σ) (ev : Evaluator σ) (e : SyntaxError) :
    w.after ev [.reject e] = ev.afterFault (.malformed e) w := by
  rw [after_singleton, Evaluator.afterFault, log_eq]
  rfl

theorem after_record (w : World σ) (ev : Evaluator σ) (stmt : Statement) (v : Value) :
    w.after ev [.record stmt v] = ev.recorded stmt v w := by
  rw [after_singleton, Evaluator.recorded, log_eq]
  rfl

theorem after_call (w : World σ) {ev : Evaluator σ} {d : Dispatcher σ}
    (h : ev.dispatcher = some d) (fn : Token) (args : List Value) :
    w.after ev [.call fn args] =
      let reply := d.invoke ⟨fn.lexeme, args, some ev.scope⟩ w.forest w.host
      { ev.beforeCall fn args w with forest := reply.2.1, host := reply.2.2 } := by
  rw [after_singleton, Act.effect, h, Act.events, Evaluator.beforeCall, log_eq, note,
    ← List.append_assoc]

end World

/-- What a statement is rejected for by an answer. -/
def rejections {α : Type} : Except EvalError α → List SyntaxError
  | .ok _ => []
  | .error e => e.rejection?.toList

namespace Evaluator

/-- The same evaluator with another listener, or with none. -/
def heardBy (ev : Evaluator σ) (logger : Option Logger) : Evaluator σ := { ev with logger }

/-- The acts of a step and its answer: from a state, they are the same whoever listens, and a
rejection is both or neither. -/
structure Enacted {α : Type} (ev : Evaluator σ) (x : Evaluator σ → Eval σ α) (s : Forest × σ)
    (answer : Except EvalError α) (acts : List Act) : Prop where
  heard : ∀ (logger : Option Logger) (w : World σ), w.state = s →
    on (x (ev.heardBy logger)) w = (answer, w.after (ev.heardBy logger) acts)
  rejects : acts.filterMap Act.rejection? = rejections answer

/-- A step that records nothing, and acts alike whoever listens. -/
def Enacts {α : Type} (ev : Evaluator σ) (x : Evaluator σ → Eval σ α) : Prop :=
  ∀ s, ∃ answer acts, ev.Enacted x s answer acts ∧ acts.filterMap Act.result? = []

section

variable {α β : Type} {ev : Evaluator σ}

/-- The state after acts does not depend on who listens. -/
theorem state_after (ev : Evaluator σ) {w : World σ} {s : Forest × σ} (h : w.state = s)
    (logger : Option Logger) (acts : List Act) :
    (w.after (ev.heardBy logger) acts).state = acts.foldl (Act.effect ev) s := by
  subst h
  rfl

theorem Enacts.pure (a : α) : ev.Enacts fun _ => (Pure.pure a : Eval σ α) := by
  intro s
  refine ⟨.ok a, [], ⟨fun logger w _ => ?_, rfl⟩, rfl⟩
  rw [World.after_nil]
  rfl

theorem Enacts.throw {e : EvalError} (h : e.rejection? = none) :
    ev.Enacts fun _ => (MonadExcept.throw e : Eval σ α) := by
  intro s
  refine ⟨.error e, [], ⟨fun logger w _ => ?_, ?_⟩, rfl⟩
  · rw [World.after_nil]
    rfl
  · rw [rejections, h]
    rfl

theorem Enacts.bind {x : Evaluator σ → Eval σ α} {f : Evaluator σ → α → Eval σ β}
    (hx : ev.Enacts x) (hf : ∀ a, ev.Enacts fun ev => f ev a) :
    ev.Enacts fun ev => x ev >>= f ev := by
  intro s
  obtain ⟨answer, acts, ⟨hheard, hrejects⟩, hquiet⟩ := hx s
  cases answer with
  | error e =>
    refine ⟨.error e, acts, ⟨fun logger w hw => ?_, hrejects⟩, hquiet⟩
    exact on_bind_error (hheard logger w hw) _
  | ok a =>
    obtain ⟨answer, acts', ⟨hheard', hrejects'⟩, hquiet'⟩ := hf a (acts.foldl (Act.effect ev) s)
    refine ⟨answer, acts ++ acts', ⟨fun logger w hw => ?_, ?_⟩, ?_⟩
    · rw [on_bind_ok (hheard logger w hw), hheard' logger _ (ev.state_after hw logger acts),
        World.after_append]
    · rw [List.filterMap_append, hrejects, hrejects']
      rfl
    · rw [List.filterMap_append, hquiet, hquiet']
      rfl

end

variable (ev : Evaluator σ)

/-! ## The steps of an evaluation -/

theorem raise_enacts {α : Type} (f : Fault) : ev.Enacts fun ev => (ev.raise f : Eval σ α) := by
  intro s
  cases f with
  | malformed e =>
    refine ⟨.error (.fault (.malformed e)), [.reject e], ⟨fun logger w _ => ?_, rfl⟩, rfl⟩
    rw [on_raise, World.after_reject]
  | unsupportedPrimary tk =>
    refine ⟨.error (.fault (.unsupportedPrimary tk)), [], ⟨fun logger w _ => ?_, rfl⟩, rfl⟩
    rw [on_raise, World.after_nil]
    rfl
  | pastEnd e =>
    refine ⟨.error (.fault (.pastEnd e)), [], ⟨fun logger w _ => ?_, rfl⟩, rfl⟩
    rw [on_raise, World.after_nil]
    rfl

theorem readSymbol_enacts (tk : Token) : ev.Enacts fun ev => ev.readSymbol tk := by
  intro s
  cases hs : s.1.symbol? ev.scope tk.lexeme with
  | some v =>
    refine ⟨.ok v, [], ⟨fun logger w hw => ?_, rfl⟩, rfl⟩
    subst hw
    have hsymbol : w.forest.symbol? (ev.heardBy logger).scope tk.lexeme = some v := hs
    rw [on_readSymbol, hsymbol, World.after_nil]
  | none =>
    refine ⟨.error (.uninitialized tk.lexeme tk.pos), [], ⟨fun logger w hw => ?_, rfl⟩, rfl⟩
    subst hw
    have hsymbol : w.forest.symbol? (ev.heardBy logger).scope tk.lexeme = none := hs
    rw [on_readSymbol, hsymbol, World.after_nil]

theorem store_enacts (name : Bytes) (v : Value) :
    ev.Enacts fun ev =>
      (modify fun w => { w with forest := w.forest.putSymbol ev.scope name v } : Eval σ Unit) := by
  intro s
  refine ⟨.ok (), [.store name v], ⟨fun logger w _ => ?_, rfl⟩, rfl⟩
  rw [on_modify, World.after_singleton, Act.events, List.append_nil]
  rfl

theorem dispatch_enacts (fn : Token) (args : List Value) :
    ev.Enacts fun ev => ev.dispatch fn args := by
  intro s
  cases hd : ev.dispatcher with
  | none =>
    refine ⟨.error .noDispatcher, [], ⟨fun logger w _ => ?_, rfl⟩, rfl⟩
    have hnone : (ev.heardBy logger).dispatcher = none := hd
    rw [on_dispatch, hnone, World.after_nil]
  | some d =>
    refine ⟨(d.invoke ⟨fn.lexeme, args, some ev.scope⟩ s.1 s.2).1.mapError .call,
      [.call fn args], ⟨fun logger w hw => ?_, ?_⟩, rfl⟩
    · subst hw
      have hsome : (ev.heardBy logger).dispatcher = some d := hd
      rw [on_dispatch, hsome, World.after_call w hsome]
      rfl
    · cases (d.invoke ⟨fn.lexeme, args, some ev.scope⟩ s.1 s.2).1 <;> rfl

theorem operate_enacts (op : Operator) (l r : Value) :
    ev.Enacts fun _ =>
      (match Value.apply op l r with
        | .ok v => pure v
        | .error e => throw (.operation e) : Eval σ Value) := by
  cases Value.apply op l r with
  | ok v => exact .pure v
  | error e => exact .throw rfl

mutual

theorem evalExpr_enacts : (e : Expr) → ev.Enacts fun ev => ev.evalExpr e
  | .literal v => by
    simp only [evalExpr]
    exact .pure v
  | .symbol tk => by
    simp only [evalExpr]
    exact ev.readSymbol_enacts tk
  | .assign tk rhs => by
    simp only [evalExpr]
    refine (evalExpr_enacts rhs).bind fun v => ?_
    exact (ev.store_enacts tk.lexeme v).bind fun _ => .pure v
  | .binary op left right => by
    simp only [evalExpr]
    refine (evalExpr_enacts left).bind fun l => ?_
    exact (evalExpr_enacts right).bind fun r => ev.operate_enacts op l r
  | .call fn args => by
    simp only [evalExpr]
    exact (evalArgs_enacts args).bind fun vs => ev.dispatch_enacts fn vs
  | .fault f => by
    simp only [evalExpr]
    exact ev.raise_enacts f

theorem evalArgs_enacts : (args : Args) → ev.Enacts fun ev => ev.evalArgs args
  | .nil => by
    simp only [evalArgs]
    exact .pure []
  | .cons arg rest => by
    simp only [evalArgs]
    refine (evalExpr_enacts arg).bind fun v => ?_
    exact (evalArgs_enacts rest).bind fun vs => .pure (v :: vs)

end

/-! ## Statements and scripts -/

/-- The result of a statement: an empty one has none. -/
def resultOf (stmt : Statement) (v : Value) : List Result :=
  if stmt.isEmpty then [] else [⟨stmt, v⟩]

/-- A statement that fails is not recorded; one that completes is, as the last act. -/
theorem evalStatement_acts (stmt : Statement) (s : Forest × σ) :
    ∃ answer acts, ev.Enacted (fun ev => ev.evalStatement stmt) s answer acts ∧
      acts.filterMap Act.result? =
        match answer with
        | .ok v => resultOf stmt v
        | .error _ => [] := by
  by_cases hne : stmt = []
  · subst hne
    refine ⟨.ok .nil, [], ⟨fun logger w _ => ?_, rfl⟩, rfl⟩
    rw [on_evalStatement_nil, World.after_nil]
  obtain ⟨answer, acts, ⟨hheard, hrejects⟩, hquiet⟩ := ev.evalExpr_enacts stmt.parse.tree s
  cases answer with
  | error e =>
    refine ⟨.error e, acts, ⟨fun logger w hw => ?_, hrejects⟩, hquiet⟩
    rw [on_evalStatement _ hne, hheard logger w hw]
  | ok v =>
    cases htrailing : stmt.parse.trailing with
    | some tk =>
      let e : SyntaxError := ⟨tk.pos, .trailingSymbol, []⟩
      refine ⟨.error (.fault (trailingFault tk)), acts ++ [.reject e],
        ⟨fun logger w hw => ?_, ?_⟩, ?_⟩
      · rw [on_evalStatement _ hne, hheard logger w hw, htrailing, World.after_append]
        dsimp only
        rw [World.after_reject, trailingFault]
      · rw [List.filterMap_append, hrejects]
        rfl
      · rw [List.filterMap_append, hquiet]
        rfl
    | none =>
      refine ⟨.ok v, acts ++ [.record stmt v], ⟨fun logger w hw => ?_, ?_⟩, ?_⟩
      · rw [on_evalStatement _ hne, hheard logger w hw, htrailing, World.after_append]
        dsimp only
        rw [World.after_record]
      · rw [List.filterMap_append, hrejects]
        rfl
      · have hempty : stmt.isEmpty = false := by simpa using hne
        rw [List.filterMap_append, hquiet]
        dsimp only
        rw [resultOf, hempty]
        rfl

theorem nextStatement_enacts (c : Cursor) : ev.Enacts fun ev => ev.nextStatement c := by
  unfold nextStatement
  cases (c.segment []).1 with
  | ok stmt => exact .pure stmt
  | error f => exact ev.raise_enacts f

/-- The acts of a whole run: what they record are its results, and its error is a rejection if
there is one among them. -/
structure Ran {ε : Type} (run : Evaluator σ → StateM (World σ) (List Result × Option ε))
    (rejection? : ε → Option SyntaxError) (s : Forest × σ) (out : List Result × Option ε)
    (acts : List Act) : Prop where
  heard : ∀ (logger : Option Logger) (w : World σ), w.state = s →
    (run (ev.heardBy logger)).run w = (out, w.after (ev.heardBy logger) acts)
  results : acts.filterMap Act.result? = out.1
  rejects : acts.filterMap Act.rejection? = (out.2.bind rejection?).toList

theorem evalStatements_acts (c : Cursor) (s : Forest × σ) :
    ∃ out acts, ev.Ran (fun ev => ev.evalStatements c) EvalError.rejection? s out acts := by
  induction c using Cursor.statement_induction generalizing s with
  | h c ih =>
    by_cases hnext : c.hasNext = true
    · obtain ⟨answer, acts, ⟨hheard, hrejects⟩, hquiet⟩ := ev.nextStatement_enacts c s
      cases answer with
      | error e =>
        refine ⟨([], some e), acts, fun logger w hw => ?_, hquiet, hrejects⟩
        rw [run_evalStatements, if_pos hnext, hheard logger w hw]
      | ok stmt =>
        obtain ⟨answer, acts₁, ⟨hheard₁, hrejects₁⟩, hresults₁⟩ :=
          ev.evalStatement_acts stmt (acts.foldl (Act.effect ev) s)
        cases answer with
        | error e =>
          refine ⟨([], some e), acts ++ acts₁, fun logger w hw => ?_, ?_, ?_⟩
          · rw [run_evalStatements, if_pos hnext, hheard logger w hw]
            dsimp only
            rw [hheard₁ logger _ (ev.state_after hw logger acts), World.after_append]
          · rw [List.filterMap_append, hquiet, hresults₁]
            rfl
          · rw [List.filterMap_append, hrejects, hrejects₁]
            rfl
        | ok v =>
          obtain ⟨out, acts₂, hheard₂, hresults₂, hrejects₂⟩ :=
            ih hnext (acts₁.foldl (Act.effect ev) (acts.foldl (Act.effect ev) s))
          refine ⟨(resultOf stmt v ++ out.1, out.2), acts ++ (acts₁ ++ acts₂),
            fun logger w hw => ?_, ?_, ?_⟩
          · have hw₁ := ev.state_after hw logger acts
            rw [run_evalStatements, if_pos hnext, hheard logger w hw]
            dsimp only
            rw [hheard₁ logger _ hw₁]
            dsimp only
            rw [hheard₂ logger _ (ev.state_after hw₁ logger acts₁), World.after_append,
              World.after_append, resultOf]
            cases stmt.isEmpty <;> rfl
          · rw [List.filterMap_append, List.filterMap_append, hquiet, hresults₁, hresults₂]
            rfl
          · rw [List.filterMap_append, List.filterMap_append, hrejects, hrejects₁, hrejects₂]
            rfl
    · refine ⟨([], none), [], fun logger w _ => ?_, rfl, rfl⟩
      rw [run_evalStatements, if_neg hnext, World.after_nil]

end Evaluator

/-- What is wrong with a statement, if that is the error of the script. -/
def ScriptError.rejection? : ScriptError → Option SyntaxError
  | .lexical _ => none
  | .evaluation e => e.rejection?

/-- **A run has one list of acts, whoever listens.** -/
theorem Evaluator.evalSource_acts (ev : Evaluator σ) (source : Bytes) (s : Forest × σ) :
    ∃ out acts, ev.Ran (fun ev => ev.evalSource source) ScriptError.rejection? s out acts := by
  cases hlex : lex source with
  | error e =>
    refine ⟨([], some (.lexical e)), [], fun logger w _ => ?_, rfl, rfl⟩
    rw [evalSource, hlex, World.after_nil]
    rfl
  | ok tokens =>
    obtain ⟨out, acts, hheard, hresults, hrejects⟩ := ev.evalStatements_acts (.ofList tokens) s
    refine ⟨(out.1, out.2.map .evaluation), acts, fun logger w hw => ?_, hresults, ?_⟩
    · rw [evalSource, hlex]
      dsimp only
      rw [run_bind, hheard logger w hw]
      rfl
    · rw [hrejects]
      cases out.2 <;> rfl

end ChartScript
