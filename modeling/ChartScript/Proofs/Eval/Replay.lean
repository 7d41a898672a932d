import ChartScript.Function.Observation
import ChartScript.Proofs.Eval.Segments

/-!
# Recorded scripts replay

What a scope has recorded is a script of its own: the texts of its statements, one a line. If a run
in a fresh world ends without an error, running this script in a fresh world gives the same values,
prints the same and leaves a scope with the same dump. Nothing that has an effect goes unrecorded:
the run has recorded each statement that is not empty, in order (`Trail.statements`), and the text of
each is read as the statement (`reads_texts`).
-/

set_option autoImplicit false

namespace ChartScript

open Step

/-! ## What is recorded -/

namespace Forest

theorem statements_put {field : Field} (hfield : field ∈ fields) (f : Forest) (i : Nat)
    (name : Bytes) (v : Value) (j : Nat) :
    ((f.put field i name v).scope j).statements = (f.scope j).statements :=
  view_modify (fun _ => (statements_replace hfield _ _).1) f _ j

theorem statements_addChart (f : Forest) (i : Nat) (c : Chart) (j : Nat) :
    ((f.addChart i c).scope j).statements = (f.scope j).statements := by
  have hchart : ∀ s : Scope, Scope.statements { s with charts := s.charts ++ [c] } = s.statements :=
    fun _ => rfl
  exact view_modify hchart f i j

theorem statements_addStatement {f : Forest} {i : Nat} (hi : i < f.size) (stmt : Statement) :
    ((f.addStatement i stmt).scope i).statements = (f.scope i).statements ++ [stmt] := by
  unfold addStatement
  rw [scope_modify_self hi]

end Forest

theorem Footprint.statements {i : Nat} {f f' : Forest} (h : Footprint i f f') (j : Nat) :
    (f'.scope j).statements = (f.scope j).statements := by
  cases h with
  | none => rfl
  | property name v => exact Forest.statements_put Forest.propertyField_mem f i name v j
  | chart c => exact Forest.statements_addChart f i c j

theorem Footprint.size {i : Nat} {f f' : Forest} (h : Footprint i f f') : f'.size = f.size := by
  cases h with
  | none => rfl
  | property name v => exact Forest.size_modify ..
  | chart c => exact Forest.size_modify ..

/-- Only records change what a scope has recorded. -/
theorem Trail.statements {ev : Evaluator Host} (hev : ev.IsStandard) {a b : Forest × Host}
    {stmts : List Statement} (h : Trail ev a stmts b) (hi : ev.scope < a.1.size) :
    (b.1.scope ev.scope).statements = (a.1.scope ev.scope).statements ++ stmts := by
  induction h with
  | done s => rw [List.append_nil]
  | @store f h stmts s name v rest ih =>
    rw [ih (by rwa [Forest.putSymbol, Forest.put, Forest.size_modify])]
    dsimp only
    rw [Forest.putSymbol, Forest.statements_put Forest.symbolField_mem]
  | @call f h stmts s d hd name args rest ih =>
    obtain rfl : FunctionTable.standard.dispatcher = d := Option.some.inj (hev.symm.trans hd)
    have hfoot := FunctionTable.footprint_invoke name args ev.scope f h
    have hsize : ev.scope <
        (FunctionTable.standard.invoke ⟨name, args, some ev.scope⟩ f h).2.1.size := by
      rw [hfoot.size]
      exact hi
    rw [ih hsize]
    exact congrArg (· ++ stmts) (hfoot.statements ev.scope)
  | @record f h stmts s stmt rest ih =>
    rw [ih (by rwa [Forest.addStatement, Forest.size_modify])]
    dsimp only
    rw [Forest.statements_addStatement hi, List.append_assoc, List.singleton_append]

/-! ## Reading it -/

/-- The statements that a scope has recorded, one a line. -/
def Scope.script (s : Scope) : Bytes := Bytes.join Bytes.newline (s.statements.map Statement.text)

theorem Statement.RoundTrips.reads {stmt : Statement} (h : stmt.RoundTrips) :
    ∃ semi, semi.kind = .semicolon ∧ Reads stmt.text (stmt ++ [semi]) := by
  obtain ⟨tokens, semi, hlex, hsemi, hagrees, -⟩ := h
  refine ⟨semi, hsemi, tokens ++ [semi], hlex, ?_⟩
  exact List.rel_append hagrees (List.forall₂_refl [semi])

/-- Statements that are read back, line by line, are cut as they were. -/
theorem reads_texts {stmts : List Statement} (h : ∀ stmt ∈ stmts, stmt.RoundTrips)
    (inside : ∀ stmt ∈ stmts, ∀ tk ∈ stmt, tk.kind ≠ .semicolon) :
    ∃ parts, List.Forall₂ Reads (stmts.map Statement.text) parts ∧
      Terminated parts.flatten stmts := by
  induction stmts with
  | nil => exact ⟨[], .nil, .nil⟩
  | cons stmt stmts ih =>
    obtain ⟨semi, hsemi, hreads⟩ := (h stmt List.mem_cons_self).reads
    obtain ⟨parts, hparts, hterm⟩ := ih (fun s hs => h s (List.mem_cons_of_mem _ hs))
      fun s hs => inside s (List.mem_cons_of_mem _ hs)
    refine ⟨(stmt ++ [semi]) :: parts, .cons hreads hparts, ?_⟩
    rw [List.flatten_cons, List.append_assoc, List.singleton_append]
    exact .cons (inside stmt List.mem_cons_self) hsemi hterm

/-! ## Running it -/

/-- A world of one empty scope. -/
def World.fresh (host : Host) : World Host := ⟨.root, host, []⟩

namespace Evaluator

/-- An evaluator for the root of a forest, with the standard functions. -/
def standard (logger : Option Logger) : Evaluator Host :=
  ⟨0, some FunctionTable.standard.dispatcher, logger⟩

theorem standard_isStandard (logger : Option Logger) : (standard logger).IsStandard := rfl

/-- **A recorded script replays its run.** If a source is run without an error in a fresh world, so
is the script that the run recorded; it has the same values, prints the same and ends with the same
dump. -/
theorem evalSource_replays (logger : Option Logger) (host : Host) (source : Bytes)
    (h : (((standard logger).evalSource source).run (.fresh host)).1.2 = none) :
    let run := ((standard logger).evalSource source).run (.fresh host)
    let replay := ((standard logger).evalSource (run.2.forest.scope 0).script).run (.fresh host)
    replay.1.2 = none ∧
      replay.1.1.map Result.value = run.1.1.map Result.value ∧
      replay.2.printedSince (.fresh host) = run.2.printedSince (.fresh host) ∧
      (replay.2.forest.scope 0).dump = (run.2.forest.scope 0).dump := by
  have hev := standard_isStandard logger
  cases hrun : ((standard logger).evalSource source).run (.fresh host) with
  | mk out w =>
    obtain ⟨results, error⟩ := out
    rw [hrun] at h
    obtain rfl : error = none := h
    obtain ⟨tokens, stmts, hlex, hterm, heach, htokens, hstmts⟩ := evalEach_of_evalSource hrun
    -- What was recorded are the statements that are not empty.
    have hrecorded : (w.forest.scope 0).statements = results.map Result.statement := by
      have htrail := (standard logger).evalSource_trail source (.fresh host)
      rw [hrun] at htrail
      exact htrail.statements hev (Nat.lt_succ_self 0)
    have htrips : ∀ stmt ∈ results.map Result.statement, stmt.RoundTrips := by
      intro stmt hmem
      obtain ⟨r, hr, rfl⟩ := List.mem_map.1 hmem
      have hwritten : AllWritten (Cursor.ofList tokens).ahead := Lexer.lexFrom_written hlex
      have hall := (standard logger).evalStatements_roundTrip hwritten (.fresh host)
      rw [htokens] at hall
      exact hall r hr
    have hinside : ∀ stmt ∈ results.map Result.statement, ∀ tk ∈ stmt, tk.kind ≠ .semicolon := by
      intro stmt hmem
      rw [hstmts] at hmem
      exact hterm.inside_of_mem stmt (List.mem_of_mem_filter hmem)
    obtain ⟨parts, hparts, hcut⟩ := reads_texts htrips hinside
    rw [← evalEach_filter, ← hstmts] at heach
    obtain ⟨results', u, hreplay, hvalues, hagrees⟩ :=
      evalSource_of_reads hev (Reads.join hparts) hcut heach (.refl _)
    dsimp only
    rw [Scope.script, hrecorded, hreplay]
    refine ⟨rfl, hvalues, ?_, (hagrees.forest.scope 0).dump.symm⟩
    unfold World.printedSince
    rw [hagrees.host]

/-- The tree of `a = print()`. -/
def assigned : Grammar.Expression .last :=
  .single (.single (.assign ⟨⟨.symbol, "a", .nil, .start⟩, rfl⟩ ⟨⟨.assign, "=", .nil, .start⟩, rfl⟩
    (.single (.single (.call ⟨⟨.func, "print", .nil, .start⟩, rfl⟩
      ⟨⟨.leftParen, "(", .nil, .start⟩, rfl⟩ .none ⟨⟨.rightParen, ")", .nil, .start⟩, rfl⟩)))))

/-- A statement on two lines, and an empty one behind it. -/
def spread : List Bytes := ["a = # to be printed", "print();;"]

/-- The tokens of the lines. -/
def spreadTokens : List (List Token) :=
  [assigned.tokens.take 2,
    assigned.tokens.drop 2 ++ [⟨.semicolon, ";", .nil, .start⟩, ⟨.semicolon, ";", .nil, .start⟩]]

theorem reads_spread : List.Forall₂ Reads spread spreadTokens := by
  refine .cons (reads_of_names ?_ ?_) (.cons (reads_of_names ?_ ?_) .nil)
  all_goals decide +kernel

theorem terminated_spread : Terminated spreadTokens.flatten [assigned.tokens, []] := by
  have hempty : Terminated ([] ++ [⟨.semicolon, ";", .nil, .start⟩]) [[]] :=
    .cons (by simp) rfl .nil
  have hinside : ∀ tk ∈ assigned.tokens, tk.kind ≠ .semicolon := by decide
  exact .cons hinside rfl hempty

theorem on_assigned :
    on ((standard none).evalStatement assigned.tokens) (.fresh {}) =
      (.ok (.text []), (standard none).recorded assigned.tokens (.text [])
        (on ((standard none).evalExpr assigned.toExpr) (.fresh {})).2) := by
  rw [on_evalStatement _ assigned.startsOperand.ne_nil, Grammar.parse_tokens]
  rfl

theorem evalEach_spread : ∃ w,
    on ((standard none).evalEach [assigned.tokens, []]) (.fresh {}) = (.ok [.text []], w) ∧
      (w.forest.scope 0).script = "a = print();" ∧ w.host.printed = Bytes.newline := by
  refine ⟨(on ((standard none).evalStatement assigned.tokens) (.fresh {})).2, ?_, ?_⟩
  · rw [evalEach, on_bind, on_assigned]
    rfl
  · rw [on_assigned]
    decide +kernel

theorem run_spread : ∃ results u,
    ((standard none).evalSource (Bytes.join Bytes.newline spread)).run (.fresh {}) =
      ((results, none), u) ∧
    results.map Result.value = [.text []] ∧ (u.forest.scope 0).script = "a = print();" ∧
    u.host.printed = Bytes.newline := by
  obtain ⟨w, heach, hscript, hprinted⟩ := evalEach_spread
  obtain ⟨results, u, hrun, hvalues, hagrees⟩ := evalSource_of_reads
    (standard_isStandard none) (Reads.join reads_spread) terminated_spread heach (.refl _)
  refine ⟨results, u, hrun, hvalues, ?_, hagrees.host ▸ hprinted⟩
  rw [Scope.script, ← (hagrees.forest.scope 0).texts]
  exact hscript

/-- The two lines are recorded as `a = print();`, which has their value when it is run. -/
theorem evalSource_replays_spread :
    (((standard none).evalSource (Bytes.join Bytes.newline spread)).run (.fresh {})).1.2 = none ∧
      (((standard none).evalSource "a = print();").run (.fresh {})).1.2 = none ∧
      (((standard none).evalSource "a = print();").run (.fresh {})).1.1.map Result.value =
        [.text []] := by
  obtain ⟨results, u, hrun, hvalues, hscript, -⟩ := run_spread
  have hnone : (((standard none).evalSource (Bytes.join Bytes.newline spread)).run
      (.fresh {})).1.2 = none := by rw [hrun]
  have hreplay := evalSource_replays none {} _ hnone
  dsimp only at hreplay
  rw [hrun, hscript] at hreplay
  exact ⟨hnone, hreplay.1, hreplay.2.1.trans hvalues⟩

end Evaluator
end ChartScript
