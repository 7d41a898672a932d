import ChartScript.Proofs.Eval.Agreement
import ChartScript.Proofs.Eval.Recording
import ChartScript.Proofs.Token.Pending

/-!
# Scripts as lists of statements

A run that succeeds has cut its tokens into statements (`Terminated`) and evaluated them one after
the other (`evalEach`), and tokens that are cut so are run in this way. Lists of statements are
easier to take apart than texts: they can be appended, empty statements can be dropped, and a list
read again from another text is evaluated as before (`evalSource_of_reads`).
-/

set_option autoImplicit false

namespace ChartScript

open Step

/-! ## Cutting -/

/-- Tokens and the statements they are cut into: each ends before its terminator. -/
inductive Terminated : List Token → List Statement → Prop where
  | nil : Terminated [] []
  | cons {stmt : Statement} {semi : Token} {rest : List Token} {stmts : List Statement}
      (inside : ∀ tk ∈ stmt, tk.kind ≠ .semicolon) (ends : semi.kind = .semicolon)
      (others : Terminated rest stmts) : Terminated (stmt ++ semi :: rest) (stmt :: stmts)

namespace Terminated

/-- What agrees with tokens that are cut is cut alike. -/
theorem of_agrees {tokens tokens' : List Token} {stmts : List Statement}
    (h : Terminated tokens stmts) (ha : List.Forall₂ Token.Agrees tokens tokens') :
    ∃ stmts', Terminated tokens' stmts' ∧
      List.Forall₂ (List.Forall₂ Token.Agrees) stmts stmts' := by
  induction h generalizing tokens' with
  | nil =>
    cases ha
    exact ⟨[], .nil, .nil⟩
  | @cons stmt semi rest stmts inside ends others ih =>
    obtain ⟨stmt', more, rfl, hstmt, hmore⟩ := agrees_append ha
    cases hmore with
    | @cons _ semi' _ rest' hsemi hrest =>
      obtain ⟨stmts', hothers, hall⟩ := ih hrest
      refine ⟨stmt' :: stmts', .cons ?_ (hsemi.kind ▸ ends) hothers, .cons hstmt hall⟩
      intro tk htk
      have hkind : tk.kind ∈ stmt.map Token.kind := by
        rw [kinds_of_agrees hstmt]
        exact List.mem_map_of_mem htk
      obtain ⟨tk₀, htk₀, hk⟩ := List.mem_map.1 hkind
      rw [← hk]
      exact inside tk₀ htk₀

theorem isOpen_eq_false {tokens : List Token} {stmts : List Statement}
    (h : Terminated tokens stmts) : isOpen tokens = false := by
  induction h with
  | nil => rfl
  | @cons stmt semi rest stmts inside ends others ih =>
    rw [isOpen_append_cons]
    cases rest with
    | nil => simp [isOpen, ends]
    | cons tk rest => exact (isOpen_append_cons [semi] tk rest).trans ih

theorem eq_nil {stmts : List Statement} (h : Terminated [] stmts) : stmts = [] := by
  generalize hn : ([] : List Token) = tokens at h
  cases h with
  | nil => rfl
  | cons inside ends others => simp at hn

/-- Without a terminator at its end, a part of a statement is open. -/
theorem eq_nil_of_inside {tokens : List Token} (h : ∀ tk ∈ tokens, tk.kind ≠ .semicolon)
    (ho : isOpen tokens = false) : tokens = [] := by
  rcases List.eq_nil_or_concat tokens with rfl | ⟨front, tk, rfl⟩
  · rfl
  · rw [List.concat_eq_append, isOpen_append_cons] at ho
    have hk := h tk (by simp)
    simp [isOpen, hk] at ho

/-- Tokens that are cut can be parted behind a terminator. -/
theorem split {a b : List Token} {stmts : List Statement} (h : Terminated (a ++ b) stmts)
    (ho : isOpen a = false) :
    ∃ s t, stmts = s ++ t ∧ Terminated a s ∧ Terminated b t := by
  generalize hab : a ++ b = tokens at h
  induction h generalizing a with
  | nil =>
    obtain ⟨rfl, rfl⟩ := List.append_eq_nil_iff.1 hab
    exact ⟨[], [], rfl, .nil, .nil⟩
  | @cons stmt semi rest stmts inside ends others ih =>
    rcases List.append_eq_append_iff.1 hab with ⟨more, rfl, hb⟩ | ⟨more, rfl, hrest⟩
    · -- `a` is a beginning of the first statement, so it is empty.
      obtain rfl := eq_nil_of_inside (fun tk htk => inside tk (List.mem_append_left _ htk)) ho
      subst hb
      exact ⟨[], more :: stmts, rfl, .nil, .cons inside ends others⟩
    · cases more with
      | nil =>
        rw [List.append_nil] at ho
        obtain rfl := eq_nil_of_inside inside ho
        rw [List.nil_append] at hrest
        subst hrest
        have hempty : Terminated ([] ++ semi :: rest) ([] :: stmts) :=
          .cons (fun tk htk => (by cases htk)) ends others
        exact ⟨[], [] :: stmts, rfl, .nil, hempty⟩
      | cons tk more =>
        obtain ⟨rfl, rfl⟩ := List.cons.inj hrest
        have hmore : isOpen more = false := by
          cases more with
          | nil => rfl
          | cons tk more =>
            rw [isOpen_append_cons] at ho
            exact (isOpen_append_cons [semi] tk more).symm.trans ho
        obtain ⟨s, t, rfl, hs, ht⟩ := ih hmore rfl
        exact ⟨stmt :: s, t, rfl, .cons inside ends hs, ht⟩

/-- A statement that was cut has no terminator in it. -/
theorem inside_of_mem {tokens : List Token} {stmts : List Statement} (h : Terminated tokens stmts) :
    ∀ stmt ∈ stmts, ∀ tk ∈ stmt, tk.kind ≠ .semicolon := by
  induction h with
  | nil =>
    intro stmt hstmt
    cases hstmt
  | cons inside ends others ih =>
    intro stmt hstmt
    rcases List.mem_cons.1 hstmt with rfl | hstmt
    · exact inside
    · exact ih stmt hstmt

end Terminated

namespace Cursor

theorem segment_terminated {stmt : Statement} {semi : Token}
    (inside : ∀ tk ∈ stmt, tk.kind ≠ .semicolon) (ends : semi.kind = .semicolon)
    (seen rest taken : List Token) :
    (Cursor.mk seen (stmt ++ semi :: rest)).segment taken =
      (.ok (taken.reverse ++ stmt), ⟨semi :: (stmt.reverse ++ seen), rest⟩) := by
  induction stmt generalizing seen taken with
  | nil => simp [segment_cons, ends]
  | cons tk stmt ih =>
    rw [List.cons_append, segment_cons, if_neg (inside tk List.mem_cons_self),
      ih fun tk' htk' => inside tk' (List.mem_cons_of_mem _ htk')]
    simp

/-- A statement was cut off by a terminator. -/
theorem segment_eq_ok {seen ahead taken : List Token} {stmt : Statement}
    (h : ((Cursor.mk seen ahead).segment taken).1 = .ok stmt) :
    ∃ front semi rest, ahead = front ++ semi :: rest ∧ stmt = taken.reverse ++ front ∧
      (∀ tk ∈ front, tk.kind ≠ .semicolon) ∧ semi.kind = .semicolon := by
  induction ahead generalizing seen taken with
  | nil =>
    rw [segment, if_neg (by rw [Expr.hasNext_nil]; decide)] at h
    cases h
  | cons tk ahead ih =>
    rw [segment_cons] at h
    by_cases hk : tk.kind = .semicolon
    · rw [if_pos hk] at h
      cases h
      refine ⟨[], tk, ahead, rfl, (List.append_nil _).symm, fun tk' htk' => ?_, hk⟩
      cases htk'
    · rw [if_neg hk] at h
      obtain ⟨front, semi, rest, rfl, rfl, inside, ends⟩ := ih h
      refine ⟨tk :: front, semi, rest, rfl, by simp, ?_, ends⟩
      intro tk' htk'
      rcases List.mem_cons.1 htk' with rfl | htk'
      · exact hk
      · exact inside tk' htk'

end Cursor

/-! ## Evaluating one after the other -/

namespace Evaluator

section

variable {σ : Type}

/-- Evaluates statements one after the other: the values of those that are not empty. -/
def evalEach (ev : Evaluator σ) : List Statement → Eval σ (List Value)
  | [] => pure []
  | stmt :: stmts => do
    let v ← ev.evalStatement stmt
    let vs ← ev.evalEach stmts
    pure (if stmt.isEmpty then vs else v :: vs)

variable (ev : Evaluator σ)

theorem evalEach_append (s t : List Statement) :
    ev.evalEach (s ++ t) = (do
      let vs ← ev.evalEach s
      let vs' ← ev.evalEach t
      pure (vs ++ vs')) := by
  induction s with
  | nil => simp [evalEach]
  | cons stmt s ih =>
    rw [List.cons_append, evalEach, evalEach, ih]
    cases stmt.isEmpty <;> simp

/-- Empty statements have no part in a run. -/
theorem evalEach_filter (stmts : List Statement) :
    ev.evalEach (stmts.filter fun stmt => !stmt.isEmpty) = ev.evalEach stmts := by
  induction stmts with
  | nil => rfl
  | cons stmt stmts ih =>
    cases stmt with
    | nil =>
      have hnil : ev.evalStatement [] = pure .nil := rfl
      rw [List.filter_cons_of_neg (by simp), ih, evalEach, hnil]
      simp
    | cons tk stmt =>
      rw [List.filter_cons_of_pos (by simp), evalEach, evalEach, ih]

/-- A list of statements is evaluated part by part. -/
theorem on_evalEach_append {s t : List Statement} {w w' : World σ} {vs : List Value}
    (h : on (ev.evalEach (s ++ t)) w = (.ok vs, w')) :
    ∃ vs₁ vs₂ w₁, on (ev.evalEach s) w = (.ok vs₁, w₁) ∧ on (ev.evalEach t) w₁ = (.ok vs₂, w') ∧
      vs = vs₁ ++ vs₂ := by
  rw [evalEach_append] at h
  obtain ⟨vs₁, w₁, hs, h⟩ := on_bind_eq_ok h
  obtain ⟨vs₂, w₂, ht, h⟩ := on_bind_eq_ok h
  cases h
  exact ⟨vs₁, vs₂, w₁, hs, ht, rfl⟩

/-- The results of a run whose first statement has a value. -/
def resultsFrom (stmt : Statement) (v : Value) (more : List Result) : List Result :=
  if stmt.isEmpty then more else ⟨stmt, v⟩ :: more

theorem map_value_resultsFrom (stmt : Statement) (v : Value) (more : List Result) :
    (resultsFrom stmt v more).map Result.value =
      if stmt.isEmpty then more.map Result.value else v :: more.map Result.value := by
  unfold resultsFrom
  cases stmt.isEmpty <;> rfl

theorem run_evalStatements_nil (seen : List Token) (w : World σ) :
    (ev.evalStatements ⟨seen, []⟩).run w = (([], none), w) := by
  rw [run_evalStatements, if_neg (by rw [Expr.hasNext_nil]; decide)]

theorem run_evalStatements_cons {stmt : Statement} {semi : Token}
    (inside : ∀ tk ∈ stmt, tk.kind ≠ .semicolon) (ends : semi.kind = .semicolon)
    (seen rest : List Token) {v : Value} {w w₁ : World σ}
    (h : on (ev.evalStatement stmt) w = (.ok v, w₁)) :
    (ev.evalStatements ⟨seen, stmt ++ semi :: rest⟩).run w =
      let run := (ev.evalStatements ⟨semi :: (stmt.reverse ++ seen), rest⟩).run w₁
      ((resultsFrom stmt v run.1.1, run.1.2), run.2) := by
  have hnext : (Cursor.mk seen (stmt ++ semi :: rest)).hasNext = true := by
    cases stmt with
    | nil => exact Expr.hasNext_cons seen semi rest
    | cons tk stmt => exact Expr.hasNext_cons seen tk _
  have hcut := Cursor.segment_terminated inside ends seen rest []
  rw [run_evalStatements, if_pos hnext, on_nextStatement, Cursor.afterStatement, hcut]
  dsimp only [List.reverse_nil, List.nil_append]
  rw [h]
  rfl

/-- Tokens that are cut into statements are run by evaluating each of them. -/
theorem run_of_evalEach {tokens : List Token} {stmts : List Statement}
    (ht : Terminated tokens stmts) (seen : List Token) {w w' : World σ} {vs : List Value}
    (h : on (ev.evalEach stmts) w = (.ok vs, w')) :
    ∃ results, (ev.evalStatements ⟨seen, tokens⟩).run w = ((results, none), w') ∧
      results.map Result.value = vs := by
  induction ht generalizing seen w vs with
  | nil =>
    cases h
    exact ⟨[], ev.run_evalStatements_nil seen _, rfl⟩
  | @cons stmt semi rest stmts inside ends others ih =>
    rw [evalEach] at h
    obtain ⟨v, w₁, hstmt, h⟩ := on_bind_eq_ok h
    obtain ⟨vs', w₂, hmore, h⟩ := on_bind_eq_ok h
    cases h
    obtain ⟨results, hrun, rfl⟩ := ih (semi :: (stmt.reverse ++ seen)) hmore
    refine ⟨resultsFrom stmt v results, ?_, map_value_resultsFrom stmt v results⟩
    rw [ev.run_evalStatements_cons inside ends seen rest hstmt, hrun]

/-- What a run without an error did first. -/
theorem run_evalStatements_cases {c : Cursor} {w w' : World σ} {results : List Result}
    (h : (ev.evalStatements c).run w = ((results, none), w')) :
    (c.ahead = [] ∧ results = [] ∧ w' = w) ∨
      ∃ stmt semi rest v w₁ more, c.hasNext = true ∧ c.ahead = stmt ++ semi :: rest ∧
        (∀ tk ∈ stmt, tk.kind ≠ .semicolon) ∧ semi.kind = .semicolon ∧
        on (ev.evalStatement stmt) w = (.ok v, w₁) ∧ c.afterStatement.ahead = rest ∧
        (ev.evalStatements c.afterStatement).run w₁ = ((more, none), w') ∧
        results = resultsFrom stmt v more := by
  obtain ⟨seen, ahead⟩ := c
  cases ahead with
  | nil =>
    rw [run_evalStatements_nil] at h
    cases h
    exact .inl ⟨rfl, rfl, rfl⟩
  | cons tk ahead =>
    have hnext := Expr.hasNext_cons seen tk ahead
    rw [run_evalStatements, if_pos hnext, on_nextStatement] at h
    cases hs : ((Cursor.mk seen (tk :: ahead)).segment []).1 with
    | error f =>
      rw [hs] at h
      cases h
    | ok stmt =>
      obtain ⟨front, semi, rest, hahead, hfront, inside, ends⟩ := Cursor.segment_eq_ok hs
      obtain rfl : stmt = front := hfront
      rw [hs] at h
      dsimp only at h
      cases hr : on (ev.evalStatement stmt) w with
      | mk answer w₁ =>
        rw [hr] at h
        cases answer with
        | error e => cases h
        | ok v =>
          have hafter : (Cursor.mk seen (tk :: ahead)).afterStatement.ahead = rest := by
            rw [Cursor.afterStatement, hahead, Cursor.segment_terminated inside ends]
          obtain ⟨hout, rfl⟩ := Prod.mk.inj h
          obtain ⟨hresults, herror⟩ := Prod.mk.inj hout
          exact .inr ⟨stmt, semi, rest, v, w₁, _, hnext, hahead, inside, ends, hr, hafter,
            Prod.ext (Prod.ext rfl herror) rfl, hresults.symm⟩

/-- A run without an error has cut what was ahead into statements and evaluated each of them. -/
theorem evalEach_of_run {c : Cursor} {w w' : World σ} {results : List Result}
    (h : (ev.evalStatements c).run w = ((results, none), w')) :
    ∃ stmts, Terminated c.ahead stmts ∧
      on (ev.evalEach stmts) w = (.ok (results.map Result.value), w') ∧
      results.map Result.statement = stmts.filter fun stmt => !stmt.isEmpty := by
  induction c using Cursor.statement_induction generalizing w results with
  | h c ih =>
    rcases ev.run_evalStatements_cases h with ⟨hahead, rfl, rfl⟩ |
      ⟨stmt, semi, rest, v, w₁, more, hnext, hahead, inside, ends, hstmt, hafter, hmore, rfl⟩
    · rw [hahead]
      exact ⟨[], .nil, rfl, rfl⟩
    · obtain ⟨stmts, hterm, heach, hnonempty⟩ := ih hnext hmore
      rw [hafter] at hterm
      rw [hahead]
      refine ⟨stmt :: stmts, .cons inside ends hterm, ?_, ?_⟩
      · rw [evalEach, on_bind_ok hstmt, on_bind_ok heach, map_value_resultsFrom]
        rfl
      · unfold resultsFrom
        cases hempty : stmt.isEmpty <;> simp [hempty, hnonempty]

theorem run_evalSource {source : Bytes} {tokens : List Token} (h : lex source = .ok tokens)
    (w : World σ) :
    (ev.evalSource source).run w =
      let run := (ev.evalStatements (.ofList tokens)).run w
      ((run.1.1, run.1.2.map .evaluation), run.2) := by
  unfold evalSource
  rw [h]
  rfl

end

/-! ## Reading again -/

variable {ev : Evaluator Host}

theorem evalEach_repeats (hev : ev.IsStandard) {stmts stmts' : List Statement}
    (h : List.Forall₂ (List.Forall₂ Token.Agrees) stmts stmts') :
    Repeats World.Agrees (ev.evalEach stmts) (ev.evalEach stmts') := by
  induction h with
  | nil =>
    rw [evalEach]
    exact .pure []
  | @cons stmt stmt' stmts stmts' hstmt hrest ih =>
    have hempty : stmt.isEmpty = stmt'.isEmpty := by cases hstmt <;> rfl
    rw [evalEach, evalEach, hempty]
    refine (evalStatement_repeats hev hstmt).bind fun v => ?_
    exact ih.bind fun vs => .pure _

/-- A source that is run without an error is read as tokens that are cut into statements. -/
theorem evalEach_of_evalSource {source : Bytes} {w w' : World Host} {results : List Result}
    (h : (ev.evalSource source).run w = ((results, none), w')) :
    ∃ tokens stmts, lex source = .ok tokens ∧ Terminated tokens stmts ∧
      on (ev.evalEach stmts) w = (.ok (results.map Result.value), w') ∧
      (ev.evalStatements (.ofList tokens)).run w = ((results, none), w') ∧
      results.map Result.statement = stmts.filter fun stmt => !stmt.isEmpty := by
  cases hlex : lex source with
  | error e =>
    unfold evalSource at h
    rw [hlex] at h
    cases h
  | ok tokens =>
    rw [ev.run_evalSource hlex] at h
    cases hrun : (ev.evalStatements (.ofList tokens)).run w with
    | mk out w₁ =>
      obtain ⟨more, error⟩ := out
      rw [hrun] at h
      obtain ⟨hout, rfl⟩ := Prod.mk.inj h
      obtain ⟨rfl, herror⟩ := Prod.mk.inj hout
      obtain rfl := Option.map_eq_none_iff.1 herror
      obtain ⟨stmts, hterm, heach, hstmts⟩ := ev.evalEach_of_run hrun
      exact ⟨tokens, stmts, rfl, hterm, heach, hrun, hstmts⟩

/-- **Statements read again are run as before.** If a list of statements has values, then any source
that is read as these statements has the same values and leaves an agreeing world. -/
theorem evalSource_of_reads (hev : ev.IsStandard) {source : Bytes} {tokens : List Token}
    (hs : Reads source tokens) {stmts : List Statement} (ht : Terminated tokens stmts)
    {w w' u : World Host} {vs : List Value} (h : on (ev.evalEach stmts) w = (.ok vs, w'))
    (hu : w.Agrees u) :
    ∃ results u', (ev.evalSource source).run u = ((results, none), u') ∧
      results.map Result.value = vs ∧ w'.Agrees u' := by
  obtain ⟨tokens', hlex, hagrees⟩ := hs
  obtain ⟨stmts', ht', hstmts⟩ := ht.of_agrees (agrees_symm hagrees)
  obtain ⟨u', hu', hw'⟩ := evalEach_repeats hev hstmts w u hu vs w' h
  obtain ⟨results, hrun, hvalues⟩ := ev.run_of_evalEach ht' [] hu'
  refine ⟨results, u', ?_, hvalues, hw'⟩
  rw [ev.run_evalSource hlex, Cursor.ofList, hrun]
  rfl

end Evaluator

end ChartScript
