import ChartScript.Proofs.Eval.Ways
import ChartScript.Proofs.Grammar.Faults
import ChartScript.Proofs.Grammar.Origin

/-!
# Within the tokens

Whatever the tokens are, an evaluator stays within them: `Within` lists what that means for cutting
statements, for each reader and for the three ways to run tokens. A step beyond the end would be
found in what comes of it, as a leaf of a tree or as the error of a run, and none is.

That every run comes to an end has one reason: each token is stepped over once. A reader that
returns a tree has taken tokens, and a run makes no more calls, and takes no more statements, than
it uses up tokens.
-/

set_option autoImplicit false

namespace ChartScript

open Step

variable {σ α : Type}

/-! ## Cutting statements and reading trees -/

/-- How the next statement is cut: it ends at the first terminator, and if there is none it takes
all tokens and breaks off. -/
inductive Cursor.Cut (c : Cursor) : Except Fault Statement × Cursor → Prop where
  | ended (stmt : Statement) (semi : Token) (rest : List Token)
      (inside : ∀ tk ∈ stmt, tk.kind ≠ .semicolon) (ends : semi.kind = .semicolon)
      (split : c.ahead = stmt ++ semi :: rest) :
      Cursor.Cut c (.ok stmt, ⟨semi :: (stmt.reverse ++ c.seen), rest⟩)
  | unended (e : SyntaxError) (inside : ∀ tk ∈ c.ahead, tk.kind ≠ .semicolon)
      (short : e.isEnd = true) :
      Cursor.Cut c (.error (.malformed e), ⟨c.ahead.reverse ++ c.seen, []⟩)

theorem Cursor.cut_segment (c : Cursor) : c.Cut (c.segment []) := by
  obtain ⟨seen, ahead⟩ := c
  induction ahead using cut_induction with
  | unended tail htail =>
    rw [segment_unended htail]
    exact .unended _ htail rfl
  | ended stmt semi rest inside ends ih =>
    rw [segment_terminated inside ends]
    exact .ended stmt semi rest inside ends rfl

/-- What comes of reading a tree: at least one token was taken, or the tree breaks off. Where it
breaks off, a token was missing or in the wrong place, and none was taken beyond the end. -/
def Cursor.Yields (c : Cursor) : Except Expr (Expr × Cursor) → Prop
  | .error cut => ∀ f ∈ cut.faults, f.isPastEnd = false
  | .ok (tree, c') =>
    (∃ used, used ≠ [] ∧ c.ahead = used ++ c'.ahead) ∧ ∀ f ∈ tree.faults, f.isPastEnd = false

theorem Expr.Origin.yields {before : List Token} {c : Cursor} {r : Reading Expr Expr c}
    (h : Origin Expr.ReadFrom before c (plain r)) : c.Yields (plain r) := by
  rcases h.cases with ⟨cut, hr, hcut⟩ | ⟨tree, c', used, hr, hc, htree⟩
  · rw [hr]
    exact hcut.faults
  · have hlt := plain_forward hr
    rw [hr]
    refine ⟨⟨used, ?_, hc⟩, htree.faults⟩
    rintro rfl
    rw [Cursor.remaining, Cursor.remaining, hc] at hlt
    exact absurd hlt (Nat.lt_irrefl _)

theorem Statement.faults_within (stmt : Statement) :
    ∀ f ∈ stmt.parse.faults, f.isPastEnd = false := by
  obtain ⟨used, rest, -, htree⟩ := stmt.parse_readFrom
  intro f hf
  rw [Parsed.faults, List.mem_append] at hf
  rcases hf with hf | hf
  · exact htree.faults f hf
  · cases htrailing : stmt.parse.trailing with
    | none =>
      rw [htrailing] at hf
      cases hf
    | some tk =>
      rw [htrailing] at hf
      obtain rfl := List.mem_singleton.1 hf
      rfl

/-! ## Running tokens -/

/-- Whether an error is a step beyond the end. -/
def EvalError.isPastEnd : EvalError → Bool
  | .fault f => f.isPastEnd
  | _ => false

namespace Evaluator

variable (ev : Evaluator σ)

/-- A run that ends, not beyond the end, with no more calls than the tokens it was given. -/
structure Spends (tokens : Nat) (x : Eval σ α) : Prop where
  within : ∀ w e w', on x w = (.error e, w') → e.isPastEnd = false
  calls : ∀ w, (on x w).2.calls.length ≤ w.calls.length + tokens

theorem evalStatement_spends (stmt : Statement) :
    Spends stmt.length (ev.evalStatement stmt) := by
  by_cases hne : stmt = []
  · subst hne
    refine ⟨fun w e w' h => ?_, fun w => ?_⟩
    · rw [on_evalStatement_nil] at h
      cases h
    · rw [on_evalStatement_nil]
      exact Nat.le_add_right _ _
  refine ⟨fun w e w' h => ?_, fun w => ?_⟩
  · cases e with
    | fault f => exact stmt.faults_within f (evalStatement_raisesOnly ev hne w f w' h)
    | _ => rfl
  · have hcalls := (ev.evalExpr_visits stmt.parse.tree w).calls_le
    have hsites := Nat.add_le_add_left stmt.sites_length w.calls.length
    have hexpr := Nat.le_trans hcalls hsites
    have hends := ev.statement_ends hne w
    generalize on (ev.evalStatement stmt) w = out at hends ⊢
    cases hends with
    | failed tree => rwa [tree] at hexpr
    | trailing tree behind =>
      rw [tree] at hexpr
      dsimp only
      rwa [calls_afterFault]
    | completed tree behind =>
      rw [tree] at hexpr
      dsimp only
      rwa [recorded, World.calls_log]

/-- A statement spends the tokens up to the cursor behind it. -/
theorem parseStatement_spends (c : Cursor) :
    Spends (c.remaining - c.afterStatement.remaining) (ev.parseStatement c) := by
  have hcut := c.cut_segment
  unfold Cursor.afterStatement
  generalize hseg : c.segment [] = segment at hcut
  cases hcut with
  | ended stmt semi rest inside ends split =>
    have hspends := ev.evalStatement_spends stmt
    have hlength : stmt.length ≤ c.remaining - rest.length := by
      rw [Cursor.remaining, split, List.length_append, List.length_cons]
      omega
    refine ⟨fun w e w' h => ?_, fun w => ?_⟩
    · rw [on_parseStatement, hseg] at h
      exact hspends.within w e w' h
    · rw [on_parseStatement, hseg]
      exact Nat.le_trans (hspends.calls w) (Nat.add_le_add_left hlength _)
  | unended e inside short =>
    refine ⟨fun w e w' h => ?_, fun w => ?_⟩
    · rw [on_parseStatement, hseg] at h
      cases h
      rfl
    · rw [on_parseStatement, hseg]
      dsimp only
      rw [calls_afterFault]
      exact Nat.le_add_right _ _

/-- How a run of all statements ends from `c` and `w`: where a number of statements have been taken,
with no token left or with an error. For every statement and for every call a token was used up. -/
structure Finishes (c : Cursor) (w : World σ) (run : (Option EvalError × Cursor) × World σ) :
    Prop where
  within : ∀ e, run.1.1 = some e → e.isPastEnd = false
  complete : run.1.1 = none → run.1.2.ahead = []
  statements : ∃ n, run.1.2 = Cursor.afterStatement^[n] c ∧ n + run.1.2.remaining ≤ c.remaining
  calls : run.2.calls.length + run.1.2.remaining ≤ w.calls.length + c.remaining

theorem parseAll_finishes (c : Cursor) (w : World σ) :
    Finishes c w ((ev.parseAll c).run w) := by
  induction c using Cursor.statement_induction generalizing w with
  | h c ih =>
    rw [run_parseAll]
    by_cases hnext : c.hasNext = true
    · have hspends := ev.parseStatement_spends c
      have hforward := Cursor.afterStatement_remaining hnext
      have hcalls := hspends.calls w
      rw [if_pos hnext]
      cases hr : on (ev.parseStatement c) w with
      | mk answer w' =>
        rw [hr] at hcalls
        cases answer with
        | error e =>
          refine ⟨?_, nofun, ⟨1, rfl, ?_⟩, ?_⟩
          · rintro _ ⟨⟩
            exact hspends.within w e w' hr
          · exact Nat.add_comm 1 _ ▸ hforward
          · dsimp only at hcalls ⊢
            omega
        | ok v =>
          obtain ⟨hwithin, hcomplete, ⟨n, hend, hn⟩, hmore⟩ := ih hnext w'
          refine ⟨hwithin, hcomplete, ⟨n + 1, hend, ?_⟩, ?_⟩
          · dsimp only at hn ⊢
            omega
          · dsimp only at hmore hcalls ⊢
            omega
    · rw [if_neg hnext]
      have hahead : c.ahead = [] := by
        rw [Bool.not_eq_true, Cursor.hasNext, Bool.not_eq_false', List.isEmpty_iff] at hnext
        exact hnext
      refine ⟨?_, fun _ => hahead, ⟨0, rfl, ?_⟩, ?_⟩
      · rintro _ ⟨⟩
      · exact Nat.le_of_eq (Nat.zero_add _)
      · exact Nat.le_refl _

/-- What it means to stay within the tokens, for each of the ways to use an evaluator. -/
structure Within : Prop where
  segment : ∀ c : Cursor, c.Cut (c.segment [])
  expression : ∀ c : Cursor, c.Yields (Expr.plain (Expr.readExpression c))
  term : ∀ c : Cursor, c.Yields (Expr.plain (Expr.readTerm c))
  primary : ∀ c : Cursor, c.Yields (Expr.plain (Expr.readPrimary c))
  call : ∀ (fn : Grammar.TokenOf .func) (c : Cursor),
    c.Yields (Expr.plain (Expr.readCall fn.val c))
  statement : ∀ stmt : Statement, ∀ f ∈ stmt.parse.faults, f.isPastEnd = false
  evalStatement : ∀ stmt : Statement, Spends stmt.length (ev.evalStatement stmt)
  parseStatement : ∀ c : Cursor,
    Spends (c.remaining - c.afterStatement.remaining) (ev.parseStatement c)
  parseAll : ∀ c w, Finishes c w ((ev.parseAll c).run w)

/-- **Every evaluator stays within the tokens**, whatever they are and whoever answers calls. -/
theorem stays_within : ev.Within where
  segment := Cursor.cut_segment
  expression c := (Expr.readExpression_origin c).yields
  term c := (Expr.readTerm_origin c).yields
  primary c := (Expr.readPrimary_origin c).yields
  call fn c := (Expr.readCall_origin fn.property c).yields
  statement := Statement.faults_within
  evalStatement := ev.evalStatement_spends
  parseStatement := ev.parseStatement_spends
  parseAll := ev.parseAll_finishes

end Evaluator
end ChartScript
