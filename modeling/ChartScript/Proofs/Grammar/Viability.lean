import ChartScript.Proofs.Grammar.Soundness

/-!
# How far a reader gets

Tokens are *viable* if they begin a statement of the grammar. A reader goes from left to right and
never looks further than one token ahead, so there are three ways for it to end (`Headway`): it
reads a tree and the next token tells it to stop; the tokens end while they are still viable; or it
is stuck at a token, whatever stands behind that. Where it is stuck, what stands before is viable.

Each reader is shown to end in one of these ways. Readers are put together from each other, and so
are the proofs, by `Headway.andThen`.
-/

set_option autoImplicit false

namespace ChartScript

/-! ## Faults of a tree -/

mutual

/-- The places where a tree breaks off, from left to right. -/
def Expr.faults : Expr → List Fault
  | .literal _ | .symbol _ => []
  | .assign _ rhs => rhs.faults
  | .binary _ left right => left.faults ++ right.faults
  | .call _ args => args.faults
  | .fault f => [f]

def Args.faults : Args → List Fault
  | .nil => []
  | .cons arg rest => arg.faults ++ rest.faults

end

namespace Grammar

open ChartScript.Expr

mutual

@[simp] theorem Primary.faults_toExpr {p : Place} : (t : Primary p) → t.toExpr.faults = []
  | .literal tk => by simp [Primary.toExpr, Expr.faults]
  | .symbol tk => by simp [Primary.toExpr, Expr.faults]
  | .assign tk sign rhs => by simp [Primary.toExpr, Expr.faults, rhs.faults_toExpr]
  | .call fn left args right => by simp [Primary.toExpr, Expr.faults, args.faults_toArgs]

@[simp] theorem Term.faults_toExpr {p : Place} : (t : Term p) → t.toExpr.faults = []
  | .single operand => by simp [Term.toExpr, operand.faults_toExpr]
  | .binary left op right => by
    simp [Term.toExpr, Expr.faults, left.faults_toExpr, right.faults_toExpr]

@[simp] theorem Expression.faults_toExpr {p : Place} : (e : Expression p) → e.toExpr.faults = []
  | .single term => by simp [Expression.toExpr, term.faults_toExpr]
  | .binary left op right => by
    simp [Expression.toExpr, Expr.faults, left.faults_toExpr, right.faults_toExpr]

theorem Arguments.faults_toArgs : (args : Arguments) → args.toArgs.faults = []
  | .none => by simp [Arguments.toArgs, Args.faults]
  | .some items => by simp [Arguments.toArgs, items.faults_toArgs]

theorem Items.faults_toArgs : (items : Items) → items.toArgs.faults = []
  | .one arg => by simp [Items.toArgs, Args.faults, arg.faults_toExpr]
  | .more arg comma rest => by
    simp [Items.toArgs, Args.faults, arg.faults_toExpr, rest.faults_toArgs]

end

/-! ## Viable tokens -/

/-- The tokens begin a list of which `sentence` holds. -/
def Begins (sentence : List Token → Prop) (tokens : List Token) : Prop :=
  ∃ rest, sentence (tokens ++ rest)

def IsPrimary (tokens : List Token) : Prop := ∃ (p : Place) (t : Primary p), t.tokens = tokens

def IsTerm (tokens : List Token) : Prop := ∃ (p : Place) (t : Term p), t.tokens = tokens

def IsExpression (tokens : List Token) : Prop := ∃ t : Expression .last, t.tokens = tokens

/-- What stands behind a function's name. -/
def IsCall (tokens : List Token) : Prop :=
  ∃ (left : TokenOf .leftParen) (args : Arguments) (right : TokenOf .rightParen),
    left.val :: (args.tokens ++ [right.val]) = tokens

/-- Arguments and what closes them. -/
def IsClosed (tokens : List Token) : Prop :=
  ∃ (items : Items) (right : TokenOf .rightParen), items.tokens ++ [right.val] = tokens

/-- The tokens begin a statement. -/
def Viable (tokens : List Token) : Prop := Begins IsExpression tokens

theorem Begins.mono {s s' : List Token → Prop} {front tokens : List Token}
    (h : ∀ whole, s whole → s' (front ++ whole)) (hb : Begins s tokens) :
    Begins s' (front ++ tokens) := by
  obtain ⟨rest, hs⟩ := hb
  exact ⟨rest, by rw [List.append_assoc]; exact h _ hs⟩

/-- A token to complete a statement with. -/
def zero : LiteralToken := ⟨⟨.int, "0", .integer 0, .none⟩, rfl⟩

/-- Tokens to complete a call with. -/
def opening : TokenOf .leftParen := ⟨⟨.leftParen, "(", .nil, .none⟩, rfl⟩

def closing : TokenOf .rightParen := ⟨⟨.rightParen, ")", .nil, .none⟩, rfl⟩

theorem begins_primary_nil : Begins IsPrimary [] :=
  ⟨[zero.val], .inner, .literal zero, by simp [Primary.tokens]⟩

theorem IsPrimary.isTerm {tokens : List Token} (h : IsPrimary tokens) : IsTerm tokens := by
  obtain ⟨p, t, rfl⟩ := h
  exact ⟨p, .single t, by rw [Term.tokens]⟩

theorem IsTerm.isExpression {tokens : List Token} (h : IsTerm tokens) : IsExpression tokens := by
  obtain ⟨p, t, rfl⟩ := h
  exact ⟨.single t.toLast, by rw [Expression.tokens, Term.tokens_toLast]⟩

theorem begins_expression_nil : Begins IsExpression [] := by
  obtain ⟨rest, h⟩ := begins_primary_nil
  exact ⟨rest, h.isTerm.isExpression⟩

theorem IsExpression.isClosed {tokens : List Token} (h : IsExpression tokens) :
    IsClosed (tokens ++ [closing.val]) := by
  obtain ⟨t, rfl⟩ := h
  exact ⟨.one t, closing, by rw [Items.tokens]⟩

theorem Begins.isClosed {tokens : List Token} (h : Begins IsExpression tokens) :
    Begins IsClosed tokens := by
  obtain ⟨rest, ht⟩ := h
  exact ⟨rest ++ [closing.val], by rw [← List.append_assoc]; exact ht.isClosed⟩

theorem isCall_empty (left : TokenOf .leftParen) (right : TokenOf .rightParen) :
    IsCall [left.val, right.val] :=
  ⟨left, .none, right, by simp [Arguments.tokens]⟩

theorem IsClosed.isCall {tokens : List Token} (left : TokenOf .leftParen) (h : IsClosed tokens) :
    IsCall (left.val :: tokens) := by
  obtain ⟨items, right, rfl⟩ := h
  exact ⟨left, .some items, right, by rw [Arguments.tokens]⟩

theorem IsCall.isPrimary {tokens : List Token} (fn : TokenOf .func) (h : IsCall tokens) :
    IsPrimary (fn.val :: tokens) := by
  obtain ⟨left, args, right, rfl⟩ := h
  exact ⟨.inner, .call fn left args right, by rw [Primary.tokens]⟩

theorem IsExpression.isPrimary {tokens : List Token} (tk : TokenOf .symbol)
    (sign : TokenOf .assign) (h : IsExpression tokens) :
    IsPrimary (tk.val :: sign.val :: tokens) := by
  obtain ⟨rhs, rfl⟩ := h
  exact ⟨.last, .assign tk sign rhs, by rw [Primary.tokens]⟩

theorem IsPrimary.isTerm_binary {tokens : List Token} (left : Term .inner)
    (op : MultiplicativeToken) (h : IsPrimary tokens) :
    IsTerm (left.tokens ++ op.val :: tokens) := by
  obtain ⟨p, t, rfl⟩ := h
  exact ⟨p, .binary left op t, by rw [Term.tokens]⟩

theorem IsTerm.isExpression_binary {tokens : List Token} (left : Expression .inner)
    (op : AdditiveToken) (h : IsTerm tokens) :
    IsExpression (left.tokens ++ op.val :: tokens) := by
  obtain ⟨p, t, rfl⟩ := h
  exact ⟨.binary left op t.toLast, by rw [Expression.tokens, Term.tokens_toLast]⟩

/-! ## What is reported -/

/-- The token that is reported where a reader is stuck: the one that cannot stand there, but in
place of a `)` right behind a comma the comma. -/
def offender (before : Option Token) (tk : Token) : Token :=
  match before with
  | some sep => if sep.kind = .comma ∧ tk.kind = .rightParen then sep else tk
  | none => tk

/-- A fault other than the end of input that names a token, or its place. -/
def Reports : Fault → Token → Prop
  | .malformed e, tk => e.isEnd = false ∧ e.pos = tk.pos
  | .unsupportedPrimary tk', tk => tk' = tk
  | .pastEnd _, _ => False

/-- What is ahead is not a `)` right behind a comma. -/
def Opens (c : Cursor) : Prop :=
  ∀ sep ∈ c.seen.head?, ∀ tk ∈ c.ahead.head?, ¬ (sep.kind = .comma ∧ tk.kind = .rightParen)

theorem Opens.offender {c : Cursor} {tk : Token} (h : Opens c) (htk : c.ahead.head? = some tk) :
    offender c.seen.head? tk = tk := by
  unfold Grammar.offender
  split
  · next sep hsep => rw [if_neg (h sep hsep tk htk)]
  · rfl

theorem opens_of_seen {sep : Token} (h : sep.kind ≠ .comma) (seen ahead : List Token) :
    Opens ⟨sep :: seen, ahead⟩ := by
  intro sep' hsep' tk _ hbad
  obtain rfl : sep = sep' := by simpa using hsep'
  exact h hbad.1

theorem opens_of_operator {sign : Token} (h : isOperator sign.kind = true)
    (seen ahead : List Token) : Opens ⟨sign :: seen, ahead⟩ := by
  refine opens_of_seen (fun hk => ?_) seen ahead
  rw [hk] at h
  cases h

theorem opens_of_ahead {tk : Token} (h : tk.kind ≠ .rightParen) (seen rest : List Token) :
    Opens ⟨seen, tk :: rest⟩ := by
  intro sep _ tk' htk' hbad
  obtain rfl : tk = tk' := by simpa using htk'
  exact h hbad.2

/-! ## Headway -/

abbrev Reader (Cut Tree : Type) : Type := Cursor → Except Cut (Tree × Cursor)

/-- Goes on behind what was read, or wraps the tree that breaks off. -/
def resume {Cut Cut' Tree Tree' : Type} (wrap : Cut' → Cut) (next : Tree' → Reader Cut Tree) :
    Except Cut' (Tree' × Cursor) → Except Cut (Tree × Cursor)
  | .error cut => .error (wrap cut)
  | .ok (tree, c) => next tree c

/-- The three ways in which a reader can end, and what is known then. -/
inductive Headway {Cut Tree : Type} (faults : Cut → List Fault) (viable : List Token → Prop)
    (read : Reader Cut Tree) (c : Cursor) : Prop where
  /-- A tree was read; of the rest only the next token counts. -/
  | done (used rest : List Token) (tree : Tree) (split : c.ahead = used ++ rest)
      (reads : ∀ rest', rest'.head? = rest.head? →
        read ⟨c.seen, used ++ rest'⟩ = .ok (tree, ⟨used.reverse ++ c.seen, rest'⟩))
  /-- The input ended behind its last token. -/
  | short (cut : Cut) (func : Bytes) (reads : read c = .error cut)
      (fault : faults cut = [endOfInput ⟨c.ahead.reverse ++ c.seen, []⟩ func])
      (begins : viable c.ahead)
  /-- The reader is stuck at `tk`; what stands behind `tk` does not count. -/
  | stuck (cut : Cut) (f : Fault) (before : List Token) (tk : Token) (after : List Token)
      (split : c.ahead = before ++ tk :: after)
      (reads : ∀ after', read ⟨c.seen, before ++ tk :: after'⟩ = .error cut)
      (fault : faults cut = [f])
      (reports : Reports f (offender (before.reverse ++ c.seen).head? tk))
      (begins : viable before)

namespace Headway

variable {Cut Cut' Tree Tree' : Type} {faults : Cut → List Fault} {faults' : Cut' → List Fault}
  {viable viable' : List Token → Prop} {read : Reader Cut Tree} {read' : Reader Cut' Tree'}

theorem head?_append_congr {a b : List Token} (used : List Token) (h : a.head? = b.head?) :
    (used ++ a).head? = (used ++ b).head? := by
  cases used with
  | nil => exact h
  | cons tk used => rfl

theorem head?_append_cons (used : List Token) (tk : Token) (a b : List Token) :
    (used ++ tk :: a).head? = (used ++ tk :: b).head? := by
  cases used <;> rfl

/-- Nothing is read at all. -/
theorem stop {c : Cursor} (tree : Tree)
    (h : ∀ rest', rest'.head? = c.ahead.head? →
      read ⟨c.seen, rest'⟩ = .ok (tree, ⟨c.seen, rest'⟩)) :
    Headway faults viable read c :=
  .done [] c.ahead tree rfl h

/-- Some tokens are taken before the reader goes on as another one. -/
theorem step {seen seen' rest : List Token} {next : Reader Cut Tree}
    (h : Headway faults viable' next ⟨seen', rest⟩) (front : List Token)
    (hseen : seen' = front.reverse ++ seen)
    (hread : ∀ rest', rest'.head? = rest.head? →
      read ⟨seen, front ++ rest'⟩ = next ⟨seen', rest'⟩)
    (hviable : ∀ tokens, viable' tokens → viable (front ++ tokens)) :
    Headway faults viable read ⟨seen, front ++ rest⟩ := by
  subst hseen
  cases h with
  | done used rest₂ tree split reads =>
    obtain rfl : rest = used ++ rest₂ := split
    refine .done (front ++ used) rest₂ tree (by simp) fun rest' hrest' => ?_
    rw [List.append_assoc, hread _ (head?_append_congr used hrest'), reads rest' hrest']
    simp
  | short cut func reads fault begins =>
    refine .short cut func ?_ ?_ (hviable _ begins)
    · rw [hread rest rfl]
      exact reads
    · simpa using fault
  | stuck cut f before tk after split reads fault reports begins =>
    obtain rfl : rest = before ++ tk :: after := split
    refine .stuck cut f (front ++ before) tk after (by simp) (fun after' => ?_) fault
      (by simpa using reports) (hviable _ begins)
    rw [List.append_assoc, hread _ (head?_append_cons before tk after' after), reads after']

/-- One reader after another. What the first one cuts off, the whole wraps into its own tree. -/
theorem andThen {c : Cursor} (h : Headway faults' viable' read' c) (wrap : Cut' → Cut)
    (next : Tree' → Reader Cut Tree)
    (hread : ∀ c', c'.seen = c.seen → c'.ahead.head? = c.ahead.head? →
      read c' = resume wrap next (read' c'))
    (hfaults : ∀ cut, faults (wrap cut) = faults' cut)
    (hviable : ∀ tokens, viable' tokens → viable tokens)
    (hnext : ∀ tree used rest, c.ahead = used ++ rest →
      read' c = .ok (tree, ⟨used.reverse ++ c.seen, rest⟩) →
      Headway faults (fun tokens => viable (used ++ tokens)) (next tree)
        ⟨used.reverse ++ c.seen, rest⟩) :
    Headway faults viable read c := by
  obtain ⟨seen, ahead⟩ := c
  cases h with
  | done used rest tree split reads =>
    obtain rfl : ahead = used ++ rest := split
    -- Behind the first tree, the whole is a step that takes the tokens of that tree.
    refine (hnext tree used rest rfl (reads rest rfl)).step used rfl (fun rest' hrest' => ?_)
      (fun _ h => h)
    rw [hread ⟨seen, used ++ rest'⟩ rfl (head?_append_congr used hrest'), reads rest' hrest',
      resume]
  | short cut func reads fault begins =>
    refine .short (wrap cut) func ?_ ((hfaults cut).trans fault) (hviable _ begins)
    rw [hread _ rfl rfl, reads, resume]
  | stuck cut f before tk after split reads fault reports begins =>
    obtain rfl : ahead = before ++ tk :: after := split
    refine .stuck (wrap cut) f before tk after rfl (fun after' => ?_)
      ((hfaults cut).trans fault) reports (hviable _ begins)
    rw [hread ⟨seen, before ++ tk :: after'⟩ rfl (head?_append_cons before tk after' after),
      reads after', resume]

/-- Some tokens are taken, then one reader goes after another. -/
theorem behind {seen seen' rest : List Token}
    (h : Headway faults' viable' read' ⟨seen', rest⟩) (front : List Token)
    (hseen : seen' = front.reverse ++ seen) (wrap : Cut' → Cut) (next : Tree' → Reader Cut Tree)
    (hread : ∀ rest', rest'.head? = rest.head? →
      read ⟨seen, front ++ rest'⟩ = resume wrap next (read' ⟨seen', rest'⟩))
    (hfaults : ∀ cut, faults (wrap cut) = faults' cut)
    (hviable : ∀ tokens, viable' tokens → viable (front ++ tokens))
    (hnext : ∀ tree used rest₂, rest = used ++ rest₂ →
      read' ⟨seen', rest⟩ = .ok (tree, ⟨used.reverse ++ seen', rest₂⟩) →
      Headway faults (fun tokens => viable (front ++ (used ++ tokens))) (next tree)
        ⟨used.reverse ++ seen', rest₂⟩) :
    Headway faults viable read ⟨seen, front ++ rest⟩ := by
  have hwhole : Headway faults (fun tokens => viable (front ++ tokens))
      (fun c => resume wrap next (read' c)) ⟨seen', rest⟩ :=
    h.andThen wrap next (fun _ _ _ => rfl) hfaults hviable hnext
  exact hwhole.step front hseen hread fun _ h => h

/-- Some tokens are taken, and what is read behind them is made part of a larger tree. -/
theorem inside {seen seen' rest : List Token}
    (h : Headway faults' viable' read' ⟨seen', rest⟩) (front : List Token)
    (hseen : seen' = front.reverse ++ seen) (wrap : Cut' → Cut) (make : Tree' → Tree)
    (hread : ∀ rest', rest'.head? = rest.head? → read ⟨seen, front ++ rest'⟩ =
      resume wrap (fun tree c => .ok (make tree, c)) (read' ⟨seen', rest'⟩))
    (hfaults : ∀ cut, faults (wrap cut) = faults' cut)
    (hviable : ∀ tokens, viable' tokens → viable (front ++ tokens)) :
    Headway faults viable read ⟨seen, front ++ rest⟩ := by
  refine h.behind front hseen wrap (fun tree c => .ok (make tree, c)) hread hfaults hviable ?_
  intro tree used rest₂ _ _
  exact stop (make tree) fun _ _ => rfl

end Headway

/-! ## The readers -/

/-- The tokens that a reader has passed are those of the tree it returns. -/
theorem eq_of_split {ahead used tokens rest : List Token} (h : ahead = used ++ rest)
    (h' : ahead = tokens ++ rest) : used = tokens :=
  List.append_cancel_right (h.symm.trans h')

/-- Behind an argument. Further arguments are read from any cursor further on. -/
theorem afterArgument_headway (fn : Token) (arg : Expression .last) (seen ahead : List Token)
    (ih : ∀ c, c.ahead.length < ahead.length → Opens c →
      Headway Args.faults (Begins IsClosed) (fun c => plain (readArguments fn c)) c) :
    Headway Args.faults (fun tokens => Begins IsClosed (arg.tokens ++ tokens))
      (afterArgument fn arg.toExpr) ⟨seen, ahead⟩ := by
  have hends : Begins IsClosed (arg.tokens ++ []) := by
    refine Begins.isClosed ⟨[], arg, by simp⟩
  have hgoes : ∀ (sep : TokenOf .comma) (tokens : List Token), Begins IsClosed tokens →
      Begins IsClosed (arg.tokens ++ ([sep.val] ++ tokens)) := by
    intro sep tokens h
    rw [← List.append_assoc]
    refine Begins.mono ?_ h
    rintro whole ⟨items, right, rfl⟩
    exact ⟨.more arg sep items, right, by simp [Items.tokens]⟩
  cases ahead with
  | nil =>
    refine .short (.cons arg.toExpr (cutAt (endOfInput ⟨seen, []⟩ fn.lexeme))) fn.lexeme rfl ?_
      hends
    simp [Args.faults, cutAt, Expr.faults]
  | cons sep rest =>
    by_cases hclose : sep.kind = .rightParen
    · refine .done [sep] rest (.cons arg.toExpr .nil) rfl fun rest' _ => ?_
      simp [afterArgument, hclose]
    by_cases hsep : sep.kind = .comma
    · cases rest with
      | nil =>
        refine .short (.cons arg.toExpr (cutAt (endOfInput ⟨sep :: seen, []⟩ fn.lexeme))) fn.lexeme
          ?_ ?_ ?_
        · simp [afterArgument, hsep]
        · simp [Args.faults, cutAt, Expr.faults]
        · exact hgoes ⟨sep, hsep⟩ [] begins_expression_nil.isClosed
      | cons tk more =>
        by_cases hk : tk.kind = .rightParen
        · refine .stuck (.cons arg.toExpr
              (cutAt (.malformed ⟨sep.pos, .unexpectedComma, fn.lexeme⟩)))
            (.malformed ⟨sep.pos, .unexpectedComma, fn.lexeme⟩) [sep] tk more rfl
            (fun after' => ?_) ?_ ?_ ?_
          · simp [afterArgument, hsep, hk]
          · simp [Args.faults, cutAt, Expr.faults]
          · simp [Reports, offender, hsep, hk, SyntaxError.isEnd]
          · exact hgoes ⟨sep, hsep⟩ [] begins_expression_nil.isClosed
        · have hargs := ih ⟨sep :: seen, tk :: more⟩ (by simp) (opens_of_ahead hk _ _)
          refine hargs.inside [sep] rfl (.cons arg.toExpr) (.cons arg.toExpr)
            (fun rest' hrest' => ?_) (fun cut => ?_) (hgoes ⟨sep, hsep⟩)
          · cases rest' with
            | nil => cases hrest'
            | cons tk' more' =>
              obtain rfl : tk' = tk := by simpa using hrest'
              simp only [List.cons_append, List.nil_append, afterArgument, hsep, hk,
                reduceCtorEq, if_true, if_false]
              cases plain (readArguments fn ⟨sep :: seen, tk' :: more'⟩) <;> rfl
          · simp [Args.faults]
    · refine .stuck (.cons arg.toExpr (cutAt (.malformed ⟨sep.pos, .noSeparator, fn.lexeme⟩)))
        (.malformed ⟨sep.pos, .noSeparator, fn.lexeme⟩) [] sep rest rfl (fun after' => ?_) ?_ ?_
        hends
      · simp [afterArgument, hclose, hsep]
      · simp [Args.faults, cutAt, Expr.faults]
      · rw [List.reverse_nil, List.nil_append, (opens_of_ahead hclose seen rest).offender rfl]
        exact ⟨rfl, rfl⟩

-- As for soundness, the second number orders the readers that call each other without taking a
-- token.
mutual

theorem readExpression_headway (c : Cursor) (ho : Opens c) :
    Headway Expr.faults (Begins IsExpression) (fun c => plain (readExpression c)) c := by
  refine (readTerm_headway c ho).andThen id (fun left c => plain (readExpressionTail left c))
    (fun c' _ _ => ?_) (fun _ => rfl) (fun _ h => h.imp fun _ => IsTerm.isExpression) ?_
  · rw [plain_readExpression]
    cases plain (readTerm c') <;> rfl
  · intro tree used rest hsplit hread
    have hs := readTerm_sound c
    rw [hread] at hs
    obtain ⟨p, t, rfl, heq, he, -⟩ := hs
    obtain rfl := eq_of_split hsplit heq
    have hlt := remaining_lt heq t.startsOperand.ne_nil
    have htail := readExpressionTail_headway (.single t) ⟨t.tokens.reverse ++ c.seen, rest⟩ he
    rwa [Expression.tokens, Expression.toExpr] at htail
termination_by (c.ahead.length, 3)

theorem readExpressionTail_headway {p : Place} (left : Expression p) (c : Cursor)
    (he : Ends p c.ahead) :
    Headway Expr.faults (fun tokens => Begins IsExpression (left.tokens ++ tokens))
      (fun c => plain (readExpressionTail left.toExpr c)) c := by
  cases ha : additive? c.ahead.head? with
  | none => exact .stop left.toExpr fun rest' h => plain_readExpressionTail_stop _ (h ▸ ha)
  | some op =>
    obtain ⟨sign, rest, hc, rfl⟩ := exists_additive ha
    rw [hc] at he
    obtain rfl := he.inner_of_operator (additive_isOperator sign)
    have hlt : rest.length < c.ahead.length := by simp [hc]
    rw [cursor_eq hc]
    have hterm := readTerm_headway ⟨sign.val :: c.seen, rest⟩
      (opens_of_operator (additive_isOperator sign) _ _)
    refine hterm.behind [sign.val] rfl
      (.binary (additiveOperator sign) left.toExpr)
      (fun right c =>
        plain (readExpressionTail (.binary (additiveOperator sign) left.toExpr right) c))
      (fun rest' _ => ?_) (fun cut => ?_) (fun tokens h => ?_) ?_
    · rw [List.singleton_append, plain_readExpressionTail_go _ (additive?_val sign)]
      cases plain (readTerm ⟨sign.val :: c.seen, rest'⟩) <;> rfl
    · simp [Expr.faults]
    · rw [← List.append_assoc]
      refine h.mono fun whole hw => ?_
      simpa using hw.isExpression_binary left sign
    · intro tree used rest₂ hsplit hread
      have hs := readTerm_sound ⟨sign.val :: c.seen, rest⟩
      rw [hread] at hs
      obtain ⟨p', t, rfl, heq, he', -⟩ := hs
      obtain rfl := eq_of_split hsplit heq
      have hlt' := Nat.lt_trans (remaining_lt heq t.startsOperand.ne_nil) hlt
      have htail := readExpressionTail_headway (.binary left sign t)
        ⟨t.tokens.reverse ++ (sign.val :: c.seen), rest₂⟩ he'
      rw [Expression.tokens, Expression.toExpr] at htail
      simpa using htail
termination_by (c.ahead.length, 0)

theorem readTerm_headway (c : Cursor) (ho : Opens c) :
    Headway Expr.faults (Begins IsTerm) (fun c => plain (readTerm c)) c := by
  refine (readPrimary_headway c ho).andThen id (fun left c => plain (readTermTail left c))
    (fun c' _ _ => ?_) (fun _ => rfl) (fun _ h => h.imp fun _ => IsPrimary.isTerm) ?_
  · rw [plain_readTerm]
    cases plain (readPrimary c') <;> rfl
  · intro tree used rest hsplit hread
    have hs := readPrimary_sound c
    rw [hread] at hs
    obtain ⟨p, t, rfl, heq, he⟩ := hs
    obtain rfl := eq_of_split hsplit heq
    have hlt := remaining_lt heq t.startsOperand.ne_nil
    have htail := readTermTail_headway (.single t) ⟨t.tokens.reverse ++ c.seen, rest⟩ he
    rwa [Term.tokens, Term.toExpr] at htail
termination_by (c.ahead.length, 2)

theorem readTermTail_headway {p : Place} (left : Term p) (c : Cursor) (he : Ends p c.ahead) :
    Headway Expr.faults (fun tokens => Begins IsTerm (left.tokens ++ tokens))
      (fun c => plain (readTermTail left.toExpr c)) c := by
  cases hm : multiplicative? c.ahead.head? with
  | none => exact .stop left.toExpr fun rest' h => plain_readTermTail_stop _ (h ▸ hm)
  | some op =>
    obtain ⟨sign, rest, hc, rfl⟩ := exists_multiplicative hm
    rw [hc] at he
    obtain rfl := he.inner_of_operator (multiplicative_isOperator sign)
    have hlt : rest.length < c.ahead.length := by simp [hc]
    rw [cursor_eq hc]
    have hoperand := readPrimary_headway ⟨sign.val :: c.seen, rest⟩
      (opens_of_operator (multiplicative_isOperator sign) _ _)
    refine hoperand.behind [sign.val] rfl
      (.binary (multiplicativeOperator sign) left.toExpr)
      (fun right c =>
        plain (readTermTail (.binary (multiplicativeOperator sign) left.toExpr right) c))
      (fun rest' _ => ?_) (fun cut => ?_) (fun tokens h => ?_) ?_
    · rw [List.singleton_append, plain_readTermTail_go _ (multiplicative?_val sign)]
      cases plain (readPrimary ⟨sign.val :: c.seen, rest'⟩) <;> rfl
    · simp [Expr.faults]
    · rw [← List.append_assoc]
      refine h.mono fun whole hw => ?_
      simpa using hw.isTerm_binary left sign
    · intro tree used rest₂ hsplit hread
      have hs := readPrimary_sound ⟨sign.val :: c.seen, rest⟩
      rw [hread] at hs
      obtain ⟨p', t, rfl, heq, he'⟩ := hs
      obtain rfl := eq_of_split hsplit heq
      have hlt' := Nat.lt_trans (remaining_lt heq t.startsOperand.ne_nil) hlt
      have htail := readTermTail_headway (.binary left sign t)
        ⟨t.tokens.reverse ++ (sign.val :: c.seen), rest₂⟩ he'
      rw [Term.tokens, Term.toExpr] at htail
      simpa using htail
termination_by (c.ahead.length, 0)

theorem readPrimary_headway (c : Cursor) (ho : Opens c) :
    Headway Expr.faults (Begins IsPrimary) (fun c => plain (readPrimary c)) c := by
  cases hc : c.ahead with
  | nil =>
    rw [cursor_eq hc]
    refine .short _ [] (plain_readPrimary_nil c.seen) ?_ begins_primary_nil
    simp [Expr.faults]
  | cons tk rest =>
    have hlt : rest.length < c.ahead.length := by simp [hc]
    cases hk : tk.kind with
    | int | real | string =>
      rw [cursor_eq hc]
      have hl : tk.kind.isLiteral = true := by rw [hk]; rfl
      exact .done [tk] rest _ rfl fun rest' _ => plain_readPrimary_literal hl c.seen rest'
    | symbol =>
      rw [cursor_eq hc]
      by_cases ha : rest.head?.map Token.kind = some .assign
      · obtain ⟨sign, more, rfl, hs⟩ := exists_head ha
        have hlt' : more.length < c.ahead.length := by
          simp only [hc, List.length_cons]
          omega
        have hrhs := readExpression_headway ⟨sign :: tk :: c.seen, more⟩
          (opens_of_seen (by simp [hs]) _ _)
        refine hrhs.inside [tk, sign] rfl (.assign tk) (.assign tk)
          (fun rest' _ => ?_) (fun cut => ?_) (fun tokens h => ?_)
        · rw [List.cons_append, List.singleton_append, plain_readPrimary_assign hk hs]
          cases plain (readExpression ⟨sign :: tk :: c.seen, rest'⟩) <;> rfl
        · simp [Expr.faults]
        · exact h.mono fun whole hw => hw.isPrimary ⟨tk, hk⟩ ⟨sign, hs⟩
      · refine .done [tk] rest (.symbol tk) rfl fun rest' hrest' => ?_
        exact plain_readPrimary_symbol hk c.seen rest' (hrest' ▸ ha)
    | func =>
      rw [cursor_eq hc]
      have hcall := readCall_headway ⟨tk, hk⟩ ⟨tk :: c.seen, rest⟩
        (opens_of_seen (by simp [hk]) _ _)
      refine hcall.step [tk] rfl (fun rest' _ => ?_) (fun tokens h => ?_)
      · exact plain_readPrimary_func hk c.seen rest'
      · exact h.mono fun whole hw => hw.isPrimary ⟨tk, hk⟩
    | _ =>
      have hother : isOperandStart tk.kind = false := by rw [hk]; rfl
      refine .stuck _ (.unsupportedPrimary tk) [] tk rest hc
        (fun after' => plain_readPrimary_other hother c.seen after') ?_ ?_ begins_primary_nil
      · simp [Expr.faults]
      · exact (ho.offender (by rw [hc]; rfl)).symm
termination_by (c.ahead.length, 1)

theorem readCall_headway (fn : TokenOf .func) (c : Cursor) (ho : Opens c) :
    Headway Expr.faults (Begins IsCall) (fun c => plain (readCall fn.val c)) c := by
  cases hc : c.ahead with
  | nil =>
    rw [cursor_eq hc]
    refine .short _ fn.val.lexeme (plain_readCall_nil fn.val c.seen) ?_
      ⟨_, isCall_empty opening closing⟩
    simp [Expr.faults]
  | cons paren rest =>
    by_cases hp : paren.kind = .leftParen
    · rw [cursor_eq hc]
      cases hrest : rest with
      | nil =>
        refine .short _ fn.val.lexeme (plain_readCall_open fn.val hp c.seen) ?_
          ⟨_, isCall_empty ⟨paren, hp⟩ closing⟩
        simp [Expr.faults]
      | cons tk more =>
        by_cases hclose : tk.kind = .rightParen
        · exact .done [paren, tk] more _ rfl fun rest' _ =>
            plain_readCall_empty fn.val hp hclose c.seen rest'
        · have hlt : (tk :: more).length < c.ahead.length := by simp [hc, hrest]
          have hargs := readArguments_headway fn.val ⟨paren :: c.seen, tk :: more⟩
            (opens_of_seen (by simp [hp]) _ _)
          refine hargs.inside [paren] rfl (.call fn.val) (.call fn.val)
            (fun rest' hrest' => ?_) (fun cut => ?_) (fun tokens h => ?_)
          · cases rest' with
            | nil => cases hrest'
            | cons tk' more' =>
              obtain rfl : tk' = tk := by simpa using hrest'
              rw [List.singleton_append, plain_readCall_arguments fn.val hp hclose]
              cases plain (readArguments fn.val ⟨paren :: c.seen, tk' :: more'⟩) <;> rfl
          · simp [Expr.faults]
          · exact h.mono fun whole hw => hw.isCall ⟨paren, hp⟩
    · refine .stuck _ (.malformed ⟨paren.pos, .noLeftParen, fn.val.lexeme⟩) [] paren rest hc
        (fun after' => plain_readCall_noParen fn.val hp c.seen after') ?_ ?_
        ⟨_, isCall_empty opening closing⟩
      · simp [Expr.faults]
      · rw [List.reverse_nil, List.nil_append, ho.offender (by rw [hc]; rfl)]
        exact ⟨rfl, rfl⟩
termination_by (c.ahead.length, 0)

theorem readArguments_headway (fn : Token) (c : Cursor) (ho : Opens c) :
    Headway Args.faults (Begins IsClosed) (fun c => plain (readArguments fn c)) c := by
  by_cases hcomma : c.ahead.head?.map Token.kind = some .comma
  · obtain ⟨tk, more, hc, hk⟩ := exists_head hcomma
    refine .stuck _ (.malformed ⟨tk.pos, .unexpectedComma, fn.lexeme⟩) [] tk more hc
      (fun after' => plain_readArguments_comma fn hk c.seen after') ?_ ?_
      begins_expression_nil.isClosed
    · simp [Args.faults, cutAt, Expr.faults]
    · rw [List.reverse_nil, List.nil_append, ho.offender (by rw [hc]; rfl)]
      exact ⟨rfl, rfl⟩
  · refine (readExpression_headway c ho).andThen (fun cut => .cons cut .nil)
      (fun arg c => afterArgument fn arg c) (fun c' _ hhead => ?_) (fun cut => ?_)
      (fun _ h => h.isClosed) ?_
    · rw [plain_readArguments fn (by rwa [hhead])]
      cases plain (readExpression c') <;> rfl
    · simp [Args.faults]
    · intro tree used rest hsplit hread
      have hs := readExpression_sound c
      rw [hread] at hs
      obtain ⟨arg, rfl, heq, -⟩ := hs
      obtain rfl := eq_of_split hsplit heq
      have hlt := remaining_lt heq arg.startsOperand.ne_nil
      refine afterArgument_headway fn arg _ rest fun c' hc' ho' => ?_
      have hlt' := Nat.lt_trans hc' hlt
      exact readArguments_headway fn c' ho'
termination_by (c.ahead.length, 4)

end

end Grammar
end ChartScript
