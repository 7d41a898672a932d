import ChartScript.Proofs.Eval.Visits
import ChartScript.Proofs.Grammar.Evaluation
import ChartScript.Proofs.Grammar.Viability

/-!
# Where the parts of a tree come from

Every part of a tree stands for tokens of the statement, also in a tree that breaks off: a symbol
that is assigned to is a symbol token with `=` right behind it, a function that is called is a
function token, and no two parts stand for the same token. `ReadFrom` relates trees to tokens in
this way, and each reader is shown to return a tree that is read from the tokens it has passed, or
one that breaks off and is read from all tokens ahead. A reader asks for a token only where one is
left, so the places where trees break off are never steps beyond the end; and where a parenthesis is
missed, a function stands without one.
-/

set_option autoImplicit false

namespace ChartScript

/-- Whether a reader went beyond the last token. -/
def Fault.isPastEnd : Fault → Bool
  | .pastEnd _ => true
  | _ => false

/-- A function has another token than `(` right behind it. -/
def Unopened (tokens : List Token) : Prop :=
  ∃ before fn sign after, tokens = before ++ fn :: sign :: after ∧
    fn.kind = .func ∧ sign.kind ≠ .leftParen

/-- The tokens have the fault: a parenthesis is missed only where none is, and a token is never
missed. -/
def Fault.In (tokens : List Token) : Fault → Prop
  | .malformed e => e.cause.text = SyntaxCause.noLeftParen.text → Unopened tokens
  | .unsupportedPrimary _ => True
  | .pastEnd _ => False

mutual

/-- The parts of a tree are read from tokens one after the other. Behind the place where a tree
breaks off, any tokens may stand. -/
inductive Expr.ReadFrom : List Token → Expr → Prop where
  | literal (tk : Token) : Expr.ReadFrom [tk] (.literal tk.value)
  | symbol (tk : Token) : Expr.ReadFrom [tk] (.symbol tk)
  | assign {tk sign : Token} {tokens : List Token} {rhs : Expr} (target : tk.kind = .symbol)
      (assigns : sign.kind = .assign) (right : Expr.ReadFrom tokens rhs) :
      Expr.ReadFrom (tk :: sign :: tokens) (.assign tk rhs)
  | binary {before after : List Token} {left right : Expr} (sign : Token) (op : Operator)
      (first : Expr.ReadFrom before left) (second : Expr.ReadFrom after right) :
      Expr.ReadFrom (before ++ sign :: after) (.binary op left right)
  | call {fn : Token} {tokens : List Token} {args : Args} (callee : fn.kind = .func)
      (inside : Args.ReadFrom tokens args) : Expr.ReadFrom (fn :: tokens) (.call fn args)
  | fault {f : Fault} (tokens : List Token) (inside : f.In tokens) :
      Expr.ReadFrom tokens (.fault f)

/-- Arguments are read from tokens with signs between them. -/
inductive Args.ReadFrom : List Token → Args → Prop where
  | nil (tokens : List Token) : Args.ReadFrom tokens .nil
  | cons {before after : List Token} {arg : Expr} {rest : Args} (first : Expr.ReadFrom before arg)
      (others : Args.ReadFrom after rest) : Args.ReadFrom (before ++ after) (.cons arg rest)
  | sign {tokens : List Token} {args : Args} (tk : Token) (behind : Args.ReadFrom tokens args) :
      Args.ReadFrom (tk :: tokens) args

end

/-! ## What is read from tokens -/

/-- A symbol of the name stands right before a `=`. -/
def Assigns (tokens : List Token) (name : Bytes) : Prop :=
  ∃ before tk sign after, tokens = before ++ tk :: sign :: after ∧
    tk.kind = .symbol ∧ tk.lexeme = name ∧ sign.kind = .assign

/-- A function of the name occurs. -/
def Mentions (tokens : List Token) (name : Bytes) : Prop :=
  ∃ fn ∈ tokens, fn.kind = .func ∧ fn.lexeme = name

/-- The tokens have the site. -/
def Site.In (tokens : List Token) : Site → Prop
  | .target tk => Assigns tokens tk.lexeme
  | .callee fn => Mentions tokens fn.lexeme

/-- What tokens have, more tokens have as well. -/
theorem Site.In.of_append {tokens : List Token} {site : Site} (h : site.In tokens)
    (before after : List Token) : site.In (before ++ tokens ++ after) := by
  cases site with
  | target tk =>
    obtain ⟨before', tk', sign, after', rfl, hkind, hname, hsign⟩ := h
    exact ⟨before ++ before', tk', sign, after' ++ after, by simp, hkind, hname, hsign⟩
  | callee fn =>
    obtain ⟨fn', hmem, hkind, hname⟩ := h
    exact ⟨fn', List.mem_append_left _ (List.mem_append_right _ hmem), hkind, hname⟩

mutual

/-- The sites of a tree are sites of the tokens. -/
theorem Expr.ReadFrom.sites_in : {tokens : List Token} → {e : Expr} → e.ReadFrom tokens →
    ∀ site ∈ e.sites, site.In tokens
  | _, _, .literal tk => by simp [Expr.sites]
  | _, _, .symbol tk => by simp [Expr.sites]
  | _, _, @Expr.ReadFrom.assign tk sign tokens rhs target assigns right => by
    intro site hsite
    rw [Expr.sites, List.mem_append, List.mem_singleton] at hsite
    rcases hsite with hsite | rfl
    · simpa using (right.sites_in site hsite).of_append [tk, sign] []
    · exact ⟨[], tk, sign, tokens, rfl, target, rfl, assigns⟩
  | _, _, @Expr.ReadFrom.binary before after left right sign op first second => by
    intro site hsite
    rw [Expr.sites, List.mem_append] at hsite
    rcases hsite with hsite | hsite
    · simpa using (first.sites_in site hsite).of_append [] (sign :: after)
    · simpa using (second.sites_in site hsite).of_append (before ++ [sign]) []
  | _, _, @Expr.ReadFrom.call fn tokens args callee inside => by
    intro site hsite
    rw [Expr.sites, List.mem_append, List.mem_singleton] at hsite
    rcases hsite with hsite | rfl
    · simpa using (inside.sites_in site hsite).of_append [fn] []
    · exact ⟨fn, List.mem_cons_self, callee, rfl⟩
  | _, _, .fault tokens inside => by simp [Expr.sites]

theorem Args.ReadFrom.sites_in : {tokens : List Token} → {args : Args} → args.ReadFrom tokens →
    ∀ site ∈ args.sites, site.In tokens
  | _, _, .nil tokens => by simp [Args.sites]
  | _, _, @Args.ReadFrom.cons before after arg rest first others => by
    intro site hsite
    rw [Args.sites, List.mem_append] at hsite
    rcases hsite with hsite | hsite
    · simpa using (first.sites_in site hsite).of_append [] after
    · simpa using (others.sites_in site hsite).of_append before []
  | _, _, .sign tk behind => by
    intro site hsite
    simpa using (behind.sites_in site hsite).of_append [tk] []

end

mutual

/-- Each site has a token of its own. -/
theorem Expr.ReadFrom.sites_length : {tokens : List Token} → {e : Expr} → e.ReadFrom tokens →
    e.sites.length ≤ tokens.length
  | _, _, .literal tk => by simp [Expr.sites]
  | _, _, .symbol tk => by simp [Expr.sites]
  | _, _, .assign target assigns right => by
    have hright := right.sites_length
    rw [Expr.sites, List.length_append, List.length_singleton, List.length_cons, List.length_cons]
    omega
  | _, _, .binary sign op first second => by
    have hfirst := first.sites_length
    have hsecond := second.sites_length
    rw [Expr.sites, List.length_append, List.length_append, List.length_cons]
    omega
  | _, _, .call callee inside => by
    have hinside := inside.sites_length
    rw [Expr.sites, List.length_append, List.length_singleton, List.length_cons]
    omega
  | _, _, .fault tokens inside => by simp [Expr.sites]

theorem Args.ReadFrom.sites_length : {tokens : List Token} → {args : Args} →
    args.ReadFrom tokens → args.sites.length ≤ tokens.length
  | _, _, .nil tokens => by simp [Args.sites]
  | _, _, .cons first others => by
    have hfirst := first.sites_length
    have hothers := others.sites_length
    rw [Args.sites, List.length_append, List.length_append]
    omega
  | _, _, .sign tk behind => Nat.le_succ_of_le behind.sites_length

end

/-- What tokens have, more tokens have as well. -/
theorem Fault.In.of_append {tokens : List Token} {f : Fault} (h : f.In tokens)
    (before after : List Token) : f.In (before ++ tokens ++ after) := by
  cases f with
  | malformed e =>
    intro hcause
    obtain ⟨before', fn, sign, after', rfl, hfn, hsign⟩ := h hcause
    exact ⟨before ++ before', fn, sign, after' ++ after, by simp, hfn, hsign⟩
  | unsupportedPrimary tk => trivial
  | pastEnd e => exact h

theorem Fault.In.isPastEnd {tokens : List Token} {f : Fault} (h : f.In tokens) :
    f.isPastEnd = false := by
  cases f with
  | pastEnd e => exact h.elim
  | _ => rfl

mutual

/-- The faults of a tree are faults of the tokens. -/
theorem Expr.ReadFrom.faults_in : {tokens : List Token} → {e : Expr} → e.ReadFrom tokens →
    ∀ f ∈ e.faults, f.In tokens
  | _, _, .literal tk => by simp [Expr.faults]
  | _, _, .symbol tk => by simp [Expr.faults]
  | _, _, @Expr.ReadFrom.assign tk sign tokens rhs target assigns right => by
    intro f hf
    rw [Expr.faults] at hf
    simpa using (right.faults_in f hf).of_append [tk, sign] []
  | _, _, @Expr.ReadFrom.binary before after left right sign op first second => by
    intro f hf
    rw [Expr.faults, List.mem_append] at hf
    rcases hf with hf | hf
    · simpa using (first.faults_in f hf).of_append [] (sign :: after)
    · simpa using (second.faults_in f hf).of_append (before ++ [sign]) []
  | _, _, @Expr.ReadFrom.call fn tokens args callee inside => by
    intro f hf
    rw [Expr.faults] at hf
    simpa using (inside.faults_in f hf).of_append [fn] []
  | _, _, .fault tokens inside => by
    intro f hf
    rw [Expr.faults, List.mem_singleton] at hf
    exact hf ▸ inside

theorem Args.ReadFrom.faults_in : {tokens : List Token} → {args : Args} → args.ReadFrom tokens →
    ∀ f ∈ args.faults, f.In tokens
  | _, _, .nil tokens => by simp [Args.faults]
  | _, _, @Args.ReadFrom.cons before after arg rest first others => by
    intro f hf
    rw [Args.faults, List.mem_append] at hf
    rcases hf with hf | hf
    · simpa using (first.faults_in f hf).of_append [] after
    · simpa using (others.faults_in f hf).of_append before []
  | _, _, .sign tk behind => by
    intro f hf
    simpa using (behind.faults_in f hf).of_append [tk] []

end

/-- A tree that is read from tokens does not break off beyond the end. -/
theorem Expr.ReadFrom.faults {tokens : List Token} {e : Expr} (h : e.ReadFrom tokens) :
    ∀ f ∈ e.faults, f.isPastEnd = false :=
  fun f hf => (h.faults_in f hf).isPastEnd

/-! ## The readers -/

namespace Expr

/-- A reader comes forward by what it reads. -/
theorem plain_forward {Cut Tree : Type} {c c' : Cursor} {r : Reading Cut Tree c} {tree : Tree}
    (h : plain r = .ok (tree, c')) : c'.remaining < c.remaining := by
  cases r with
  | error cut => cases h
  | ok p =>
    obtain ⟨⟨tree', c''⟩, hlt⟩ := p
    cases h
    exact hlt

/-- What comes of reading from `c` when the tokens `before` have been read: a tree that breaks off
and is read from all tokens, or one that is read from the tokens passed. -/
def Origin {Tree : Type} (source : List Token → Tree → Prop) (before : List Token) (c : Cursor) :
    Except Tree (Tree × Cursor) → Prop
  | .error cut => source (before ++ c.ahead) cut
  | .ok (tree, c') => ∃ used, c.ahead = used ++ c'.ahead ∧ source (before ++ used) tree

/-- To go on behind tokens that were read. -/
theorem Origin.behind {Tree : Type} {source : List Token → Tree → Prop} {before used : List Token}
    {c c' : Cursor} {r : Except Tree (Tree × Cursor)} (hc : c.ahead = used ++ c'.ahead)
    (h : Origin source (before ++ used) c' r) : Origin source before c r := by
  cases r with
  | error cut =>
    unfold Origin at h ⊢
    rwa [hc, ← List.append_assoc]
  | ok p =>
    obtain ⟨more, hmore, hsource⟩ := h
    refine ⟨used ++ more, ?_, ?_⟩
    · rw [hc, hmore, List.append_assoc]
    · rwa [← List.append_assoc]

theorem Origin.cases {Tree : Type} {source : List Token → Tree → Prop} {before : List Token}
    {c : Cursor} {r : Except Tree (Tree × Cursor)} (h : Origin source before c r) :
    (∃ cut, r = .error cut ∧ source (before ++ c.ahead) cut) ∨
      ∃ tree c' used, r = .ok (tree, c') ∧ c.ahead = used ++ c'.ahead ∧
        source (before ++ used) tree := by
  cases r with
  | error cut => exact .inl ⟨cut, rfl, h⟩
  | ok p =>
    obtain ⟨used, hc, hsource⟩ := h
    exact .inr ⟨p.1, p.2, used, rfl, hc, hsource⟩

theorem readFrom_last {tokens : List Token} {arg : Expr} (h : arg.ReadFrom tokens) :
    (Args.cons arg .nil).ReadFrom tokens := by
  rw [← List.append_nil tokens]
  exact .cons h (.nil [])

theorem readFrom_cutAt {tokens : List Token} {f : Fault} (h : f.In tokens) :
    (cutAt f).ReadFrom tokens :=
  readFrom_last (.fault tokens h)

/-- What does not miss a parenthesis may be a fault of any tokens. -/
theorem in_of_cause {tokens : List Token} {pos : Pos} {cause : SyntaxCause} {func : Bytes}
    (h : cause.text ≠ SyntaxCause.noLeftParen.text) :
    (Fault.malformed ⟨pos, cause, func⟩).In tokens :=
  fun hcause => absurd hcause h

theorem afterArgument_origin (fn : Token) {before : List Token} {arg : Expr}
    (h : arg.ReadFrom before) (c : Cursor)
    (ih : ∀ c', c'.remaining < c.remaining →
      Origin Args.ReadFrom [] c' (plain (readArguments fn c'))) :
    Origin Args.ReadFrom before c (afterArgument fn arg c) := by
  obtain ⟨seen, ahead⟩ := c
  cases ahead with
  | nil => exact .cons h (readFrom_cutAt (in_of_cause (by decide)))
  | cons sep rest =>
    by_cases hclose : sep.kind = .rightParen
    · simp only [afterArgument, if_pos hclose]
      exact ⟨[sep], rfl, .cons h (.nil [sep])⟩
    · by_cases hsep : sep.kind = .comma
      · cases rest with
        | nil =>
          simp only [afterArgument, if_neg hclose, if_pos hsep]
          exact .cons h (readFrom_cutAt (in_of_cause (by decide)))
        | cons tk more =>
          by_cases hk : tk.kind = .rightParen
          · simp only [afterArgument, if_neg hclose, if_pos hsep, if_pos hk]
            exact .cons h (readFrom_cutAt (in_of_cause (by decide)))
          · simp only [afterArgument, if_neg hclose, if_pos hsep, if_neg hk]
            rcases (ih ⟨sep :: seen, tk :: more⟩ (Nat.lt_succ_self _)).cases with
              ⟨cut, hr, hcut⟩ | ⟨args, c1, used, hr, hc, hargs⟩
            · rw [hr]
              exact .cons h (.sign sep hcut)
            · rw [hr]
              exact ⟨sep :: used, congrArg (sep :: ·) hc, .cons h (.sign sep hargs)⟩
      · simp only [afterArgument, if_neg hclose, if_neg hsep]
        exact .cons h (readFrom_cutAt (in_of_cause (by decide)))

-- The first number goes down with every token, the second one orders the readers that call each
-- other without taking a token.
mutual

theorem readExpression_origin (c : Cursor) :
    Origin Expr.ReadFrom [] c (plain (readExpression c)) := by
  rw [plain_readExpression]
  rcases (readTerm_origin c).cases with ⟨cut, hr, hcut⟩ | ⟨left, c1, used, hr, hc, hleft⟩
  · rw [hr]
    exact hcut
  · rw [hr]
    have hlt := plain_forward hr
    exact .behind hc (readExpressionTail_origin hleft c1)
termination_by (c.remaining, 3)

theorem readExpressionTail_origin {before : List Token} {left : Expr} (h : left.ReadFrom before)
    (c : Cursor) : Origin Expr.ReadFrom before c (plain (readExpressionTail left c)) := by
  cases ha : additive? c.ahead.head? with
  | none =>
    rw [plain_readExpressionTail_stop _ ha]
    exact ⟨[], rfl, by rwa [List.append_nil]⟩
  | some op =>
    obtain ⟨seen, ahead⟩ := c
    cases ahead with
    | nil => cases ha
    | cons sign rest =>
      rw [plain_readExpressionTail_go _ ha]
      have hstep : rest.length < (Cursor.mk seen (sign :: rest)).remaining := Nat.lt_succ_self _
      rcases (readTerm_origin ⟨sign :: seen, rest⟩).cases with
        ⟨cut, hr, hcut⟩ | ⟨right, c1, used, hr, hc, hright⟩
      · rw [hr]
        exact .binary sign op h hcut
      · rw [hr]
        have hlt := Nat.lt_trans (plain_forward hr) hstep
        have hsplit : sign :: rest = (sign :: used) ++ c1.ahead := congrArg (sign :: ·) hc
        exact .behind hsplit (readExpressionTail_origin (.binary sign op h hright) c1)
termination_by (c.remaining, 0)

theorem readTerm_origin (c : Cursor) : Origin Expr.ReadFrom [] c (plain (readTerm c)) := by
  rw [plain_readTerm]
  rcases (readPrimary_origin c).cases with ⟨cut, hr, hcut⟩ | ⟨left, c1, used, hr, hc, hleft⟩
  · rw [hr]
    exact hcut
  · rw [hr]
    have hlt := plain_forward hr
    exact .behind hc (readTermTail_origin hleft c1)
termination_by (c.remaining, 2)

theorem readTermTail_origin {before : List Token} {left : Expr} (h : left.ReadFrom before)
    (c : Cursor) : Origin Expr.ReadFrom before c (plain (readTermTail left c)) := by
  cases hm : multiplicative? c.ahead.head? with
  | none =>
    rw [plain_readTermTail_stop _ hm]
    exact ⟨[], rfl, by rwa [List.append_nil]⟩
  | some op =>
    obtain ⟨seen, ahead⟩ := c
    cases ahead with
    | nil => cases hm
    | cons sign rest =>
      rw [plain_readTermTail_go _ hm]
      have hstep : rest.length < (Cursor.mk seen (sign :: rest)).remaining := Nat.lt_succ_self _
      rcases (readPrimary_origin ⟨sign :: seen, rest⟩).cases with
        ⟨cut, hr, hcut⟩ | ⟨right, c1, used, hr, hc, hright⟩
      · rw [hr]
        exact .binary sign op h hcut
      · rw [hr]
        have hlt := Nat.lt_trans (plain_forward hr) hstep
        have hsplit : sign :: rest = (sign :: used) ++ c1.ahead := congrArg (sign :: ·) hc
        exact .behind hsplit (readTermTail_origin (.binary sign op h hright) c1)
termination_by (c.remaining, 0)

theorem readPrimary_origin (c : Cursor) : Origin Expr.ReadFrom [] c (plain (readPrimary c)) := by
  obtain ⟨seen, ahead⟩ := c
  cases ahead with
  | nil =>
    rw [plain_readPrimary_nil]
    exact .fault _ (in_of_cause (by decide))
  | cons tk rest =>
    have hstep : rest.length < (Cursor.mk seen (tk :: rest)).remaining := Nat.lt_succ_self _
    cases hk : tk.kind with
    | int | real | string =>
      rw [plain_readPrimary_literal (by rw [hk]; rfl)]
      exact ⟨[tk], rfl, .literal tk⟩
    | symbol =>
      by_cases ha : rest.head?.map Token.kind = some .assign
      · obtain ⟨sign, more, rfl, hs⟩ := Grammar.exists_head ha
        have hlt : more.length < (Cursor.mk seen (tk :: sign :: more)).remaining :=
          Nat.lt_trans (Nat.lt_succ_self _) hstep
        rw [plain_readPrimary_assign hk hs]
        rcases (readExpression_origin ⟨sign :: tk :: seen, more⟩).cases with
          ⟨cut, hr, hcut⟩ | ⟨rhs, c1, used, hr, hc, hrhs⟩
        · rw [hr]
          exact .assign hk hs hcut
        · rw [hr]
          exact ⟨tk :: sign :: used, congrArg (tk :: sign :: ·) hc, .assign hk hs hrhs⟩
      · rw [plain_readPrimary_symbol hk seen rest ha]
        exact ⟨[tk], rfl, .symbol tk⟩
    | func =>
      rw [plain_readPrimary_func hk]
      have hsplit : tk :: rest = [tk] ++ rest := rfl
      exact .behind hsplit (readCall_origin hk ⟨tk :: seen, rest⟩)
    | _ =>
      rw [plain_readPrimary_other (by rw [hk]; rfl)]
      exact .fault _ trivial
termination_by (c.remaining, 1)

theorem readCall_origin {fn : Token} (h : fn.kind = .func) (c : Cursor) :
    Origin Expr.ReadFrom [fn] c (plain (readCall fn c)) := by
  obtain ⟨seen, ahead⟩ := c
  cases ahead with
  | nil =>
    rw [plain_readCall_nil]
    exact .fault _ (in_of_cause (by decide))
  | cons paren rest =>
    have hstep : rest.length < (Cursor.mk seen (paren :: rest)).remaining := Nat.lt_succ_self _
    by_cases hp : paren.kind = .leftParen
    · cases rest with
      | nil =>
        rw [plain_readCall_open _ hp]
        exact .fault _ (in_of_cause (by decide))
      | cons tk more =>
        by_cases hclose : tk.kind = .rightParen
        · rw [plain_readCall_empty _ hp hclose]
          exact ⟨[paren, tk], rfl, .call h (.nil _)⟩
        · rw [plain_readCall_arguments _ hp hclose]
          rcases (readArguments_origin fn ⟨paren :: seen, tk :: more⟩).cases with
            ⟨cut, hr, hcut⟩ | ⟨args, c1, used, hr, hc, hargs⟩
          · rw [hr]
            exact .call h (.sign paren hcut)
          · rw [hr]
            exact ⟨paren :: used, congrArg (paren :: ·) hc, .call h (.sign paren hargs)⟩
    · rw [plain_readCall_noParen _ hp]
      exact .fault _ fun _ => ⟨[], fn, paren, rest, rfl, h, hp⟩
termination_by (c.remaining, 0)

theorem readArguments_origin (fn : Token) (c : Cursor) :
    Origin Args.ReadFrom [] c (plain (readArguments fn c)) := by
  by_cases hcomma : c.ahead.head?.map Token.kind = some .comma
  · obtain ⟨tk, more, hc, hk⟩ := Grammar.exists_head hcomma
    rw [Grammar.cursor_eq hc, plain_readArguments_comma fn hk]
    exact readFrom_cutAt (in_of_cause (by decide))
  · rw [plain_readArguments fn hcomma]
    rcases (readExpression_origin c).cases with ⟨cut, hr, hcut⟩ | ⟨arg, c1, used, hr, hc, harg⟩
    · rw [hr]
      exact readFrom_last hcut
    · rw [hr]
      refine .behind hc (afterArgument_origin fn harg c1 fun c' hc' => ?_)
      have hlt := Nat.lt_trans hc' (plain_forward hr)
      exact readArguments_origin fn c'
termination_by (c.remaining, 4)

end

end Expr

namespace Statement

/-- **The tree of a statement is read from its first tokens**, whether it breaks off or not. -/
theorem parse_readFrom (stmt : Statement) :
    ∃ used rest, stmt = used ++ rest ∧ stmt.parse.tree.ReadFrom used := by
  rw [parse_eq]
  rcases (Expr.readExpression_origin (.ofList stmt)).cases with
    ⟨cut, hr, hcut⟩ | ⟨tree, c, used, hr, hc, htree⟩
  · rw [hr]
    exact ⟨stmt, [], (List.append_nil _).symm, hcut⟩
  · rw [hr]
    exact ⟨used, c.ahead, hc, htree⟩

theorem sites_in (stmt : Statement) : ∀ site ∈ stmt.parse.tree.sites, site.In stmt := by
  obtain ⟨used, rest, hsplit, htree⟩ := stmt.parse_readFrom
  intro site hsite
  have hused := (htree.sites_in site hsite).of_append [] rest
  rwa [List.nil_append, ← hsplit] at hused

/-- A parenthesis is missed in a statement only where a function has none. -/
theorem tree_faults_in (stmt : Statement) : ∀ f ∈ stmt.parse.tree.faults, f.In stmt := by
  obtain ⟨used, rest, hsplit, htree⟩ := stmt.parse_readFrom
  intro f hf
  have hused := (htree.faults_in f hf).of_append [] rest
  rwa [List.nil_append, ← hsplit] at hused

theorem sites_length (stmt : Statement) : stmt.parse.tree.sites.length ≤ stmt.length := by
  obtain ⟨used, rest, hsplit, htree⟩ := stmt.parse_readFrom
  have hlength := congrArg List.length hsplit
  rw [List.length_append] at hlength
  exact Nat.le_trans htree.sites_length (hlength ▸ Nat.le_add_right _ _)

end Statement
end ChartScript
