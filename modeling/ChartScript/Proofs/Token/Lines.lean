import ChartScript.Proofs.Token.Relexing
import ChartScript.Proofs.Token.Tiling

/-!
# Lexing line by line

No token and no closed comment that a text ends with goes on behind a line end. So a text that lexes
is lexed in the same way when lines are put behind it, and the tokens of lines that lex are the
tokens of the whole (`Reads.join`). What changes are the places of the tokens, and a place has no
part in reading: tokens are compared by `Token.Agrees`.
-/

set_option autoImplicit false

namespace ChartScript

namespace Token.Agrees

theorem refl (tk : Token) : tk.Agrees tk := ⟨rfl, fun _ => rfl, fun _ => rfl⟩

theorem symm {a b : Token} (h : a.Agrees b) : b.Agrees a :=
  ⟨h.kind.symm, fun hk => (h.lexeme (h.kind ▸ hk)).symm, fun hk => (h.value (h.kind ▸ hk)).symm⟩

theorem trans {a b c : Token} (h : a.Agrees b) (h' : b.Agrees c) : a.Agrees c :=
  ⟨h.kind.trans h'.kind, fun hk => (h.lexeme hk).trans (h'.lexeme (h.kind ▸ hk)),
    fun hk => (h.value hk).trans (h'.value (h.kind ▸ hk))⟩

end Token.Agrees

namespace Lexer

open Text

/-! ## Cutting lines off -/

theorem dropWhile_line {p : Char → Bool} (h : p '\n' = false) (cs ds : List Char) :
    (cs ++ '\n' :: ds).dropWhile p = cs.dropWhile p ++ '\n' :: ds := by
  induction cs with
  | nil => simp [h]
  | cons c cs ih =>
    rw [List.cons_append, List.dropWhile_cons, List.dropWhile_cons, ih]
    split <;> rfl

theorem takeWhile_line {p : Char → Bool} (h : p '\n' = false) (cs ds : List Char) :
    (cs ++ '\n' :: ds).takeWhile p = cs.takeWhile p := by
  induction cs with
  | nil => simp [h]
  | cons c cs ih => rw [List.cons_append, List.takeWhile_cons, List.takeWhile_cons, ih]

/-- The next character is the same, unless there was none. -/
theorem head?_line {cs : List Char} {c : Char} (hc : c ≠ '\n') (ds : List Char) :
    ((cs ++ '\n' :: ds).head? == some c) = (cs.head? == some c) := by
  cases cs with
  | nil => simpa using fun h => hc h.symm
  | cons d cs => rfl

theorem splitComment?_append {cs body after : List Char} (ds : List Char)
    (h : splitComment? cs = some (body, after)) :
    splitComment? (cs ++ ds) = some (body, after ++ ds) := by
  induction cs generalizing body with
  | nil => cases h
  | cons c cs ih =>
    unfold splitComment? at h
    split at h
    · cases h
      rfl
    · next hno =>
      obtain ⟨⟨body', after'⟩, hc, heq⟩ := Option.map_eq_some_iff.1 h
      obtain ⟨rfl, rfl⟩ := Prod.mk.inj heq
      cases cs with
      | nil => cases hc
      | cons d cs =>
        rw [List.cons_append, List.cons_append, splitComment?]
        · rw [← List.cons_append, ih hc]
          rfl
        · intro after hstar hslash
          obtain ⟨rfl, -⟩ := List.cons.inj hslash
          exact hno cs hstar rfl

/-! ## Lexemes -/

theorem nameKind_line (after ds : List Char) : nameKind (after ++ '\n' :: ds) = nameKind after := by
  unfold nameKind
  rw [dropWhile_line (by decide), head?_line (by decide)]

theorem head_line {p : Char → Bool} (hp : p '\n' = false) {cs : List Char}
    (h : ∀ d ∈ cs.head?, p d = false) (ds : List Char) :
    ∀ d ∈ (cs ++ '\n' :: ds).head?, p d = false := by
  cases cs with
  | nil =>
    intro d hd
    obtain rfl : '\n' = d := by simpa using hd
    exact hp
  | cons c cs => exact h

/-- A lexeme at the end of a text is one before a line end. -/
theorem Spelt.line {lx : Lexeme} {after : List Char} (h : Spelt lx after) (ds : List Char) :
    Spelt lx (after ++ '\n' :: ds) := by
  cases h with
  | name hstart hpart hstop =>
    rw [← nameKind_line after ds]
    exact .name hstart hpart (head_line (by decide +kernel) hstop ds)
  | int hne hdigits hread hstop hpoint =>
    refine .int hne hdigits hread (head_line (by decide) hstop ds) fun d more heq => ?_
    -- A point at the end of the text has the line end behind it, which is no digit.
    cases after with
    | nil => exact absurd (List.cons.inj heq).1 (by decide)
    | cons c after =>
      obtain ⟨rfl, htail⟩ := List.cons.inj heq
      cases after with
      | nil =>
        obtain ⟨rfl, -⟩ := List.cons.inj htail
        decide
      | cons e after =>
        obtain ⟨rfl, -⟩ := List.cons.inj htail
        exact hpoint e after rfl
  | real hwhole hdigits hfraction hdigits' hread hstop =>
    exact .real hwhole hdigits hfraction hdigits' hread (head_line (by decide) hstop ds)
  | string hbody hread => exact .string hbody hread
  | sign hkind => exact .sign hkind

theorem splitLexeme_line {c : Char} {rest after : List Char} {lx : Lexeme} (ds : List Char)
    (h : splitLexeme c rest = .ok (lx, after)) :
    splitLexeme c (rest ++ '\n' :: ds) = .ok (lx, after ++ '\n' :: ds) := by
  obtain ⟨heq, hspelt⟩ := splitLexeme_eq_ok_iff.1 h
  refine splitLexeme_eq_ok_iff.2 ⟨?_, hspelt.line ds⟩
  rw [← List.cons_append, heq, List.append_assoc]

/-! ## Gaps -/

theorem gapAfter_gapAfter (a b : List Char) (r : Except (List Char) (List Char × List Char)) :
    gapAfter a (gapAfter b r) = gapAfter (a ++ b) r := by
  cases r with
  | error before => simp [gapAfter]
  | ok p => simp [gapAfter]

/-- The split of a longer text: a gap that took all goes on behind the line end. -/
def beyond (ds gap : List Char) : List Char → Except (List Char) (List Char × List Char)
  | [] => gapAfter (gap ++ ['\n']) (splitGap ds)
  | c :: rest => .ok (gap, c :: (rest ++ '\n' :: ds))

theorem gapAfter_beyond (ds front gap rest : List Char) :
    gapAfter front (beyond ds gap rest) = beyond ds (front ++ gap) rest := by
  cases rest with
  | nil => rw [beyond, beyond, gapAfter_gapAfter, List.append_assoc]
  | cons c rest => rfl

theorem splitLine_line (cs ds : List Char) :
    splitLine (cs ++ '\n' :: ds) = ((splitLine cs).1, (splitLine cs).2 ++ '\n' :: ds) := by
  unfold splitLine
  rw [takeWhile_line (by decide), dropWhile_line (by decide)]

theorem splitGap_line {cs gap rest : List Char} (ds : List Char)
    (h : splitGap cs = .ok (gap, rest)) : splitGap (cs ++ '\n' :: ds) = beyond ds gap rest := by
  fun_induction splitGap cs generalizing gap rest with
  | case1 =>
    cases h
    rw [List.nil_append, splitGap, if_pos (by decide)]
    rfl
  | case2 c cs hblank ih =>
    obtain ⟨gap', hr, rfl⟩ := gapAfter_eq_ok h
    rw [List.cons_append, splitGap, if_pos hblank, ih hr, gapAfter_beyond]
  | case3 c cs hblank hhash ih =>
    obtain ⟨gap', hr, rfl⟩ := gapAfter_eq_ok h
    rw [List.cons_append, splitGap, if_neg hblank, if_pos hhash, splitLine_line, ih hr,
      gapAfter_beyond]
  | case4 c cs hblank hhash hslash ih =>
    obtain ⟨gap', hr, rfl⟩ := gapAfter_eq_ok h
    rw [List.cons_append, splitGap, if_neg hblank, if_neg hhash, head?_line (by decide),
      if_pos hslash, splitLine_line, ih hr, gapAfter_beyond]
  | case5 c cs hblank hhash hslash hstar body after hc ih =>
    obtain ⟨gap', hr, rfl⟩ := gapAfter_eq_ok h
    have hdrop : (cs ++ '\n' :: ds).drop 1 = cs.drop 1 ++ '\n' :: ds := by
      cases cs with
      | nil => simp at hstar
      | cons d cs => rfl
    have hclosed := splitComment?_append ('\n' :: ds) hc
    rw [← hdrop] at hclosed
    rw [List.cons_append, splitGap, if_neg hblank, if_neg hhash, head?_line (by decide),
      if_neg hslash, head?_line (by decide), if_pos hstar]
    split
    · next body' after' h' =>
      rw [hclosed] at h'
      cases h'
      rw [ih hr, gapAfter_beyond]
    · next h' =>
      rw [hclosed] at h'
      cases h'
  | case6 => cases h
  | case7 c cs hblank hhash hslash hstar =>
    cases h
    rw [List.cons_append, splitGap, if_neg hblank, if_neg hhash, head?_line (by decide),
      if_neg hslash, head?_line (by decide), if_neg hstar]
    rfl

/-! ## Tokens -/

theorem lexFrom_open {cs before : List Char} (p : Pos) (h : splitGap cs = .error before) :
    lexFrom p cs = .error ⟨p.advanceBy before, .unterminatedComment⟩ := by
  rw [lexFrom]
  split
  · next h' => rw [h] at h'; cases h'; rfl
  · next h' => rw [h] at h'; cases h'
  · next h' => rw [h] at h'; cases h'

theorem lexFrom_end {cs gap : List Char} (p : Pos) (h : splitGap cs = .ok (gap, [])) :
    lexFrom p cs = .ok [] := by
  rw [lexFrom]
  split
  · next h' => rw [h] at h'; cases h'
  · rfl
  · next h' => rw [h] at h'; cases h'

theorem lexFrom_fault {cs gap rest : List Char} {c : Char} {fault : LexFault} (p : Pos)
    (hg : splitGap cs = .ok (gap, c :: rest)) (hl : splitLexeme c rest = .error fault) :
    lexFrom p cs = .error ⟨p.advanceBy gap, fault⟩ := by
  rw [lexFrom]
  split
  · next h => rw [hg] at h; cases h
  · next h => rw [hg] at h; cases h
  · next h =>
    rw [hg] at h
    cases h
    split
    · next h' => rw [hl] at h'; cases h'; rfl
    · next h' => rw [hl] at h'; cases h'

theorem advanceBy_append (p : Pos) (a b : List Char) :
    p.advanceBy (a ++ b) = (p.advanceBy a).advanceBy b := by
  simp [Pos.advanceBy]

/-- A gap in front moves the place and nothing else. -/
theorem lexFrom_gapAfter {cs ds front : List Char} (p : Pos)
    (h : splitGap cs = gapAfter front (splitGap ds)) :
    lexFrom p cs = lexFrom (p.advanceBy front) ds := by
  cases hg : splitGap ds with
  | error before =>
    rw [hg] at h
    rw [lexFrom_open p h, lexFrom_open _ hg, advanceBy_append]
  | ok r =>
    obtain ⟨gap, rest⟩ := r
    rw [hg] at h
    cases rest with
    | nil => rw [lexFrom_end p h, lexFrom_end _ hg]
    | cons c rest =>
      cases hl : splitLexeme c rest with
      | error fault => rw [lexFrom_fault p h hl, lexFrom_fault _ hg hl, advanceBy_append]
      | ok r => rw [lexFrom_lexeme p h hl, lexFrom_lexeme _ hg hl, advanceBy_append]

/-- **A text that lexes is lexed in the same way before a line end**, and what stands behind the
line end is lexed as if it stood alone at its place. -/
theorem lexFrom_line {p : Pos} {cs : List Char} {tokens : List Token} (ds : List Char)
    (h : lexFrom p cs = .ok tokens) :
    lexFrom p (cs ++ '\n' :: ds) =
      (lexFrom (p.advanceBy (cs ++ ['\n'])) ds).map (tokens ++ ·) := by
  fun_induction lexFrom p cs generalizing tokens with
  | case1 => cases h
  | case2 p cs gap hg =>
    cases h
    rw [lexFrom_gapAfter p (splitGap_line ds hg), (splitGap_gap hg).1, List.append_nil]
    cases lexFrom (p.advanceBy (gap ++ ['\n'])) ds <;> rfl
  | case3 => cases h
  | case4 p cs gap c rest hg here lx after hl =>
    rename_i ih
    cases hrest : lexFrom (here.advanceBy lx.chars) after with
    | error e => rw [hrest] at h; cases h
    | ok more =>
      rw [hrest] at h
      cases h
      have hplace : (here.advanceBy lx.chars).advanceBy (after ++ ['\n']) =
          p.advanceBy (cs ++ ['\n']) := by
        rw [(splitGap_gap hg).1, (splitLexeme_spelt hl).1, ← advanceBy_append, ← advanceBy_append]
        simp only [List.append_assoc]
      rw [lexFrom_lexeme p (splitGap_line ds hg) (splitLexeme_line ds hl), ih hrest, hplace]
      cases lexFrom (p.advanceBy (cs ++ ['\n'])) ds <;> rfl

/-- Places have no part in what is read. -/
theorem lexFrom_agrees {p : Pos} {cs : List Char} {tokens : List Token} (q : Pos)
    (h : lexFrom p cs = .ok tokens) :
    ∃ tokens', lexFrom q cs = .ok tokens' ∧ List.Forall₂ Token.Agrees tokens' tokens := by
  fun_induction lexFrom p cs generalizing tokens q with
  | case1 => cases h
  | case2 p cs gap hg =>
    cases h
    exact ⟨[], lexFrom_end q hg, .nil⟩
  | case3 => cases h
  | case4 p cs gap c rest hg here lx after hl =>
    rename_i ih
    cases hrest : lexFrom (here.advanceBy lx.chars) after with
    | error e => rw [hrest] at h; cases h
    | ok more =>
      rw [hrest] at h
      cases h
      obtain ⟨more', hmore, hall⟩ := ih ((q.advanceBy gap).advanceBy lx.chars) hrest
      refine ⟨⟨lx.kind, Bytes.ofChars lx.chars, lx.value, q.advanceBy gap⟩ :: more', ?_,
        .cons ⟨rfl, fun _ => rfl, fun _ => rfl⟩ hall⟩
      rw [lexFrom_lexeme q hg hl, hmore]
      rfl

end Lexer

/-! ## Sources -/

instance : Std.Refl Token.Agrees := ⟨Token.Agrees.refl⟩

theorem agrees_trans {a b c : List Token} (h : List.Forall₂ Token.Agrees a b)
    (h' : List.Forall₂ Token.Agrees b c) : List.Forall₂ Token.Agrees a c := by
  induction h generalizing c with
  | nil => exact h'
  | cons hab hrest ih =>
    cases h' with
    | cons hbc hrest' => exact .cons (hab.trans hbc) (ih hrest')

theorem agrees_symm {a b : List Token} (h : List.Forall₂ Token.Agrees a b) :
    List.Forall₂ Token.Agrees b a :=
  (h.imp fun _ _ => Token.Agrees.symm).flip

theorem kinds_of_agrees {a b : List Token} (h : List.Forall₂ Token.Agrees a b) :
    a.map Token.kind = b.map Token.kind := by
  induction h with
  | nil => rfl
  | cons hab hrest ih => rw [List.map_cons, List.map_cons, hab.kind, ih]

/-- A source is read as tokens, a place apart. -/
def Reads (source : Bytes) (tokens : List Token) : Prop :=
  ∃ tokens', lex source = .ok tokens' ∧ List.Forall₂ Token.Agrees tokens' tokens

theorem reads_of_lex {source : Bytes} {tokens : List Token} (h : lex source = .ok tokens) :
    Reads source tokens :=
  ⟨tokens, h, List.forall₂_refl tokens⟩

/-- Tokens without a value are read when their kinds and lexemes are. -/
theorem reads_of_names {source : Bytes} {tokens : List Token}
    (h : (lex source).toOption.map (List.map fun tk => (tk.kind, tk.lexeme)) =
      some (tokens.map fun tk => (tk.kind, tk.lexeme)))
    (hkinds : ∀ tk ∈ tokens, tk.kind.isLiteral = false) : Reads source tokens := by
  cases hlex : lex source with
  | error e =>
    rw [hlex] at h
    cases h
  | ok tokens' =>
    rw [hlex] at h
    have hsame : List.Forall₂ Eq (tokens.map fun tk => (tk.kind, tk.lexeme))
        (tokens'.map fun tk => (tk.kind, tk.lexeme)) := by
      rw [List.forall₂_eq_eq_eq]
      exact (Option.some.inj h).symm
    rw [List.forall₂_map_left_iff, List.forall₂_map_right_iff] at hsame
    refine ⟨tokens', hlex, agrees_symm ?_⟩
    refine ((List.forall₂_and_left tokens tokens').2 ⟨hkinds, hsame⟩).imp ?_
    rintro tk tk' ⟨hno, hpair⟩
    obtain ⟨hkind, hlexeme⟩ := Prod.mk.inj hpair
    refine ⟨hkind, fun _ => hlexeme, fun hl => ?_⟩
    rw [hno] at hl
    cases hl

theorem exists_reads {lines : List Bytes} (h : ∀ line ∈ lines, ∃ tokens, lex line = .ok tokens) :
    ∃ parts, List.Forall₂ Reads lines parts := by
  induction lines with
  | nil => exact ⟨[], .nil⟩
  | cons line lines ih =>
    obtain ⟨tokens, hlex⟩ := h line List.mem_cons_self
    obtain ⟨parts, hparts⟩ := ih fun l hl => h l (List.mem_cons_of_mem _ hl)
    exact ⟨tokens :: parts, .cons (reads_of_lex hlex) hparts⟩

namespace Reads

theorem nil : Reads [] [] := by
  have hgap : Lexer.splitGap (Bytes.chars []) = .ok ([], []) := by
    rw [Bytes.chars, Bytes.decode, List.map_nil, Lexer.splitGap]
  exact reads_of_lex (Lexer.lexFrom_end .start hgap)

/-- Two texts with a line end between them are read one after the other. -/
theorem append {a b : Bytes} {s t : List Token} (ha : Reads a s) (hb : Reads b t) :
    Reads (a ++ Bytes.newline ++ b) (s ++ t) := by
  obtain ⟨s', hs, hagrees⟩ := ha
  obtain ⟨t', ht, hagrees'⟩ := hb
  obtain ⟨t'', ht', hplace⟩ :=
    Lexer.lexFrom_agrees (Pos.start.advanceBy (a.chars ++ ['\n'])) ht
  refine ⟨s' ++ t'', ?_, List.rel_append hagrees (agrees_trans hplace hagrees')⟩
  rw [lex, Bytes.chars_append_newline, Lexer.lexFrom_line b.chars hs, ht']
  rfl

/-- **The tokens of lines that lex are the tokens of the whole.** -/
theorem join {texts : List Bytes} {parts : List (List Token)}
    (h : List.Forall₂ Reads texts parts) :
    Reads (Bytes.join Bytes.newline texts) parts.flatten := by
  induction h with
  | nil => exact .nil
  | cons hline hrest ih =>
    cases hrest with
    | nil => simpa [Bytes.join] using hline
    | cons hline' hrest' =>
      rw [Bytes.join, List.flatten_cons]
      exact hline.append ih

end Reads

end ChartScript
