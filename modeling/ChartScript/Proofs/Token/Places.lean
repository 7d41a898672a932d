import ChartScript.Proofs.Token.Pending
import ChartScript.Proofs.Token.Shift

/-!
# Where tokens and errors are

A place is counted while lexing: a line for each line end passed, a column for each character on
the line, an offset for each character. `Pos.Behind` says of a place, without counting, that a text
stands before it, and `lex_places` says that the places of tokens and errors are where their text
begins.

Of an error that means two things. The text in front of it has been read: it is made of gaps and
lexemes (`Scanned`), and it lexes by itself, since a gap or a lexeme stays one when less follows it
(`Gap.truncate`, `Spelt.truncate`). And what the error complains of begins right there (`Offends`),
so it could not have been reported earlier or later.
-/

set_option autoImplicit false

namespace ChartScript

/-! ## Places -/

/-- The place that a text leads to from the beginning. -/
structure Pos.Behind (p : Pos) (before : List Char) : Prop where
  offset : p.offset = before.length
  line : p.line = 1 + before.count '\n'
  /-- On the first line. -/
  first : '\n' ∉ before → p.column = 1 + before.length
  /-- On a later line, behind `line` on it. -/
  later : ∀ lines line, before = lines ++ '\n' :: line → '\n' ∉ line → p.column = 1 + line.length

namespace Pos

theorem column_advanceBy {p : Pos} {cs : List Char} (h : '\n' ∉ cs) :
    (p.advanceBy cs).column = p.column + cs.length := by
  induction cs generalizing p with
  | nil => simp [advanceBy]
  | cons c cs ih =>
    obtain ⟨hc, hcs⟩ := not_or.1 (mt List.mem_cons.2 h)
    have hstep : p.advance c = ⟨p.line, p.column + 1, p.offset + 1⟩ := by
      rw [advance, if_neg]
      simpa using fun heq => hc heq.symm
    rw [advanceBy, List.foldl_cons, hstep]
    refine (ih hcs).trans ?_
    rw [List.length_cons]
    push_cast
    omega

theorem behind_advanceBy (before : List Char) : (start.advanceBy before).Behind before where
  offset := (Lexer.offset_advanceBy start before).trans (Int.zero_add _)
  line := line_advanceBy start before
  first h := column_advanceBy h
  later lines line heq hline := by
    rw [heq, Lexer.advanceBy_append]
    exact column_advanceBy hline

end Pos

namespace Lexer

open Text

/-! ## Tokens -/

theorem Spelt.chars_ne_nil {lx : Lexeme} {rest : List Char} (h : Spelt lx rest) :
    lx.chars ≠ [] := by
  cases h with
  | int hne => exact hne
  | _ => simp

/-- A token is where its lexeme is, behind what stands in front of it. -/
theorem lexFrom_places {p : Pos} {cs : List Char} {tokens : List Token}
    (h : lexFrom p cs = .ok tokens) :
    (∀ tk ∈ tokens, ∃ before text after, cs = before ++ text ++ after ∧
      tk.lexeme = Bytes.ofChars text ∧ tk.pos = p.advanceBy before) ∧
    tokens.Pairwise fun a b => a.pos.offset < b.pos.offset := by
  fun_induction lexFrom p cs generalizing tokens with
  | case1 => cases h
  | case2 p cs gap hg =>
    cases h
    exact ⟨fun tk htk => (by cases htk), .nil⟩
  | case3 => cases h
  | case4 p cs gap c rest hg here lx after hl =>
    rename_i ih
    cases hrest : lexFrom (here.advanceBy lx.chars) after with
    | error e => rw [hrest] at h; cases h
    | ok more =>
      rw [hrest] at h
      cases h
      obtain ⟨rfl, -⟩ := splitGap_gap hg
      obtain ⟨heq, hspelt⟩ := splitLexeme_spelt hl
      obtain ⟨hplaces, hsorted⟩ := ih hrest
      rw [heq]
      refine ⟨List.forall_mem_cons.2 ⟨?_, fun tk htk => ?_⟩, List.pairwise_cons.2 ⟨?_, hsorted⟩⟩
      · exact ⟨gap, lx.chars, after, (List.append_assoc ..).symm, rfl, rfl⟩
      · obtain ⟨before, text, after', rfl, htext, hpos⟩ := hplaces tk htk
        refine ⟨gap ++ lx.chars ++ before, text, after', by simp, htext, ?_⟩
        rw [advanceBy_append, advanceBy_append]
        exact hpos
      · -- The next lexemes are behind this one, which is not empty.
        intro tk htk
        obtain ⟨before, text, after', -, -, hpos⟩ := hplaces tk htk
        have hlength := List.length_pos_iff.2 hspelt.chars_ne_nil
        have hbehind := offset_advanceBy here lx.chars
        have hnext := offset_advanceBy (here.advanceBy lx.chars) before
        rw [← hpos] at hnext
        show here.offset < tk.pos.offset
        omega

/-! ## Texts that end early -/

theorem head?_of_beginning {cs cs' : List Char} (h : cs' <+: cs) :
    ∀ c ∈ cs'.head?, c ∈ cs.head? := by
  obtain ⟨more, rfl⟩ := h
  intro c hc
  cases cs' with
  | nil => cases hc
  | cons d cs' => exact hc

/-- A lexeme is one before any beginning of what follows it, too. Only whether a name is a
function's may not be known then. -/
theorem Spelt.truncate {lx : Lexeme} {rest rest' : List Char} (h : Spelt lx rest)
    (hrest : rest' <+: rest) : ∃ lx', lx'.chars = lx.chars ∧ Spelt lx' rest' := by
  have hhead := head?_of_beginning hrest
  cases h with
  | name hstart hpart hstop =>
    exact ⟨{ kind := nameKind rest', chars := _ }, rfl,
      .name hstart hpart fun d hd => hstop d (hhead d hd)⟩
  | int hne hdigits hread hstop hpoint =>
    refine ⟨_, rfl, .int hne hdigits hread (fun d hd => hstop d (hhead d hd)) ?_⟩
    rintro d after rfl
    obtain ⟨more, rfl⟩ := hrest
    exact hpoint d _ rfl
  | real hwhole hdigits hfraction hdigits' hread hstop =>
    exact ⟨_, rfl, .real hwhole hdigits hfraction hdigits' hread fun d hd => hstop d (hhead d hd)⟩
  | string hbody hread => exact ⟨_, rfl, .string hbody hread⟩
  | sign hkind => exact ⟨_, rfl, .sign hkind⟩

theorem Gap.truncate {gap rest rest' : List Char} (h : Gap gap rest) (hrest : rest' <+: rest) :
    Gap gap rest' := by
  induction h with
  | nil => exact .nil
  | blank hc _ ih => exact .blank hc (ih hrest)
  | line hopening hbody hend _ ih =>
    refine .line hopening hbody (fun c hc => hend c ?_) (ih hrest)
    exact head?_of_beginning ((List.prefix_append_right_inj _).2 hrest) c hc
  | comment hbody _ ih => exact .comment hbody (ih hrest)

/-! ## Gaps -/

/-- A comment is closed by the first `*/` behind its opening. -/
theorem splitComment?_body {body : List Char} (h : ¬ ['*', '/'] <:+: body ++ ['*'])
    (rest : List Char) :
    splitComment? (body ++ ['*', '/'] ++ rest) = some (body ++ ['*', '/'], rest) := by
  induction body with
  | nil => rfl
  | cons c body ih =>
    rw [List.cons_append, List.infix_cons_iff, not_or] at h
    rw [List.cons_append, List.cons_append, splitComment?]
    · rw [ih h.2]
      rfl
    · rintro after rfl hslash
      refine h.1 (List.cons_prefix_cons.2 ⟨rfl, ?_⟩)
      cases body with
      | nil => cases hslash
      | cons d body =>
        obtain ⟨rfl, -⟩ := List.cons.inj hslash
        exact ⟨body ++ ['*'], rfl⟩

theorem splitLine_body {body rest : List Char} (hbody : '\n' ∉ body)
    (hend : ∀ c ∈ rest.head?, c = '\n') : splitLine (body ++ rest) = (body, rest) := by
  have hall : body.all (· != '\n') = true :=
    List.all_eq_true.2 fun c hc => by simpa using fun heq : c = '\n' => hbody (heq ▸ hc)
  have hstop : ∀ c ∈ rest.head?, (c != '\n') = false := fun c hc => by simpa using hend c hc
  obtain ⟨htake, hdrop⟩ := takeWhile_stop hall hstop
  rw [splitLine, htake, hdrop]

theorem splitGap_line_body {opening body rest gap rest' : List Char}
    (hopening : opening = ['#'] ∨ opening = ['/', '/']) (hbody : '\n' ∉ body)
    (hend : ∀ c ∈ rest.head?, c = '\n') (h : splitGap rest = .ok (gap, rest')) :
    splitGap (opening ++ body ++ rest) = .ok (opening ++ body ++ gap, rest') := by
  have hline : ∀ c, c ≠ '\n' → splitLine (c :: (body ++ rest)) = (c :: body, rest) :=
    fun c hc => splitLine_body (List.not_mem_cons_of_ne_of_not_mem hc.symm hbody) hend
  rcases hopening with rfl | rfl
  · rw [List.append_assoc, List.singleton_append, splitGap, if_neg (by decide),
      if_pos (by decide), splitLine_body hbody hend, h]
    rfl
  · rw [List.append_assoc, List.cons_append, List.singleton_append, splitGap, if_neg (by decide),
      if_neg (by decide), if_pos (by simp), hline '/' (by decide), h]
    rfl

theorem splitGap_comment_body {body rest gap rest' : List Char}
    (hbody : ¬ ['*', '/'] <:+: body ++ ['*']) (h : splitGap rest = .ok (gap, rest')) :
    splitGap (['/', '*'] ++ body ++ ['*', '/'] ++ rest) =
      .ok (['/', '*'] ++ body ++ ['*', '/'] ++ gap, rest') := by
  have hclosed := splitComment?_body hbody rest
  rw [show ['/', '*'] ++ body ++ ['*', '/'] ++ rest = '/' :: '*' :: (body ++ ['*', '/'] ++ rest) by
    simp, splitGap, if_neg (by decide), if_neg (by decide), if_neg (by simp), if_pos (by simp)]
  split
  · next closed after hc =>
    rw [List.drop_one, List.tail_cons, hclosed] at hc
    cases hc
    rw [h]
    simp [gapAfter]
  · next hc =>
    rw [List.drop_one, List.tail_cons, hclosed] at hc
    cases hc

/-- **A gap is skipped as a whole** where no further gap follows it. -/
theorem Gap.splitGap {gap rest : List Char} (h : Gap gap rest)
    (hrest : Lexer.splitGap rest = .ok ([], rest)) :
    Lexer.splitGap (gap ++ rest) = .ok (gap, rest) := by
  induction h with
  | nil => exact hrest
  | @blank c gap rest hc _ ih =>
    have hblank : isScriptBlank c = true := by simpa [isScriptBlank, or_assoc] using hc
    rw [List.cons_append, Lexer.splitGap, if_pos hblank, ih hrest]
    rfl
  | line hopening hbody hend _ ih =>
    rw [List.append_assoc]
    exact splitGap_line_body hopening hbody hend (ih hrest)
  | comment hbody _ ih =>
    rw [List.append_assoc]
    exact splitGap_comment_body hbody (ih hrest)

theorem opening_of_splitGap {c : Char} {rest : List Char}
    (h : splitGap (c :: rest) = .ok ([], c :: rest)) :
    isOpening c = true ∧ (c = '/' → rest.head? ≠ some '/' ∧ rest.head? ≠ some '*') := by
  have hno : ∀ {front : List Char} {r : Except (List Char) (List Char × List Char)}
      {rest : List Char}, front ≠ [] → gapAfter front r ≠ .ok ([], rest) := by
    intro front r rest hfront h
    obtain ⟨gap, -, hgap⟩ := gapAfter_eq_ok h
    exact hfront (List.append_eq_nil_iff.1 hgap.symm).1
  rw [splitGap] at h
  split at h
  · exact absurd h (hno (List.cons_ne_nil _ _))
  · next hblank =>
    split at h
    · exact absurd h (hno (List.cons_ne_nil _ _))
    · next hhash =>
      split at h
      · exact absurd h (hno (List.cons_ne_nil _ _))
      · next hslash =>
        split at h
        · split at h
          · exact absurd h (hno (List.cons_ne_nil _ _))
          · cases h
        · next hstar =>
          refine ⟨by simpa [isOpening, hblank] using hhash, ?_⟩
          rintro rfl
          exact ⟨by simpa using hslash, by simpa using hstar⟩

/-- Behind a gap that was skipped there is none. -/
theorem splitGap_again {cs gap rest : List Char} (h : splitGap cs = .ok (gap, rest)) :
    splitGap rest = .ok ([], rest) := by
  fun_induction splitGap cs generalizing gap rest with
  | case1 =>
    cases h
    rw [splitGap]
  | case2 c cs hblank ih =>
    obtain ⟨gap', hr, -⟩ := gapAfter_eq_ok h
    exact ih hr
  | case3 c cs hblank hhash ih =>
    obtain ⟨gap', hr, -⟩ := gapAfter_eq_ok h
    exact ih hr
  | case4 c cs hblank hhash hslash ih =>
    obtain ⟨gap', hr, -⟩ := gapAfter_eq_ok h
    exact ih hr
  | case5 c cs hblank hhash hslash hstar body after hc ih =>
    obtain ⟨gap', hr, -⟩ := gapAfter_eq_ok h
    exact ih hr
  | case6 => cases h
  | case7 c cs hblank hhash hslash hstar =>
    cases h
    rw [splitGap, if_neg hblank, if_neg hhash, if_neg hslash, if_neg hstar]

/-- What is skipped does not depend on how far the text goes behind it. -/
theorem splitGap_truncate {cs gap rest rest' : List Char} (h : splitGap cs = .ok (gap, rest))
    (hrest : rest' <+: rest) : splitGap (gap ++ rest') = .ok (gap, rest') := by
  refine ((splitGap_gap h).2.truncate hrest).splitGap ?_
  cases rest' with
  | nil => rw [splitGap]
  | cons c rest' =>
    obtain ⟨more, rfl⟩ := hrest
    obtain ⟨hc, hcomment⟩ := opening_of_splitGap (splitGap_again h)
    refine splitGap_opening hc fun hslash => ?_
    have hhead := head?_of_beginning (List.prefix_append rest' more)
    exact ⟨fun h => (hcomment hslash).1 (hhead _ h), fun h => (hcomment hslash).2 (hhead _ h)⟩

/-! ## Faults -/

/-- What a text begins with where a fault is reported. -/
inductive Offends : LexFault → List Char → Prop where
  | unexpected {c : Char} {rest : List Char} (hopening : isOpening c = true)
      (hstart : isTokenStart c = false) : Offends (.unexpected c) (c :: rest)
  | integer {digits rest : List Char} (hne : digits ≠ [])
      (hdigits : digits.all isAsciiDigit = true) (hread : readInteger? digits = none)
      (hstop : ∀ d ∈ rest.head?, isAsciiDigit d = false) :
      Offends (.integerRange (Bytes.ofChars digits)) (digits ++ rest)
  | real {whole fraction rest : List Char} (hwhole : whole ≠ [])
      (hdigits : whole.all isAsciiDigit = true) (hfraction : fraction ≠ [])
      (hdigits' : fraction.all isAsciiDigit = true)
      (hread : readReal? (whole ++ '.' :: fraction) = none)
      (hstop : ∀ d ∈ rest.head?, isAsciiDigit d = false) :
      Offends (.badReal (Bytes.ofChars (whole ++ '.' :: fraction))) (whole ++ '.' :: fraction ++ rest)
  | string {body rest : List Char} (hbody : Enclosed body)
      (hread : Quoted.unquoteBody? body = none) :
      Offends (.badString (Bytes.ofChars ('"' :: body ++ ['"']))) ('"' :: body ++ ['"'] ++ rest)
  /-- A string that nothing closes. -/
  | openString {rest : List Char} (h : ∀ body after, Enclosed body → rest ≠ body ++ '"' :: after) :
      Offends .unterminatedString ('"' :: rest)
  /-- A comment that nothing closes. -/
  | openComment {rest : List Char} (h : ¬ ['*', '/'] <:+: rest) :
      Offends .unterminatedComment ('/' :: '*' :: rest)

/-- Gaps and lexemes that stand before a text, each judged with all that follows it. -/
inductive Scanned : List Char → List Char → Prop where
  | gap {gap text : List Char} (hgap : Gap gap text) : Scanned gap text
  | lexeme {gap before text : List Char} {lx : Lexeme} (hgap : Gap gap (lx.chars ++ (before ++ text)))
      (hspelt : Spelt lx (before ++ text)) (h : Scanned before text) :
      Scanned (gap ++ lx.chars ++ before) text

theorem splitNumber_offends {cs : List Char} {fault : LexFault}
    (hne : cs.takeWhile isAsciiDigit ≠ []) (h : splitNumber cs = .error fault) :
    Offends fault cs := by
  have hsplit : cs.takeWhile isAsciiDigit ++ cs.dropWhile isAsciiDigit = cs :=
    List.takeWhile_append_dropWhile
  have hstop : ∀ d ∈ (cs.dropWhile isAsciiDigit).head?, isAsciiDigit d = false := head_dropWhile
  unfold splitNumber at h
  dsimp only at h
  generalize cs.dropWhile isAsciiDigit = tail at h hsplit hstop
  split at h
  · next hpoint =>
    obtain ⟨hhead, hfraction⟩ := Bool.and_eq_true_iff.1 hpoint
    obtain ⟨tail, rfl⟩ := List.head?_eq_some_iff.1 (eq_of_beq hhead)
    rw [List.drop_one, List.tail_cons] at h hfraction
    cases hread : readReal? (cs.takeWhile isAsciiDigit ++ '.' :: tail.takeWhile isAsciiDigit) with
    | some x => rw [hread] at h; cases h
    | none =>
      rw [hread] at h
      cases h
      have hcs : cs.takeWhile isAsciiDigit ++ '.' :: tail.takeWhile isAsciiDigit ++
          tail.dropWhile isAsciiDigit = cs := by
        simpa using hsplit
      have hoffends := Offends.real hne List.all_takeWhile (by simpa using hfraction)
        List.all_takeWhile hread (@head_dropWhile isAsciiDigit tail)
      rwa [hcs] at hoffends
  · cases hread : readInteger? (cs.takeWhile isAsciiDigit) with
    | some n => rw [hread] at h; cases h
    | none =>
      rw [hread] at h
      cases h
      have hoffends := Offends.integer hne List.all_takeWhile hread hstop
      rwa [hsplit] at hoffends

theorem splitText_offends {cs : List Char} {fault : LexFault} (h : splitText cs = .error fault) :
    Offends fault ('"' :: cs) := by
  unfold splitText at h
  cases hs : splitString? cs with
  | none =>
    rw [hs] at h
    cases h
    refine .openString fun body after hbody heq => ?_
    rw [heq, hbody.splitString?] at hs
    cases hs
  | some r =>
    obtain ⟨body, tail⟩ := r
    rw [hs] at h
    dsimp only at h
    cases hu : Quoted.unquoteBody? body with
    | some t => rw [hu] at h; cases h
    | none =>
      rw [hu] at h
      cases h
      obtain ⟨rfl, hbody⟩ := splitString?_enclosed hs
      exact .string hbody hu

theorem splitLexeme_offends {c : Char} {rest : List Char} {fault : LexFault}
    (hc : isOpening c = true) (h : splitLexeme c rest = .error fault) :
    Offends fault (c :: rest) := by
  unfold splitLexeme at h
  by_cases hquote : (c == '"') = true
  · rw [if_pos hquote] at h
    obtain rfl := eq_of_beq hquote
    exact splitText_offends h
  rw [if_neg hquote] at h
  cases hsign : signKind? c with
  | some kind => rw [hsign] at h; cases h
  | none =>
    rw [hsign] at h
    dsimp only at h
    by_cases hdigit : isAsciiDigit c = true
    · rw [if_pos hdigit] at h
      exact splitNumber_offends (by simp [hdigit]) h
    rw [if_neg hdigit] at h
    by_cases hname : isNameStart c = true
    · rw [if_pos hname] at h
      cases h
    · rw [if_neg hname] at h
      cases h
      refine .unexpected hc ?_
      simp [isTokenStart, hquote, hsign, hdigit, hname]

/-- A gap lexes by itself. -/
theorem Gap.lexFrom {gap text : List Char} (h : Gap gap text) (p : Pos) :
    Lexer.lexFrom p gap = .ok [] := by
  have hskip := (h.truncate List.nil_prefix).splitGap (by rw [Lexer.splitGap])
  rw [List.append_nil] at hskip
  exact lexFrom_end p hskip

/-- **An error is where the text at fault begins**, and what stands in front of it has been read. -/
theorem lexFrom_offends {p : Pos} {cs : List Char} {e : LexError} (h : lexFrom p cs = .error e) :
    ∃ before text, cs = before ++ text ∧ e.pos = p.advanceBy before ∧ Offends e.fault text ∧
      Scanned before text ∧ ∀ q, ∃ tokens, lexFrom q before = .ok tokens := by
  fun_induction lexFrom p cs generalizing e with
  | case1 p cs before hg =>
    cases h
    obtain ⟨body, rfl, hbody, hgap⟩ := splitGap_open hg
    exact ⟨before, _, rfl, rfl, .openComment hbody, .gap hgap,
      fun q => ⟨[], hgap.lexFrom q⟩⟩
  | case2 p cs gap hg => cases h
  | case3 p cs gap c rest hg here fault =>
    rename_i hl
    cases h
    have hopening := (opening_of_splitGap (splitGap_again hg)).1
    obtain ⟨rfl, hgap⟩ := splitGap_gap hg
    exact ⟨gap, _, rfl, rfl, splitLexeme_offends hopening hl, .gap hgap,
      fun q => ⟨[], hgap.lexFrom q⟩⟩
  | case4 p cs gap c rest hg here lx after hl =>
    rename_i ih
    cases hrest : lexFrom (here.advanceBy lx.chars) after with
    | ok more => rw [hrest] at h; cases h
    | error e' =>
      rw [hrest] at h
      cases h
      obtain ⟨before, text, rfl, hpos, hoffends, hscanned, hreads⟩ := ih hrest
      obtain ⟨heq, hspelt⟩ := splitLexeme_spelt hl
      obtain ⟨hcs, hgap⟩ := splitGap_gap hg
      rw [heq] at hcs hgap
      -- What is in front lexes also without the text at fault behind it.
      obtain ⟨lx', hchars, hspelt'⟩ := hspelt.truncate (List.prefix_append before text)
      obtain ⟨d, lexeme, hcons⟩ := List.exists_cons_of_ne_nil hspelt'.chars_ne_nil
      have hskip : splitGap (gap ++ (d :: (lexeme ++ before))) =
          .ok (gap, d :: (lexeme ++ before)) := by
        refine splitGap_truncate hg ⟨text, ?_⟩
        rw [heq, ← hchars, hcons]
        simp
      have hlexeme : splitLexeme d (lexeme ++ before) = .ok (lx', before) :=
        hspelt'.splitLexeme (by rw [hcons]; rfl)
      refine ⟨gap ++ lx.chars ++ before, text, ?_, ?_, hoffends, .lexeme hgap hspelt hscanned,
        fun q => ?_⟩
      · rw [hcs]
        simp
      · rw [advanceBy_append, advanceBy_append]
        exact hpos
      · obtain ⟨tokens, htokens⟩ := hreads ((q.advanceBy gap).advanceBy lx'.chars)
        rw [← hchars, hcons, List.append_assoc, List.cons_append, lexFrom_lexeme q hskip hlexeme,
          htokens]
        exact ⟨_, rfl⟩

end Lexer

/-- **Tokens and errors are where their text begins.** The offset of a place counts the characters
before it, its line the line ends among them, and its column those behind the last line end. Tokens
come in the order of their offsets. An error stands behind gaps and lexemes, a text that lexes by
itself, where the string, comment, number or character that it reports begins. -/
theorem lex_places (source : Bytes) :
    match lex source with
    | .ok tokens =>
      (∀ tk ∈ tokens, ∃ before text after, source.chars = before ++ text ++ after ∧
        tk.lexeme = Bytes.ofChars text ∧ tk.pos.Behind before) ∧
      tokens.Pairwise fun a b => a.pos.offset < b.pos.offset
    | .error e =>
      ∃ before text, source.chars = before ++ text ∧ e.pos.Behind before ∧
        Lexer.Scanned before text ∧ (∃ tokens, lex (Bytes.ofChars before) = .ok tokens) ∧
        Lexer.Offends e.fault text := by
  cases hlex : lex source with
  | ok tokens =>
    obtain ⟨hplaces, hsorted⟩ := Lexer.lexFrom_places hlex
    refine ⟨fun tk htk => ?_, hsorted⟩
    obtain ⟨before, text, after, hchars, hlexeme, hpos⟩ := hplaces tk htk
    exact ⟨before, text, after, hchars, hlexeme, hpos ▸ Pos.behind_advanceBy before⟩
  | error e =>
    obtain ⟨before, text, hchars, hpos, hoffends, hscanned, hreads⟩ := Lexer.lexFrom_offends hlex
    refine ⟨before, text, hchars, hpos ▸ Pos.behind_advanceBy before, hscanned, ?_, hoffends⟩
    rw [lex, Bytes.chars_ofChars]
    exact hreads .start

end ChartScript
