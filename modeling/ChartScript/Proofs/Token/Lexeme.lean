import ChartScript.Proofs.Token.Spelling

/-!
# Tokens and how they are written

`Written tk cs` says that `tk` is a token as the lexer makes them and that `source` writes it with
the characters `cs`. Every token of a source is written in some way (`lexFrom_written`), and what
was written is read again as the same token, if what follows does not join it
(`Written.splitLexeme`). What may follow depends on the kind alone: that is `Stops`.
-/

set_option autoImplicit false

namespace ChartScript
namespace Lexer

open Text

/-! ## Signs and gaps -/

/-- A sign is its own name. -/
theorem name_of_signKind? {c : Char} {k : Kind} (h : signKind? c = some k) :
    k.name.toList = [c] := by
  unfold signKind? at h
  split at h
  all_goals cases h
  all_goals rfl

/-- A character that belongs to no gap, a `/` apart. -/
def isOpening (c : Char) : Bool := !isScriptBlank c && c != '#'

theorem isOpening_iff (c : Char) :
    isOpening c = true ↔ (c ≠ ' ' ∧ c ≠ '\t' ∧ c ≠ '\n' ∧ c ≠ '\r') ∧ c ≠ '#' := by
  simp [isOpening, isScriptBlank, and_assoc]

theorem isOpening_of_toNat {c : Char} (h : 0x23 < c.toNat) : isOpening c = true := by
  rw [isOpening_iff]
  refine ⟨⟨?_, ?_, ?_, ?_⟩, ?_⟩
  all_goals
    rintro rfl
    revert h
    decide

theorem opening_of_isAsciiDigit {c : Char} (h : isAsciiDigit c = true) :
    isOpening c = true ∧ c ≠ '(' ∧ c ≠ '/' := by
  rw [isAsciiDigit_iff] at h
  refine ⟨isOpening_of_toNat (by omega), ?_, ?_⟩
  all_goals
    rintro rfl
    exact absurd h (by decide)

/-! ## How tokens are written -/

/-- A token of a source, and the characters `source` writes it with. -/
inductive Written : Token → List Char → Prop where
  | int {digits : List Char} {n : Int64} {pos : Pos} (hne : digits ≠ [])
      (hdigits : digits.all isAsciiDigit = true) (hread : readInteger? digits = some n) :
      Written ⟨.int, Bytes.ofChars digits, .integer n, pos⟩ digits
  | real {whole fraction : List Char} {x : Float} {pos : Pos} (hwhole : whole ≠ [])
      (hdigits : whole.all isAsciiDigit = true) (hfraction : fraction ≠ [])
      (hdigits' : fraction.all isAsciiDigit = true)
      (hread : readReal? (whole ++ '.' :: fraction) = some x) :
      Written ⟨.real, Bytes.ofChars (whole ++ '.' :: fraction), .real x, pos⟩
        (whole ++ '.' :: fraction)
  | string {lexeme t : Bytes} {pos : Pos} :
      Written ⟨.string, lexeme, .text t, pos⟩ (Quoted.quoteChars t)
  | name {kind : Kind} {c : Char} {cs : List Char} {pos : Pos}
      (hkind : kind = .symbol ∨ kind = .func) (hstart : isNameStart c = true)
      (hpart : cs.all isNamePart = true) :
      Written ⟨kind, Bytes.ofChars (c :: cs), .nil, pos⟩ (c :: cs)
  | sign {kind : Kind} {c : Char} {pos : Pos} (h : signKind? c = some kind) :
      Written ⟨kind, Bytes.ofChars [c], .nil, pos⟩ [c]

theorem Written.source {tk : Token} {cs : List Char} (h : Written tk cs) :
    tk.source = Bytes.ofChars cs := by
  cases h with
  | int hne hdigits hread => rfl
  | real hwhole hdigits hfraction hdigits' hread => rfl
  | string => rfl
  | name hkind hstart hpart => rcases hkind with rfl | rfl <;> rfl
  | @sign kind c pos h =>
    rw [← name_of_signKind? h]
    unfold signKind? at h
    split at h
    all_goals cases h
    all_goals rfl

theorem Written.chars_source {tk : Token} {cs : List Char} (h : Written tk cs) :
    tk.source.chars = cs := by
  rw [h.source, Bytes.chars_ofChars]

/-- What is written begins with a character that belongs to no gap, which is `(` for that sign
only. -/
theorem Written.opening {tk : Token} {cs : List Char} (h : Written tk cs) :
    ∃ c rest, cs = c :: rest ∧ isOpening c = true ∧ (c = '(' → tk.kind = .leftParen) ∧
      (c = '/' → tk.kind = .divide ∧ rest = []) := by
  cases h with
  | @int digits n pos hne hdigits hread =>
    obtain ⟨c, rest, rfl⟩ := List.exists_cons_of_ne_nil hne
    obtain ⟨hopen, hparen, hslash⟩ :=
      opening_of_isAsciiDigit (List.all_eq_true.1 hdigits c List.mem_cons_self)
    exact ⟨c, rest, rfl, hopen, fun h => absurd h hparen, fun h => absurd h hslash⟩
  | @real whole fraction x pos hwhole hdigits hfraction hdigits' hread =>
    obtain ⟨c, rest, rfl⟩ := List.exists_cons_of_ne_nil hwhole
    obtain ⟨hopen, hparen, hslash⟩ :=
      opening_of_isAsciiDigit (List.all_eq_true.1 hdigits c List.mem_cons_self)
    exact ⟨c, rest ++ '.' :: fraction, rfl, hopen, fun h => absurd h hparen,
      fun h => absurd h hslash⟩
  | string =>
    exact ⟨_, _, rfl, by decide, fun h => absurd h (by decide), fun h => absurd h (by decide)⟩
  | @name kind c cs pos hkind hstart hpart =>
    have hc := le_toNat_of_isNameStart hstart
    refine ⟨c, cs, rfl, isOpening_of_toNat (by omega), ?_, ?_⟩
    all_goals
      rintro rfl
      exact absurd hc (by decide)
  | @sign kind c pos h =>
    refine ⟨c, [], rfl, ?_, ?_, ?_⟩
    · unfold signKind? at h
      split at h
      all_goals cases h
      all_goals decide
    · rintro rfl
      exact (Option.some.inj h).symm
    · rintro rfl
      exact ⟨(Option.some.inj h).symm, rfl⟩

/-! ## Every token is written in some way -/

theorem Spelt.written {lx : Lexeme} {rest : List Char} (h : Spelt lx rest) (pos : Pos) :
    ∃ text, Written ⟨lx.kind, Bytes.ofChars lx.chars, lx.value, pos⟩ text := by
  cases h with
  | name hstart hpart hstop =>
    refine ⟨_, .name ?_ hstart hpart⟩
    dsimp only
    unfold nameKind
    split
    · exact .inr rfl
    · exact .inl rfl
  | int hne hdigits hread hstop hpoint => exact ⟨_, .int hne hdigits hread⟩
  | real hwhole hdigits hfraction hdigits' hread hstop =>
    exact ⟨_, .real hwhole hdigits hfraction hdigits' hread⟩
  | string hbody hread => exact ⟨_, .string⟩
  | sign hkind => exact ⟨_, .sign hkind⟩

/-- **Every token of a source is one that is written in some way.** -/
theorem lexFrom_written {p : Pos} {cs : List Char} {tokens : List Token}
    (h : lexFrom p cs = .ok tokens) : ∀ tk ∈ tokens, ∃ text, Written tk text := by
  fun_induction lexFrom p cs generalizing tokens with
  | case1 => cases h
  | case2 =>
    cases h
    intro tk htk
    cases htk
  | case3 => cases h
  | case4 p cs gap c rest hg here lx after hl =>
    rename_i ih
    cases hrest : lexFrom (here.advanceBy lx.chars) after with
    | error e => rw [hrest] at h; cases h
    | ok more =>
      rw [hrest] at h
      cases h
      intro tk htk
      rcases List.mem_cons.1 htk with rfl | htk
      · exact (splitLexeme_spelt hl).2.written _
      · exact ih hrest tk htk

/-! ## What may follow a token -/

/-- Signs and blanks that end numbers and names: what a statement's text has behind a token that is
neither a function's name nor `(`. -/
def isEnd (c : Char) : Bool := c == ' ' || c == ')' || c == ',' || c == ';'

/-- What may follow a token of a kind for the token to be read as it was written. -/
def Stops : Kind → List Char → Prop
  | .func, rest => rest.head? = some '('
  | .leftParen, _ => True
  | .symbol, rest => rest.head?.any isEnd = true ∧ nameKind rest = .symbol
  | _, rest => rest.head?.any isEnd = true

theorem Stops.of_end {kind : Kind} {rest : List Char} (hkind : kind ≠ .func)
    (hend : rest.head?.any isEnd = true) (hname : nameKind rest = .symbol) : Stops kind rest := by
  cases kind with
  | func => exact absurd rfl hkind
  | leftParen => trivial
  | symbol => exact ⟨hend, hname⟩
  | _ => exact hend

theorem isAsciiDigit_of_isEnd {c : Char} (h : isEnd c = true) : isAsciiDigit c = false := by
  rcases (by simpa [isEnd, or_assoc] using h : c = ' ' ∨ c = ')' ∨ c = ',' ∨ c = ';') with
    rfl | rfl | rfl | rfl <;> decide

theorem isNamePart_of_isEnd {c : Char} (h : isEnd c = true) : isNamePart c = false := by
  rcases (by simpa [isEnd, or_assoc] using h : c = ' ' ∨ c = ')' ∨ c = ',' ∨ c = ';') with
    rfl | rfl | rfl | rfl <;> decide +kernel

theorem head_of_isEnd {rest : List Char} (h : rest.head?.any isEnd = true) :
    ∃ c after, rest = c :: after ∧ isEnd c = true := by
  cases rest with
  | nil => cases h
  | cons c after => exact ⟨c, after, rfl, by simpa using h⟩

/-! ## Reading what was written -/

theorem enclosed_plain {cs body : List Char} (h : cs.all Quoted.isPlain = true)
    (hbody : Enclosed body) : Enclosed (cs ++ body) := by
  induction cs with
  | nil => exact hbody
  | cons c cs ih =>
    obtain ⟨hc, hcs⟩ := Bool.and_eq_true_iff.1 h
    exact .plain hc (ih hcs)

/-- The pieces of a quoted text do not close it. -/
theorem enclosed_spells {cs body : List Char} {bs : Bytes} (h : Quoted.Spells cs bs)
    (hbody : Enclosed body) : Enclosed (cs ++ body) := by
  cases h with
  | plain h => exact .plain h hbody
  | escape hdigits h => exact .escape (enclosed_plain hdigits hbody)

theorem enclosed_escaped (ps : List Piece) : Enclosed (ps.flatMap (Quoted.escapePiece '"')) := by
  induction ps with
  | nil => exact .nil
  | cons p ps ih =>
    rw [List.flatMap_cons]
    exact enclosed_spells (Quoted.escapePiece_spells p) ih

theorem not_of_isEnd {p : Char → Bool} {rest : List Char} (hp : ∀ c, isEnd c = true → p c = false)
    (h : rest.head?.any isEnd = true) : ∀ d ∈ rest.head?, p d = false := by
  obtain ⟨c, after, rfl, hc⟩ := head_of_isEnd h
  intro d hd
  obtain rfl : c = d := by simpa using hd
  exact hp c hc

/-- Neither the end of a symbol nor the `(` of a call is part of a name. -/
theorem Stops.name {kind : Kind} {rest : List Char} (hkind : kind = .symbol ∨ kind = .func)
    (hstop : Stops kind rest) :
    (∀ d ∈ rest.head?, isNamePart d = false) ∧ nameKind rest = kind := by
  rcases hkind with rfl | rfl
  · exact ⟨not_of_isEnd (fun _ => isNamePart_of_isEnd) hstop.1, hstop.2⟩
  · cases rest with
    | nil => cases hstop
    | cons d after =>
      obtain rfl : d = '(' := by simpa [Stops] using hstop
      refine ⟨fun d' hd' => ?_, rfl⟩
      obtain rfl : '(' = d' := by simpa using hd'
      decide +kernel

theorem Written.spelt {tk : Token} {text rest : List Char} (h : Written tk text)
    (hstop : Stops tk.kind rest) : Spelt ⟨tk.kind, text, tk.value⟩ rest := by
  cases h with
  | int hne hdigits hread =>
    refine .int hne hdigits hread (not_of_isEnd (fun _ => isAsciiDigit_of_isEnd) hstop) ?_
    rintro d after rfl
    have hpoint : isEnd '.' = true := hstop
    exact absurd hpoint (by decide)
  | real hwhole hdigits hfraction hdigits' hread =>
    exact .real hwhole hdigits hfraction hdigits' hread
      (not_of_isEnd (fun _ => isAsciiDigit_of_isEnd) hstop)
  | string => exact .string (enclosed_escaped _) (Quoted.unquoteBody?_escaped _)
  | name hkind hstart hpart =>
    obtain ⟨hhead, hname⟩ := hstop.name hkind
    subst hname
    exact .name hstart hpart hhead
  | sign h => exact .sign h

/-- **A token is read as it was written**, if what follows stops it. -/
theorem Written.splitLexeme {tk : Token} {c : Char} {cs rest : List Char}
    (h : Written tk (c :: cs)) (hstop : Stops tk.kind rest) :
    Lexer.splitLexeme c (cs ++ rest) = .ok (⟨tk.kind, c :: cs, tk.value⟩, rest) :=
  (h.spelt hstop).splitLexeme rfl

/-- Only a string may have another lexeme than what is written. -/
theorem Written.lexeme {tk : Token} {text : List Char} (h : Written tk text)
    (hkind : tk.kind ≠ .string) : Bytes.ofChars text = tk.lexeme := by
  cases h with
  | string => exact absurd rfl hkind
  | _ => rfl

end Lexer
end ChartScript
