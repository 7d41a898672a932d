import ChartScript.Data.Datum
import ChartScript.Proofs.Data.Number
import ChartScript.Proofs.Text.Quoted
import ChartScript.Proofs.Token.Spelling

/-!
# Data is read back

What is written of a value is cut into the tokens of that value again (`Datum.write_reads`),
whatever bytes its texts and names hold and however deep it goes: each text is one token, so nothing
in it can be taken for a mark. No character of what is written is a control character.

`Spells` says this of characters and of any end that may follow them. It is kept by putting marks in
front and by putting one piece behind another, as lists and objects are written.
-/

set_option autoImplicit false

namespace ChartScript

open Text

/-- What replaces each element of a list by some makes it no shorter. -/
theorem length_le_flatMap {α β : Type} {f : α → List β} (h : ∀ a, 0 < (f a).length) (as : List α) :
    as.length ≤ (as.flatMap f).length := by
  rw [List.length_flatMap, ← List.length_map (f := fun a => (f a).length)]
  exact List.length_le_sum_of_one_le _ fun n hn => by
    obtain ⟨a, -, rfl⟩ := List.mem_map.1 hn
    exact h a

/-! ## The tokens of a value -/

namespace Datum

mutual

/-- The tokens of a value. A text keeps its characters; what is no UTF-8 in it is U+FFFD. -/
def tokens : Datum → List JsonToken
  | .null => [.null]
  | .bool b => [.bool b]
  | .int _ => [.number]
  | .real _ => [.number]
  | .text t => [.text t.scrubbed]
  | .list items => .openArray :: [JsonToken.comma].intercalate (tokensAll items) ++ [.closeArray]
  | .object fields =>
    .openObject :: [JsonToken.comma].intercalate (tokensFields fields) ++ [.closeObject]

/-- The tokens of the values of a list. -/
def tokensAll : List Datum → List (List JsonToken)
  | [] => []
  | d :: rest => d.tokens :: tokensAll rest

/-- The tokens of the fields of an object. -/
def tokensFields : List (Bytes × Datum) → List (List JsonToken)
  | [] => []
  | (name, d) :: rest => (.text name.scrubbed :: .colon :: d.tokens) :: tokensFields rest

end

end Datum

/-! ## Characters that spell tokens -/

namespace JsonToken

variable {cs cs' : List Char} {toks toks' : List JsonToken}

/-- Whether a character is no control character. -/
def isVisible (c : Char) : Bool := 0x20 ≤ c.toNat

theorem isVisible_iff (c : Char) : isVisible c = true ↔ 0x20 ≤ c.toNat := decide_eq_true_iff

/-- Characters that are cut into tokens, whatever end of a value may follow. -/
structure Spells (cs : List Char) (toks : List JsonToken) : Prop where
  visible : cs.all isVisible = true
  length : toks.length ≤ cs.length
  cuts : ∀ rest, Ends rest → ∀ fuel,
    allFrom (fuel + toks.length) (cs ++ rest) = (allFrom fuel rest).map (toks ++ ·)

/-- A character that is a token by itself. -/
structure IsMark (c : Char) (tk : JsonToken) : Prop where
  visible : isVisible c = true
  blank : isBlank c = false
  next : ∀ rest, next? (c :: rest) = some (tk, rest)

theorem isMark_openObject : IsMark '\x7b' .openObject := ⟨rfl, rfl, fun _ => rfl⟩

theorem isMark_closeObject : IsMark '\x7d' .closeObject := ⟨rfl, rfl, fun _ => rfl⟩

theorem isMark_openArray : IsMark '[' .openArray := ⟨rfl, rfl, fun _ => rfl⟩

theorem isMark_closeArray : IsMark ']' .closeArray := ⟨rfl, rfl, fun _ => rfl⟩

theorem isMark_colon : IsMark ':' .colon := ⟨rfl, rfl, fun _ => rfl⟩

theorem isMark_comma : IsMark ',' .comma := ⟨rfl, rfl, fun _ => rfl⟩

/-- One token is cut off the front. -/
theorem allFrom_cons {c : Char} {rest after : List Char} {tk : JsonToken} (hc : isBlank c = false)
    (h : next? (c :: rest) = some (tk, after)) (fuel : Nat) :
    allFrom (fuel + 1) (c :: rest) = (allFrom fuel after).map (tk :: ·) := by
  have hstop : (c :: rest).dropWhile isBlank = c :: rest :=
    List.dropWhile_cons_of_neg (Bool.eq_false_iff.1 hc)
  rw [allFrom, hstop]
  dsimp only
  rw [h, Option.bind_some]

namespace Spells

theorem nil : Spells [] [] where
  visible := rfl
  length := le_rfl
  cuts _ _ _ := Option.map_id'.symm

/-- One token that a value may begin with or be. -/
theorem token {c : Char} {tk : JsonToken} (hc : isBlank c = false)
    (hvisible : (c :: cs).all isVisible = true)
    (h : ∀ rest, Ends rest → next? (c :: (cs ++ rest)) = some (tk, rest)) :
    Spells (c :: cs) [tk] where
  visible := hvisible
  length := Nat.le_add_left 1 cs.length
  cuts rest hrest fuel := allFrom_cons hc (h rest hrest) fuel

theorem cons {c : Char} {tk : JsonToken} (hc : IsMark c tk) (h : Spells cs toks) :
    Spells (c :: cs) (tk :: toks) where
  visible := by rw [List.all_cons, hc.visible, h.visible, Bool.and_self]
  length := Nat.succ_le_succ h.length
  cuts rest hrest fuel := by
    rw [List.length_cons, ← Nat.add_assoc, List.cons_append, allFrom_cons hc.blank (hc.next _),
      h.cuts rest hrest, Option.map_map]
    rfl

/-- What is put behind may follow a value. -/
theorem append (h : Spells cs toks) (h' : Spells cs' toks') (hends : Ends cs') :
    Spells (cs ++ cs') (toks ++ toks') where
  visible := by rw [List.all_append, h.visible, h'.visible, Bool.and_self]
  length := by
    rw [List.length_append, List.length_append]
    exact Nat.add_le_add h.length h'.length
  cuts rest hrest fuel := by
    rw [List.length_append, Nat.add_comm toks.length, ← Nat.add_assoc, List.append_assoc,
      h.cuts _ (hends.append hrest), h'.cuts rest hrest, Option.map_map]
    congr 1
    funext more
    exact (List.append_assoc toks toks' more).symm

end Spells

/-! ## Texts -/

/-- The characters of a string that stand for one character. -/
inductive Shows : List Char → Char → Prop where
  | plain {c : Char} (hvisible : isVisible c = true) (hquote : c ≠ '"') (hback : c ≠ '\\') :
      Shows [c] c
  | escape {c : Char} {letters : List Char} (hvisible : letters.all isVisible = true)
      (h : ∀ rest, unescape? (letters ++ rest) = some (c, rest)) : Shows ('\\' :: letters) c

theorem Shows.visible {c : Char} (h : Shows cs c) : cs.all isVisible = true := by
  cases h with
  | plain hvisible => rw [List.all_cons, hvisible, List.all_nil, Bool.and_self]
  | escape hvisible => exact hvisible

theorem Shows.string? {c : Char} (h : Shows cs c) (fuel : Nat) (rest : List Char) :
    string? (fuel + 1) (cs ++ rest) =
      (JsonToken.string? fuel rest).map fun (more, left) => (c :: more, left) := by
  cases h with
  | plain hvisible hquote hback =>
    rw [List.singleton_append, JsonToken.string?, if_neg (by simpa using hquote),
      if_neg (by simpa using hback), if_neg (not_lt.2 ((isVisible_iff c).1 hvisible))]
  | escape hvisible h =>
    rw [List.cons_append, JsonToken.string?, if_neg (by decide),
      if_pos (beq_self_eq_true _), h, Option.bind_some]

theorem Shows.length_pos {c : Char} (h : Shows cs c) : 0 < cs.length := by
  cases h <;> exact Nat.succ_pos _

/-- The escape of one letter. -/
theorem shows_letter {c letter : Char} (hvisible : [letter].all isVisible = true)
    (h : ∀ rest, unescape? (letter :: rest) = some (c, rest)) : Shows ['\\', letter] c :=
  .escape hvisible h

theorem isVisible_digitChar : ∀ d, d < 16 → isVisible (Nat.digitChar d) = true := by decide

/-- A code unit that is a character by itself. -/
theorem shows_unit {c : Char} (h : c.toNat < 16 ^ 4) :
    Shows ('\\' :: 'u' :: Quoted.hexDigits 4 c.toNat) c := by
  refine .escape (Quoted.all_hexDigits isVisible_digitChar (by decide) h) fun rest => ?_
  -- A character is no surrogate, so no second half is looked for.
  have hunit : ¬(0xD800 ≤ c.toNat && c.toNat < 0xDC00) = true := by
    have hc := Bytes.toNat_bounds c
    rw [Bool.and_eq_true, decide_eq_true_iff, decide_eq_true_iff]
    omega
  rw [List.cons_append, unescape?, unit?, Quoted.readDigits?_hexDigits (by decide) h,
    Option.map_some]
  dsimp only
  rw [unitChar, if_neg hunit, Quoted.charOfCode?_toNat, Option.getD_some]

theorem escapeChar_shows (c : Char) : Shows (Datum.escapeChar c) c := by
  unfold Datum.escapeChar
  split
  -- Seven characters have a letter of their own.
  iterate 7 exact shows_letter rfl fun rest => rfl
  next hquote hback _ _ _ _ _ =>
    split
    · next hunit =>
      refine shows_unit ?_
      simp only [Bool.or_eq_true, decide_eq_true_iff, beq_iff_eq] at hunit
      rcases hunit with ((((hlow | rfl) | rfl) | rfl) | rfl) | rfl
      · omega
      all_goals decide
    · next hplain =>
      simp only [Bool.or_eq_true, decide_eq_true_iff, not_or, not_lt] at hplain
      exact .plain (decide_eq_true hplain.1.1.1.1.1) hquote hback

/-- **A text is read back**, up to the quote that closes it. -/
theorem string?_escaped (cs : List Char) {fuel : Nat} (hfuel : cs.length < fuel)
    (rest : List Char) :
    string? fuel (cs.flatMap Datum.escapeChar ++ '"' :: rest) = some (cs, rest) := by
  -- Each character takes one unit of fuel, however many it is written with.
  obtain ⟨fuel, rfl⟩ := Nat.exists_eq_add_of_le' (Nat.zero_lt_of_lt hfuel)
  induction cs generalizing fuel with
  | nil => rfl
  | cons c cs ih =>
    rw [List.length_cons] at hfuel
    obtain ⟨fuel, rfl⟩ := Nat.exists_eq_add_of_le' (show 1 ≤ fuel by omega)
    rw [List.flatMap_cons, List.append_assoc, (escapeChar_shows c).string?, ih fuel (by omega)]
    rfl

/-- The characters of a quoted text. -/
theorem spells_quoted (t : Bytes) :
    Spells ('"' :: (t.chars.flatMap Datum.escapeChar ++ ['"'])) [.text t.scrubbed] := by
  refine .token rfl ?_ fun rest _ => ?_
  · have hbody : (t.chars.flatMap Datum.escapeChar).all isVisible = true := by
      rw [List.all_flatMap]
      exact List.all_eq_true.2 fun c _ => (escapeChar_shows c).visible
    rw [List.all_cons, List.all_append, hbody]
    rfl
  · have hfuel : t.chars.length <
        (t.chars.flatMap Datum.escapeChar ++ '"' :: rest).length + 1 := by
      have hlength := length_le_flatMap (fun c => (escapeChar_shows c).length_pos) t.chars
      rw [List.length_append]
      omega
    rw [List.append_assoc, List.singleton_append, next?, string?_escaped _ hfuel]
    rfl

/-! ## Numbers -/

theorem next?_number {c : Char} (hc : c = '-' ∨ isAsciiDigit c = true) (cs : List Char) :
    next? (c :: cs) = (number? (c :: cs)).map fun rest => (.number, rest) := by
  unfold next?
  split
  -- What begins a mark, a word or a text begins no number.
  iterate 10
    next heq =>
      obtain rfl := (List.cons.inj heq).1
      exact absurd hc (by decide)
  rfl

theorem of_mem_chars {s : NumberSpelling} {c : Char} (h : c ∈ s.chars) :
    isVisible c = true ∧ isBlank c = false := by
  rcases NumberSpelling.mem_chars h with hdigit | hsign
  · constructor
    · rw [Lexer.isAsciiDigit_iff] at hdigit
      exact (isVisible_iff c).2 (by omega)
    · refine Bool.eq_false_iff.2 fun hblank => ?_
      simp only [isBlank, Bool.or_eq_true, beq_iff_eq] at hblank
      rcases hblank with ((rfl | rfl) | rfl) | rfl <;> cases hdigit
  · fin_cases hsign <;> decide

theorem spells_number (s : NumberSpelling) : Spells s.chars [.number] := by
  obtain ⟨c, cs, hcs, hc⟩ := s.exists_cons
  have hvisible : s.chars.all isVisible = true := List.all_eq_true.2 fun d hd => (of_mem_chars hd).1
  have hblank := (of_mem_chars (s := s) (hcs ▸ List.mem_cons_self)).2
  have hread : ∀ rest, Ends rest → number? (s.chars ++ rest) = some rest :=
    fun _ hrest => number?_spelling s hrest
  rw [hcs] at hread hvisible ⊢
  refine .token hblank hvisible fun rest hrest => ?_
  rw [next?_number hc, ← List.cons_append, hread rest hrest]
  rfl

end JsonToken

/-! ## Whole values -/

open JsonToken

namespace Bytes

/-- A text whose characters spell tokens. -/
def Reads (t : Bytes) (toks : List JsonToken) : Prop := ∃ cs, t = ofChars cs ∧ Spells cs toks

namespace Reads

variable {t t' : Bytes} {toks toks' : List JsonToken}

/-- A text between two marks. -/
theorem enclosed (h : t.Reads toks) {c c' : Char} {tk tk' : JsonToken} (hopen : IsMark c tk)
    (hclose : IsMark c' tk') (hends : c' ∈ endings) :
    Reads (ofChars [c] ++ t ++ ofChars [c']) (tk :: toks ++ [tk']) := by
  obtain ⟨cs, rfl, hspells⟩ := h
  refine ⟨c :: (cs ++ [c']), ?_, (hspells.append (.cons hclose .nil) (.cons hends)).cons hopen⟩
  rw [← ofChars_append, ← ofChars_append]
  rfl

/-- A mark between two texts. -/
theorem followed (h : t.Reads toks) {c : Char} {tk : JsonToken} (hmark : IsMark c tk)
    (hends : c ∈ endings) (h' : t'.Reads toks') :
    Reads (t ++ ofChars [c] ++ t') (toks ++ tk :: toks') := by
  obtain ⟨cs, rfl, hspells⟩ := h
  obtain ⟨cs', rfl, hspells'⟩ := h'
  refine ⟨cs ++ c :: cs', ?_, hspells.append (.cons hmark hspells') (.cons hends)⟩
  rw [← ofChars_append, ← ofChars_append, List.append_assoc]
  rfl

theorem join {ts : List Bytes} {parts : List (List JsonToken)}
    (h : List.Forall₂ Reads ts parts) :
    Reads (Bytes.join "," ts) ([JsonToken.comma].intercalate parts) := by
  induction h with
  | nil => exact ⟨[], rfl, .nil⟩
  | cons hfirst hrest ih =>
    cases hrest with
    | nil =>
      rw [List.intercalate_singleton]
      exact hfirst
    | cons =>
      rw [List.intercalate_cons_cons, List.append_assoc]
      exact hfirst.followed isMark_comma (by decide) ih

/-- What is read has no control byte. -/
theorem visible (h : t.Reads toks) : ∀ b ∈ t, 0x20 ≤ b.toNat := by
  obtain ⟨cs, rfl, hspells⟩ := h
  intro b hb
  obtain ⟨c, hc, hb⟩ := List.mem_flatMap.1 hb
  have hvisible := (isVisible_iff c).1 (List.all_eq_true.1 hspells.visible c hc)
  by_cases hshort : c.toNat < 0x80
  · rw [encode_one hshort, List.mem_singleton] at hb
    rw [hb, toNat_byteOfNat (by omega)]
    exact hvisible
  · have hlong := le_toNat_of_mem_encode (not_lt.1 hshort) b hb
    omega

theorem all?_eq (h : t.Reads toks) : all? t = some toks := by
  obtain ⟨cs, rfl, hspells⟩ := h
  have hlength : toks.length ≤ (ofChars cs).length := hspells.length.trans
    (length_le_flatMap (fun c => String.length_utf8EncodeChar c ▸ c.utf8Size_pos) cs)
  obtain ⟨fuel, hfuel⟩ := Nat.exists_eq_add_of_le' hlength
  have hend : Ends [] := by simp [Ends]
  have hcuts := hspells.cuts [] hend (fuel + 1)
  rw [List.append_nil] at hcuts
  rw [all?, chars_ofChars, hfuel, Nat.add_right_comm, hcuts]
  exact congrArg some (List.append_nil toks)

end Reads
end Bytes

namespace Datum

theorem quoted_reads (t : Bytes) : (quoted t).Reads [.text t.scrubbed] := ⟨_, rfl, spells_quoted t⟩

theorem word_reads {c : Char} {cs : List Char} {tk : JsonToken} (hc : JsonToken.isBlank c = false)
    (hvisible : (c :: cs).all isVisible = true)
    (h : ∀ rest, next? (c :: (cs ++ rest)) = some (tk, rest)) :
    (Bytes.ofChars (c :: cs)).Reads [tk] :=
  ⟨_, rfl, .token hc hvisible fun rest _ => h rest⟩

mutual

/-- **What is written is read back.** -/
theorem write_reads : (d : Datum) → d.isWritable = true → d.write.Reads d.tokens
  | .null, _ => word_reads rfl rfl fun _ => rfl
  | .bool true, _ => word_reads rfl rfl fun _ => rfl
  | .bool false, _ => word_reads rfl rfl fun _ => rfl
  | .int n, _ => ⟨_, (ofInt_eq n).trans (congrArg _ (NumberSpelling.chars_ofInt n).symm),
      spells_number _⟩
  | .real x, h => by
    obtain ⟨s, hs⟩ := NumberSpelling.exists_ofReal h
    exact ⟨_, congrArg Bytes.ofChars hs, spells_number s⟩
  | .text t, _ => quoted_reads t
  | .list items, h =>
    (Bytes.Reads.join (writeAll_reads items h)).enclosed isMark_openArray isMark_closeArray
      (by decide)
  | .object fields, h =>
    (Bytes.Reads.join (writeFields_reads fields h)).enclosed isMark_openObject isMark_closeObject
      (by decide)

theorem writeAll_reads : (items : List Datum) → areWritable items = true →
    List.Forall₂ Bytes.Reads (writeAll items) (tokensAll items)
  | [], _ => .nil
  | d :: rest, h => by
    rw [areWritable, Bool.and_eq_true] at h
    exact .cons (write_reads d h.1) (writeAll_reads rest h.2)

theorem writeFields_reads : (fields : List (Bytes × Datum)) → fieldsAreWritable fields = true →
    List.Forall₂ Bytes.Reads (writeFields fields) (tokensFields fields)
  | [], _ => .nil
  | (name, d) :: rest, h => by
    rw [fieldsAreWritable, Bool.and_eq_true] at h
    exact .cons ((quoted_reads name).followed isMark_colon (by decide) (write_reads d h.1))
      (writeFields_reads rest h.2)

end

end Datum

end ChartScript
