import ChartScript.Proofs.Text.Utf8
import ChartScript.Text.Blank

/-!
# Trimming and splitting

What satisfies a test is cut off a list as far as it goes (`takeWhile_stop`). So white space around a
text without any is trimmed off, and nothing else. A text is split at each separator that stands in
it (`splitOn_append`), and nowhere else.
-/

set_option autoImplicit false

namespace ChartScript

/-- What satisfies a test is cut off up to the first that does not. -/
theorem takeWhile_stop {α : Type} {p : α → Bool} {taken rest : List α} (h : taken.all p = true)
    (hstop : ∀ x ∈ rest.head?, p x = false) :
    (taken ++ rest).takeWhile p = taken ∧ (taken ++ rest).dropWhile p = rest := by
  have hall := List.all_eq_true.1 h
  rw [List.takeWhile_append_of_pos hall, List.dropWhile_append_of_pos hall]
  cases rest with
  | nil => simp
  | cons x rest => simp [hstop x rfl]

namespace Bytes

open Text

theorem trim_surrounded {front cs back : List Char} (hfront : ∀ c ∈ front, isBlank c = true)
    (hne : cs ≠ []) (hcs : ∀ c ∈ cs, isBlank c = false) (hback : ∀ c ∈ back, isBlank c = true) :
    trim (ofChars front ++ ofChars cs ++ ofChars back) = ofChars cs := by
  have hblank : ∀ {l : List Char}, (∀ c ∈ l, isBlank c = true) →
      (l.map Piece.char).all isBlankPiece = true := by
    intro l hl
    rw [List.all_map, List.all_eq_true]
    exact hl
  have hkept : ∀ x ∈ cs.map Piece.char, isBlankPiece x = false := by
    intro x hx
    obtain ⟨c, hc, rfl⟩ := List.mem_map.1 hx
    exact hcs c hc
  have hfirst : (front.map Piece.char ++ (cs.map Piece.char ++ back.map Piece.char)).dropWhile
      isBlankPiece = cs.map Piece.char ++ back.map Piece.char := by
    refine (takeWhile_stop (hblank hfront) fun x hx => hkept x ?_).2
    obtain ⟨c, cs, rfl⟩ := List.exists_cons_of_ne_nil hne
    obtain rfl : Piece.char c = x := by simpa using hx
    simp
  have hlast : ((back.map Piece.char).reverse ++ (cs.map Piece.char).reverse).dropWhile
      isBlankPiece = (cs.map Piece.char).reverse := by
    have hall : (back.map Piece.char).reverse.all isBlankPiece = true := by
      rw [List.all_reverse]
      exact hblank hback
    exact (takeWhile_stop hall fun x hx => hkept x (List.mem_reverse.1 (List.mem_of_mem_head? hx))).2
  rw [← ofChars_append, ← ofChars_append, trim, decode_ofChars, List.append_assoc, List.map_append,
    List.map_append, hfirst, List.reverse_append, hlast, List.reverse_reverse, List.flatMap_map]
  rfl

/-! ## Parts -/

theorem splitOn_of_not_mem {b : UInt8} {t : Bytes} (h : b ∉ t) : splitOn b t = [t] := by
  induction t with
  | nil => rfl
  | cons x t ih =>
    rw [List.mem_cons, not_or] at h
    rw [splitOn, if_neg (Ne.symm h.1), ih h.2]

theorem splitOn_ne_nil (b : UInt8) (t : Bytes) : splitOn b t ≠ [] := by
  cases t with
  | nil => exact List.cons_ne_nil _ _
  | cons x t =>
    rw [splitOn]
    split
    · exact List.cons_ne_nil _ _
    · split <;> exact List.cons_ne_nil _ _

/-- A text is split where a separator stands. -/
theorem splitOn_append (b : UInt8) (d t : Bytes) :
    splitOn b (d ++ b :: t) = splitOn b d ++ splitOn b t := by
  induction d with
  | nil =>
    rw [List.nil_append, splitOn.eq_2, if_pos rfl]
    rfl
  | cons x d ih =>
    rw [List.cons_append, splitOn, splitOn, ih]
    split
    · rfl
    · obtain ⟨part, parts, hparts⟩ := List.exists_cons_of_ne_nil (splitOn_ne_nil b d)
      rw [hparts]
      rfl

/-- Splitting adds nothing. -/
theorem mem_of_mem_splitOn {b x : UInt8} {t part : Bytes} (hpart : part ∈ splitOn b t)
    (hx : x ∈ part) : x ∈ t := by
  induction t generalizing part with
  | nil =>
    rw [splitOn, List.mem_singleton] at hpart
    rwa [hpart] at hx
  | cons y t ih =>
    rw [splitOn] at hpart
    split at hpart
    · rcases List.mem_cons.1 hpart with rfl | hpart
      · cases hx
      · exact List.mem_cons_of_mem _ (ih hpart hx)
    · split at hpart
      · next hnone =>
        rw [List.mem_singleton.1 hpart] at hx
        exact List.mem_cons.2 (.inl (List.mem_singleton.1 hx))
      · next first parts hparts =>
        rw [hparts] at ih
        rcases List.mem_cons.1 hpart with rfl | hpart
        · rcases List.mem_cons.1 hx with rfl | hx
          · exact List.mem_cons_self
          · exact List.mem_cons_of_mem _ (ih List.mem_cons_self hx)
        · exact List.mem_cons_of_mem _ (ih (List.mem_cons_of_mem _ hpart) hx)

theorem join_append_singleton (sep : Bytes) (parts : List Bytes) (last : Bytes) :
    join sep (parts ++ [last]) = parts.flatMap (· ++ sep) ++ last := by
  induction parts with
  | nil => rfl
  | cons p parts ih =>
    rw [List.flatMap_cons, List.append_assoc, ← ih]
    cases parts with
    | nil => rfl
    | cons q parts => rfl

end Bytes

end ChartScript
