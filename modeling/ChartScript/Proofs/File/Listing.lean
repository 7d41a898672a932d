import ChartScript.File.Glob
import ChartScript.Proofs.Text.Trimming
import Mathlib.Data.List.Basic
import Mathlib.Data.List.Nodup
import Mathlib.Data.List.TakeWhile

/-!
# The names in a directory that end alike

A pattern `*.x` below a directory whose path has no wild bytes matches the names in that directory
that end in `.x`: the pattern is read, its front is the cleaned path, and a star in front of plain
bytes comes to a test of the end (`Glob.paths?_ending`).
-/

set_option autoImplicit false

namespace ChartScript

/-! ## Paths -/

namespace Path

/-- The parts of a path that are left of it when it is cleaned. -/
def parts (p : Bytes) : List Bytes :=
  ((Bytes.splitOn slash p).foldl (push (isRooted p)) []).reverse

/-- A cleaned path as it stands in front of a name. -/
def front (p : Bytes) : Bytes :=
  (if isRooted p then [slash] else []) ++ (parts p).flatMap (· ++ [slash])

/-- A name that stands for itself. -/
structure IsPlain (name : Bytes) : Prop where
  flat : slash ∉ name
  ne_nil : name ≠ []
  ne_here : name ≠ here
  ne_above : name ≠ above

theorem push_plain {name : Bytes} (h : IsPlain name) (rooted : Bool) (passed : List Bytes) :
    push rooted passed name = name :: passed := by
  unfold push
  rw [if_neg (by simp [h.ne_nil, h.ne_here]), if_neg (by simp [h.ne_above])]

theorem isRooted_plain {name : Bytes} (h : IsPlain name) : isRooted name = false := by
  cases name with
  | nil => rfl
  | cons b rest =>
    have hb : b ≠ slash := fun heq => h.flat (heq ▸ List.mem_cons_self)
    simp [isRooted, hb]

theorem parts_plain {name : Bytes} (h : IsPlain name) : parts name = [name] := by
  rw [parts, Bytes.splitOn_of_not_mem h.flat, List.foldl_cons, push_plain h]
  rfl

/-- A name behind a path is its last part. -/
theorem parts_append {name : Bytes} (h : IsPlain name) {d : Bytes} (hd : d ≠ []) :
    isRooted (d ++ slash :: name) = isRooted d ∧ parts (d ++ slash :: name) = parts d ++ [name] := by
  have hrooted : isRooted (d ++ slash :: name) = isRooted d := by
    rw [isRooted, isRooted, List.head?_append_of_ne_nil _ hd]
  refine ⟨hrooted, ?_⟩
  rw [parts, parts, hrooted, Bytes.splitOn_append, Bytes.splitOn_of_not_mem h.flat, List.foldl_append, List.foldl_cons,
    push_plain h, List.foldl_nil, List.reverse_cons]

/-- A cleaned path is its parts with slashes between them. -/
theorem clean_of_parts {p last : Bytes} {passed : List Bytes} (h : parts p = passed ++ [last])
    (hlast : last ≠ []) :
    clean p = (if isRooted p then [slash] else []) ++ passed.flatMap (· ++ [slash]) ++ last := by
  have hbody : Bytes.join [slash] (parts p) = passed.flatMap (· ++ [slash]) ++ last := by
    rw [h, Bytes.join_append_singleton]
  show (if isRooted p then slash :: Bytes.join [slash] (parts p) else
    if (Bytes.join [slash] (parts p)).isEmpty then here else Bytes.join [slash] (parts p)) = _
  rw [hbody]
  split
  · rfl
  · rw [if_neg (by simp [hlast])]
    rfl

theorem clean_of_no_parts {p : Bytes} (h : parts p = []) :
    clean p = if isRooted p then [slash] else here := by
  show (if isRooted p then slash :: Bytes.join [slash] (parts p) else
    if (Bytes.join [slash] (parts p)).isEmpty then here else Bytes.join [slash] (parts p)) = _
  rw [h]
  rfl

/-- **A name is put behind the cleaned path.** -/
theorem join_plain {name : Bytes} (h : IsPlain name) (d : Bytes) :
    join d name = front d ++ name := by
  have hname : ¬ name.isEmpty = true := by simpa using h.ne_nil
  unfold join
  split
  · next hd =>
    obtain rfl := List.isEmpty_iff.1 hd
    have hparts : parts name = [] ++ [name] := parts_plain h
    rw [clean_of_parts hparts h.ne_nil, isRooted_plain h]
    rfl
  · next hd =>
    obtain ⟨hrooted, hparts⟩ := parts_append h (d := d) (by simpa using hd)
    rw [clean_of_parts hparts h.ne_nil, hrooted]
    rfl

theorem mem_push {rooted : Bool} {passed : List Bytes} {q part : Bytes}
    (h : part ∈ push rooted passed q) : part ∈ passed ∨ part = above ∨ part = q ∧ part ≠ [] := by
  unfold push at h
  split at h
  · exact .inl h
  · next hq =>
    split at h
    · split at h
      · split at h
        · exact .inl h
        · exact .inr (.inl (List.mem_singleton.1 h))
      · split at h
        · rcases List.mem_cons.1 h with rfl | h
          · exact .inr (.inl rfl)
          · exact .inl h
        · exact .inl (List.mem_cons_of_mem _ h)
    · rcases List.mem_cons.1 h with rfl | h
      · refine .inr (.inr ⟨rfl, fun hnil => hq ?_⟩)
        simp [hnil]
      · exact .inl h

/-- What is left of a path is a step up or was a part of it before, and not an empty one. -/
theorem mem_parts {p part : Bytes} (h : part ∈ parts p) :
    part = above ∨ part ∈ Bytes.splitOn slash p ∧ part ≠ [] := by
  have hfold : ∀ (rooted : Bool) (ps passed : List Bytes), part ∈ ps.foldl (push rooted) passed →
      part ∈ passed ∨ part = above ∨ part ∈ ps ∧ part ≠ [] := by
    intro rooted ps
    induction ps with
    | nil => exact fun passed h => .inl h
    | cons q ps ih =>
      intro passed h
      rcases ih _ h with hpassed | habove | ⟨hps, hne⟩
      · rcases mem_push hpassed with hpassed | habove | ⟨rfl, hne⟩
        · exact .inl hpassed
        · exact .inr (.inl habove)
        · exact .inr (.inr ⟨List.mem_cons_self, hne⟩)
      · exact .inr (.inl habove)
      · exact .inr (.inr ⟨List.mem_cons_of_mem _ hps, hne⟩)
  rcases hfold _ _ _ (List.mem_reverse.1 h) with hnil | hpart
  · cases hnil
  · exact hpart

/-- A front has the bytes of the path, and besides them dots and slashes. -/
theorem mem_front {p : Bytes} {b : UInt8} (h : b ∈ front p) : b ∈ p ∨ b = slash ∨ b = 46 := by
  rcases List.mem_append.1 h with hroot | hparts
  · split at hroot
    · exact .inr (.inl (List.mem_singleton.1 hroot))
    · cases hroot
  · obtain ⟨part, hpart, hb⟩ := List.mem_flatMap.1 hparts
    rcases List.mem_append.1 hb with hb | hb
    · rcases mem_parts hpart with rfl | ⟨hsplit, -⟩
      · refine .inr (.inr ?_)
        rcases List.mem_cons.1 hb with rfl | hb
        · rfl
        · exact List.mem_singleton.1 hb
      · exact .inl (Bytes.mem_of_mem_splitOn hsplit hb)
    · exact .inr (.inl (List.mem_singleton.1 hb))

/-- A front ends in a slash, if there is one. -/
theorem front_cases (p : Bytes) :
    front p = [] ∧ clean p = here ∨ front p = [slash] ∧ clean p = [slash] ∨
      front p = clean p ++ [slash] ∧ clean p ≠ [] := by
  rcases List.eq_nil_or_concat (parts p) with hparts | ⟨passed, last, hparts⟩
  · rw [front, clean_of_no_parts hparts, hparts]
    cases isRooted p with
    | true => exact .inr (.inl ⟨rfl, rfl⟩)
    | false => exact .inl ⟨rfl, rfl⟩
  · rw [List.concat_eq_append] at hparts
    have hlast : last ≠ [] := by
      rcases mem_parts (show last ∈ parts p by simp [hparts]) with rfl | ⟨-, hne⟩
      · decide
      · exact hne
    refine .inr (.inr ?_)
    rw [front, clean_of_parts hparts hlast, hparts]
    simp [hlast]

/-- The last part of a path has no slash. -/
theorem slash_notMem_split (p : Bytes) : slash ∉ (split p).2 := by
  intro h
  have hkept := List.mem_takeWhile_imp (List.mem_reverse.1 h)
  simp at hkept

theorem split_front {name : Bytes} (h : slash ∉ name) (d : Bytes) :
    split (front d ++ name) = (front d, name) := by
  have hname : name.reverse.all (· != slash) = true := by
    rw [List.all_reverse, List.all_eq_true]
    intro b hb
    rw [bne_iff_ne]
    rintro rfl
    exact h hb
  have hstop : ∀ b ∈ (front d).reverse.head?, (b != slash) = false := by
    rcases front_cases d with ⟨hfront, -⟩ | ⟨hfront, -⟩ | ⟨hfront, -⟩ <;> rw [hfront] <;> simp
  have hlast : ((front d ++ name).reverse.takeWhile (· != slash)).reverse = name := by
    rw [List.reverse_append, (takeWhile_stop hname hstop).1, List.reverse_reverse]
  show ((front d ++ name).take _, _) = _
  rw [hlast, List.length_append, Nat.add_sub_cancel, List.take_left]

end Path

/-! ## Patterns -/

namespace Glob

open ChartScript.Path

theorem parent_front {name : Bytes} (h : slash ∉ name) (d : Bytes) :
    parent (front d ++ name) = clean d := by
  unfold parent
  rw [split_front h]
  dsimp only
  rcases front_cases d with ⟨hfront, hclean⟩ | ⟨hfront, hclean⟩ | ⟨hfront, hclean⟩
  · rw [hfront, hclean]
    rfl
  · rw [hfront, hclean]
    rfl
  · obtain ⟨b, rest, hcons⟩ := List.exists_cons_of_ne_nil hclean
    rw [hfront, List.dropLast_concat, hcons]
    simp

/-- Plain bytes at the front of a pattern stand for themselves. -/
theorem parse?_front {p : Bytes} (h : hasWild p = false) (rest : Bytes) :
    parse? (p ++ rest) = (parse? rest).map (p.map .byte ++ ·) := by
  induction p with
  | nil => simp
  | cons b p ih =>
    simp only [hasWild, List.any_cons, Bool.or_eq_false_iff, decide_eq_false_iff_not] at h
    obtain ⟨⟨⟨⟨hstar, hany⟩, hclass⟩, hescape⟩, hp⟩ := h
    rw [List.cons_append, parse?.eq_def]
    dsimp only
    rw [if_neg hstar, if_neg hany, if_neg hclass, if_neg hescape, ih hp]
    cases parse? rest <;> rfl

theorem hasWild_front {d : Bytes} (h : hasWild d = false) : hasWild (front d) = false := by
  rw [hasWild, List.any_eq_false] at h ⊢
  intro b hb
  rcases mem_front hb with hd | rfl | rfl
  · exact h b hd
  · decide
  · decide

theorem hasWild_clean {d : Bytes} (h : hasWild d = false) : hasWild (clean d) = false := by
  have hfront := hasWild_front h
  rcases front_cases d with ⟨-, hclean⟩ | ⟨-, hclean⟩ | ⟨heq, -⟩
  · rw [hclean]
    rfl
  · rw [hclean]
    rfl
  · rw [heq, hasWild, List.any_append, Bool.or_eq_false_iff] at hfront
    exact hfront.1

/-- The pattern for the names that end in plain bytes. -/
def ending (suffix : Bytes) : List GlobItem := .star :: suffix.map .byte

theorem mem_leftByStar {name left : Bytes} (h : slash ∉ name) :
    left ∈ leftByStar name ↔ left <:+ name := by
  induction name with
  | nil => simp [leftByStar]
  | cons b name ih =>
    rw [List.mem_cons, not_or] at h
    rw [leftByStar, if_neg (by simpa using Ne.symm h.1), List.mem_cons, ih h.2, List.suffix_cons_iff]

theorem matchFront?_bytes (suffix name : Bytes) :
    matchFront? (suffix.map .byte) name = some [] ↔ name = suffix := by
  induction suffix generalizing name with
  | nil => simp [matchFront?]
  | cons x suffix ih =>
    cases name with
    | nil => simp [matchFront?]
    | cons b name =>
      rw [List.map_cons, matchFront?]
      by_cases hb : x = b
      · simp [hb, ih]
      · simp [hb, Ne.symm hb]

theorem chunks_ending {suffix : Bytes} (h : suffix ≠ []) :
    chunks (ending suffix) = ([], [suffix.map .byte]) := by
  have hbytes : ∀ suffix : Bytes, chunks (suffix.map .byte) = (suffix.map .byte, []) := by
    intro suffix
    induction suffix with
    | nil => rfl
    | cons b suffix ih => rw [List.map_cons, chunks, ih]; simp
  obtain ⟨b, rest, rfl⟩ := List.exists_cons_of_ne_nil h
  rw [ending, chunks, hbytes]
  rfl

/-- **A star in front of plain bytes matches what ends in them.** -/
theorem isMatch_ending {suffix name : Bytes} (hsuffix : suffix ≠ []) (h : slash ∉ name) :
    isMatch (ending suffix) name = suffix.isSuffixOf name := by
  obtain ⟨b, rest, hcons⟩ := List.exists_cons_of_ne_nil hsuffix
  have hmatch : isMatch (ending suffix) name =
      (leftByStar name).any fun left => matchFront? (suffix.map .byte) left == some [] := by
    rw [isMatch, chunks_ending hsuffix, hcons]
    rfl
  rw [hmatch, Bool.eq_iff_iff, List.any_eq_true, List.isSuffixOf_iff_suffix]
  simp only [beq_iff_eq, matchFront?_bytes, mem_leftByStar h, exists_eq_right]

/-- The paths of the names in a directory that end in `suffix`, in the order of the names. -/
def endingIn (files : Files) (suffix directory : Bytes) : List Bytes :=
  ((files.names (clean directory)).filter suffix.isSuffixOf).map (join (clean directory))

theorem slash_notMem_names {files : Files} {directory name : Bytes}
    (h : name ∈ files.names directory) : slash ∉ name := by
  unfold Files.names at h
  split at h
  · cases h
  · split at h
    · obtain ⟨l, -, hl⟩ := List.mem_filterMap.1 h
      split at hl
      · rw [← Option.some.inj hl]
        exact slash_notMem_split l
      · cases hl
    · cases h

/-- Each path is there once, if each name is. -/
theorem nodup_endingIn {files : Files} {suffix directory : Bytes}
    (hlong : above.length < suffix.length) (h : (files.names (clean directory)).Nodup) : (endingIn files suffix directory).Nodup := by
  have hplain : ∀ name ∈ (files.names (clean directory)).filter suffix.isSuffixOf, IsPlain name := by
    intro name hname
    obtain ⟨hmem, hends⟩ := List.mem_filter.1 hname
    have hlength := (List.isSuffixOf_iff_suffix.1 hends).length_le
    have hne : ∀ short : Bytes, short.length ≤ above.length → name ≠ short := by
      rintro short hshort rfl
      omega
    exact ⟨slash_notMem_names hmem, hne [] (by decide), hne here (by decide), hne above le_rfl⟩
  refine List.Nodup.map_on (fun x hx y hy hxy => ?_) (h.filter _)
  rw [join_plain (hplain x hx), join_plain (hplain y hy)] at hxy
  exact List.append_cancel_left hxy

/-- **A star below a directory finds the names that end like the pattern.** -/
theorem paths?_ending (files : Files) {directory suffix : Bytes} (hplain : hasWild directory = false)
    (hsuffix : IsPlain (42 :: suffix)) (hread : parse? (42 :: suffix) = some (ending suffix))
    (hne : suffix ≠ []) :
    paths? files (join directory (42 :: suffix)) = some (endingIn files suffix directory) := by
  have hfront := hasWild_front hplain
  have hparse : parse? (front directory ++ 42 :: suffix) ≠ none := by
    rw [parse?_front hfront, hread]
    simp
  have hwild : hasWild (front directory ++ 42 :: suffix) = true := by
    simp [hasWild]
  have hclean : hasWild (clean directory) = false := hasWild_clean hplain
  rw [join_plain hsuffix, paths?.eq_def, split_front hsuffix.flat, parent_front hsuffix.flat]
  dsimp only
  rw [if_neg (by simpa [Option.isNone_iff_eq_none] using hparse), hwild, hread, hclean]
  show some (inDirectory files (ending suffix) (clean directory)) = _
  have hmatch : ∀ name ∈ files.names (clean directory),
      (if isMatch (ending suffix) name then some (join (clean directory) name) else none) =
        if suffix.isSuffixOf name then some (join (clean directory) name) else none := by
    intro name hname
    rw [isMatch_ending hne (slash_notMem_names hname)]
  rw [endingIn, inDirectory, List.filterMap_congr hmatch, ← List.filterMap_eq_map,
    List.filterMap_filter]
  rfl

end Glob

end ChartScript
