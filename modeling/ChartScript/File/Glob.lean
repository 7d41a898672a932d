import ChartScript.File.Tree
import ChartScript.Text.Utf8

/-!
# Patterns for paths

In a pattern `*` stands for any run of characters but a slash, `?` for one of them, and `[...]` for
one character of a class (`^` in front: for one that is not in it); a backslash takes the character
behind it for itself. A pattern is read whole before anything is looked up, so that a malformed one
is refused whatever files there are.
-/

set_option autoImplicit false

namespace ChartScript

/-- One item of a pattern. -/
inductive GlobItem where
  | byte (b : UInt8)
  | any
  | star
  | oneOf (negated : Bool) (ranges : List (Char × Char))

namespace Glob

/-- The character at the front of a class, if it may stand there: a dash or a closing bracket only
behind a backslash. Something has to follow it. -/
def classChar? (p : Bytes) : Option (Char × Bytes) :=
  let plain := fun (q : Bytes) =>
    match Bytes.front? q with
    | some (c, rest) => if rest.isEmpty then none else some (c, rest)
    | none => none
  match p with
  | [] => none
  | b :: rest =>
    if b = 45 || b = 93 then none
    else if b = 92 then plain rest
    else plain p

/-- A character of a class takes at least one byte. -/
theorem classChar?_length {p rest : Bytes} {c : Char} (h : classChar? p = some (c, rest)) :
    rest.length < p.length := by
  have plain : ∀ {q : Bytes}, (match Bytes.front? q with
      | some (c, rest) => if rest.isEmpty then none else some (c, rest)
      | none => none) = some (c, rest) → rest.length < q.length := by
    intro q hq
    split at hq
    · next c' rest' hf =>
      split at hq
      · exact absurd hq (by simp)
      · simp only [Option.some.injEq, Prod.mk.injEq] at hq
        exact hq.2 ▸ Bytes.front?_length hf
    · exact absurd hq (by simp)
  unfold classChar? at h
  cases p with
  | nil => exact absurd h (by simp)
  | cons b q =>
    simp only at h
    split at h
    · exact absurd h (by simp)
    · split at h
      · exact Nat.lt_succ_of_lt (plain h)
      · exact plain h

/-- One range of a class: a character, or two with a dash between them. -/
def classRange? (p : Bytes) : Option ((Char × Char) × Bytes) :=
  match classChar? p with
  | none => none
  | some (low, rest) =>
    if rest.head? = some 45 then
      match classChar? rest.tail with
      | none => none
      | some (high, rest) => some ((low, high), rest)
    else some ((low, low), rest)

/-- A range takes at least one byte. -/
theorem classRange?_length {p rest : Bytes} {r : Char × Char}
    (h : classRange? p = some (r, rest)) : rest.length < p.length := by
  unfold classRange? at h
  split at h
  · exact absurd h (by simp)
  · next low after hc =>
    have := classChar?_length hc
    split at h
    · split at h
      · exact absurd h (by simp)
      · next high last hd =>
        simp only [Option.some.injEq, Prod.mk.injEq] at h
        have hl := classChar?_length hd
        rw [List.length_tail] at hl
        rw [← h.2]
        omega
    · simp only [Option.some.injEq, Prod.mk.injEq] at h
      exact h.2 ▸ this

/-- The ranges of a class up to its closing bracket, of which there is at least one. -/
def classRanges? (p : Bytes) : Option (List (Char × Char) × Bytes) :=
  match _h : classRange? p with
  | none => none
  | some (r, rest) =>
    if rest.head? = some 93 then some ([r], rest.tail)
    else (classRanges? rest).map fun (rs, after) => (r :: rs, after)
termination_by p.length
decreasing_by exact classRange?_length _h

/-- A class takes at least one byte. -/
theorem classRanges?_length {p rest : Bytes} {rs : List (Char × Char)}
    (h : classRanges? p = some (rs, rest)) : rest.length < p.length := by
  fun_induction classRanges? p generalizing rs with
  | case1 => exact absurd h (by simp)
  | case2 p r after hr _ =>
    simp only [Option.some.injEq, Prod.mk.injEq] at h
    have := classRange?_length hr
    rw [← h.2, List.length_tail]
    omega
  | case3 p r after hr _ ih =>
    obtain ⟨⟨rs', after'⟩, hc, hb⟩ := Option.map_eq_some_iff.1 h
    simp only [Prod.mk.injEq] at hb
    have := classRange?_length hr
    have := ih (hb.2 ▸ hc)
    omega

/-- A class behind its opening bracket. -/
def classItem? (p : Bytes) : Option (GlobItem × Bytes) :=
  if p.head? = some 94 then (classRanges? p.tail).map fun (rs, rest) => (.oneOf true rs, rest)
  else (classRanges? p).map fun (rs, rest) => (.oneOf false rs, rest)

/-- A class takes at least one byte. -/
theorem classItem?_length {p rest : Bytes} {item : GlobItem}
    (h : classItem? p = some (item, rest)) : rest.length < p.length := by
  unfold classItem? at h
  split at h
  all_goals
    obtain ⟨⟨rs, after⟩, hc, hb⟩ := Option.map_eq_some_iff.1 h
    simp only [Prod.mk.injEq] at hb
    have := classRanges?_length hc
    rw [← hb.2]
  · rw [List.length_tail] at this
    omega
  · exact this

/-- The items of a pattern; none if it is malformed. -/
def parse? (p : Bytes) : Option (List GlobItem) :=
  match p with
  | [] => some []
  | b :: rest =>
    if b = 42 then (parse? rest).map (.star :: ·)
    else if b = 63 then (parse? rest).map (.any :: ·)
    else if b = 91 then
      match _h : classItem? rest with
      | none => none
      | some (item, after) => (parse? after).map (item :: ·)
    else if b = 92 then
      match rest with
      | [] => none
      | c :: after => (parse? after).map (.byte c :: ·)
    else (parse? rest).map (.byte b :: ·)
termination_by p.length
decreasing_by
  · exact Nat.lt_add_one _
  · exact Nat.lt_add_one _
  · exact Nat.lt_add_right 1 (classItem?_length _h)
  · exact Nat.lt_add_right 1 (Nat.lt_add_one _)
  · exact Nat.lt_add_one _

/-- The character at the front of a name, U+FFFD for a stray byte, and what follows. -/
def nameChar (b : UInt8) (rest : Bytes) : Char × Bytes :=
  match Bytes.front? (b :: rest) with
  | some found => found
  | none => ('\uFFFD', rest)

/-- Whether a character is in one of some ranges. -/
def inClass (ranges : List (Char × Char)) (c : Char) : Bool :=
  ranges.any fun (low, high) => low ≤ c && c ≤ high

/-- What is left of a name behind its front that items match, one character each (a star none). -/
def matchFront? : List GlobItem → Bytes → Option Bytes
  | [], name => some name
  | .star :: rest, name => matchFront? rest name
  | .byte _ :: _, [] | .any :: _, [] | .oneOf .. :: _, [] => none
  | .byte x :: rest, b :: more => if x == b then matchFront? rest more else none
  | .any :: rest, b :: more =>
    if b == Path.slash then none else matchFront? rest (nameChar b more).2
  | .oneOf negated ranges :: rest, b :: more =>
    if inClass ranges (nameChar b more).1 == negated then none
    else matchFront? rest (nameChar b more).2

/-- The items before the first star, and those behind each star; stars that touch count once. -/
def chunks : List GlobItem → List GlobItem × List (List GlobItem)
  | [] => ([], [])
  | .star :: rest =>
    match chunks rest with
    | ([], []) => ([], [[]])
    | ([], later) => ([], later)
    | (first, later) => ([], first :: later)
  | item :: rest => ((item :: (chunks rest).1), (chunks rest).2)

/-- What a star may leave of a name: it passes over bytes up to a slash. -/
def leftByStar : Bytes → List Bytes
  | [] => [[]]
  | b :: rest => (b :: rest) :: if b == Path.slash then [] else leftByStar rest

/-- Whether chunks, each behind a star, match a name in full. Each is matched at the first place where
it can be, and none is tried again; only the last has to end where the name does. -/
def matchChunks : List (List GlobItem) → Bytes → Bool
  | [], name => name.isEmpty
  | [[]], name => !name.contains Path.slash
  | [last], name => (leftByStar name).any fun left => matchFront? last left == some []
  | chunk :: rest, name =>
    match (leftByStar name).findSome? (matchFront? chunk) with
    | some left => matchChunks rest left
    | none => false

/-- Whether items match a name in full. -/
def isMatch (items : List GlobItem) (name : Bytes) : Bool :=
  match matchFront? (chunks items).1 name with
  | some left => matchChunks (chunks items).2 left
  | none => false

/-- Whether anything in a pattern stands for something other than itself. -/
def hasWild (p : Bytes) : Bool := p.any fun b => b = 42 || b = 63 || b = 91 || b = 92

/-- The paths of the names in a directory that match a pattern. -/
def inDirectory (f : Files) (items : List GlobItem) (directory : Bytes) : List Bytes :=
  (f.names directory).filterMap fun name =>
    if isMatch items name then some (Path.join directory name) else none

/-- The directory part of a pattern without the slash at its end. -/
def parent (p : Bytes) : Bytes :=
  let directory := (Path.split p).1
  if directory.isEmpty then Path.here
  else if directory == [Path.slash] then directory
  else directory.dropLast

/-- The paths that match a pattern; none if it, or a part of it, is malformed. -/
def paths? (f : Files) (p : Bytes) : Option (List Bytes) :=
  if (parse? p).isNone then none
  else if !hasWild p then some (if (f.find p).isOk then [p] else [])
  else
    match parse? (Path.split p).2 with
    | none => none
    | some items =>
      if !hasWild (parent p) then some (inDirectory f items (parent p))
      else if _h : (parent p).length < p.length then
        (paths? f (parent p)).map (·.flatMap (inDirectory f items))
      else none
termination_by p.length

end Glob

end ChartScript
