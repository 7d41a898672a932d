import ChartScript.Text.Bytes

/-!
# Tables of names

A finite map from names to entries, kept in the byte order of the names. The order is part of the
type: what a table lists depends on its bindings and not on how it came by them.
-/

set_option autoImplicit false

namespace ChartScript

/-- Two names in byte order are equal when neither comes first. -/
theorem Bytes.eq_of_not_lt {a b : Bytes} (hab : ¬ a < b) (hba : ¬ b < a) : a = b :=
  List.le_antisymm (List.not_lt.1 hba) (List.not_lt.1 hab)

/-- Bindings with strictly increasing names. -/
structure Table (α : Type) where
  entries : List (Bytes × α)
  sorted : entries.Pairwise (fun a b => a.1 < b.1)

namespace Table

variable {α : Type}

/-- The table without bindings. -/
def empty : Table α := ⟨[], .nil⟩

/-- Binds a name in a sorted list, replacing its entry if it has one. -/
def insertEntry (name : Bytes) (a : α) : List (Bytes × α) → List (Bytes × α)
  | [] => [(name, a)]
  | (n, b) :: rest =>
    if name < n then (name, a) :: (n, b) :: rest
    else if n < name then (n, b) :: insertEntry name a rest
    else (name, a) :: rest

/-- The names of the new list are those of the old one and the new one. -/
theorem mem_insertEntry {name : Bytes} {a : α} {entries : List (Bytes × α)} {e : Bytes × α}
    (h : e ∈ insertEntry name a entries) : e.1 = name ∨ e ∈ entries := by
  induction entries with
  | nil =>
    simp only [insertEntry, List.mem_singleton] at h
    exact .inl (by rw [h])
  | cons x rest ih =>
    simp only [insertEntry] at h
    split at h
    · rcases List.mem_cons.1 h with rfl | h
      · exact .inl rfl
      · exact .inr h
    · split at h
      · rcases List.mem_cons.1 h with rfl | h
        · exact .inr List.mem_cons_self
        · exact (ih h).imp id (List.mem_cons_of_mem _)
      · rcases List.mem_cons.1 h with rfl | h
        · exact .inl rfl
        · exact .inr (List.mem_cons_of_mem _ h)

/-- Binding a name keeps a list sorted. -/
theorem pairwise_insertEntry {name : Bytes} {a : α} {entries : List (Bytes × α)}
    (h : entries.Pairwise (fun x y => x.1 < y.1)) :
    (insertEntry name a entries).Pairwise (fun x y => x.1 < y.1) := by
  induction entries with
  | nil => simp [insertEntry]
  | cons x rest ih =>
    obtain ⟨hx, hrest⟩ := List.pairwise_cons.1 h
    simp only [insertEntry]
    split
    · next hlt =>
      refine List.pairwise_cons.2 ⟨fun y hy => ?_, h⟩
      rcases List.mem_cons.1 hy with rfl | hy
      · exact hlt
      · exact List.lt_trans hlt (hx y hy)
    · next hnlt =>
      split
      · next hgt =>
        refine List.pairwise_cons.2 ⟨fun y hy => ?_, ih hrest⟩
        rcases mem_insertEntry hy with rfl | hy
        · exact hgt
        · exact hx y hy
      · next hngt =>
        have heq : name = x.1 := Bytes.eq_of_not_lt hnlt hngt
        exact List.pairwise_cons.2 ⟨fun y hy => heq ▸ hx y hy, hrest⟩

/-- Binds a name, replacing what it was bound to. -/
def insert (t : Table α) (name : Bytes) (a : α) : Table α :=
  ⟨insertEntry name a t.entries, pairwise_insertEntry t.sorted⟩

/-- The table with the given bindings; of two for one name the later counts. -/
def ofList (bindings : List (Bytes × α)) : Table α :=
  bindings.foldl (fun t (name, a) => t.insert name a) empty

/-- The entry of a name. -/
def get? (t : Table α) (name : Bytes) : Option α :=
  (t.entries.find? fun e => e.1 == name).map (·.2)

/-- Whether a name is bound. -/
def contains (t : Table α) (name : Bytes) : Bool := (t.get? name).isSome

/-- The bound names, in byte order. -/
def names (t : Table α) : List Bytes := t.entries.map (·.1)

end Table

end ChartScript
