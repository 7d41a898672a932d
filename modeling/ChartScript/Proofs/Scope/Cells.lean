import ChartScript.Proofs.Scope.Confined

/-!
# Cells of a forest

A *cell* is a name in a table of one scope. A write touches one cell of the whole forest: the nearest
one that is bound on the way to the root, or a new one in the scope written to where none is. What is
read afterwards from any other scope of the forest (above it, below it, or in another branch) follows
from that: reading gives what was written if it ends at that cell, and what it gave before if it does
not. `Stored` lists these laws, and `put_writes_one_cell` says that they hold of symbols and of
properties in every forest, however it came about.
-/

set_option autoImplicit false

namespace ChartScript
namespace Forest

/-- What a scope itself binds a name to. -/
def cell? (f : Forest) (field : Field) (i : Nat) (name : Bytes) : Option Value :=
  (field.table (f.scope i)).get? name

/-- Reading a name from `t` ends at the scope `c`: it binds the name, and no nearer scope does. -/
def EndsAt (f : Forest) (field : Field) (t : Nat) (name : Bytes) (c : Nat) : Prop :=
  ∃ nearer farther, f.chain t = nearer ++ c :: farther ∧
    (∀ j ∈ nearer, f.cell? field j name = none) ∧ f.cell? field c name ≠ none

/-- The cell of scope `c` holds `v`, and every other cell what it held before. -/
def WritesCell (field : Field) (c : Nat) (name : Bytes) (v : Value) (f f' : Forest) : Prop :=
  ∀ j m, f'.cell? field j m = if j = c ∧ m = name then some v else f.cell? field j m

/-- What was stored under a name from the scope `s` is in the cell of scope `c`, and in nothing else
that can be seen from anywhere. `other` is the table that was not written to. -/
structure Stored (field other : Field) (s : Nat) (name : Bytes) (v : Value) (f f' : Forest)
    (c : Nat) : Prop where
  /-- It is the nearest cell that was bound, or one of `s` if none was. -/
  nearest : f.EndsAt field s name c ∨ (∀ j ∈ f.chain s, f.cell? field j name = none) ∧ c = s
  cells : WritesCell field c name v f f'
  found : f'.get? field s name = some v
  reached : ∀ t, f'.EndsAt field t name c → f'.get? field t name = some v
  unreached : ∀ t m, ¬ (m = name ∧ f'.EndsAt field t name c) →
    f'.get? field t m = f.get? field t m
  /-- Where a scope on the way to the root binds the name, `s` gets no binding of its own. -/
  unshadowed : (∃ a ∈ f.chain s, f.cell? field a name ≠ none) →
    (f'.cell? field s name = none ↔ f.cell? field s name = none)
  other : ∀ j, other.table (f'.scope j) = other.table (f.scope j)
  statements : ∀ j, (f'.scope j).statements = (f.scope j).statements
  charts : ∀ j, (f'.scope j).charts = (f.scope j).charts
  size : f'.size = f.size
  parent : ∀ j, f'.parent? j = f.parent? j

/-! ## Where reading ends -/

theorem contains_eq_false_iff (f : Forest) (field : Field) (j : Nat) (name : Bytes) :
    (field.table (f.scope j)).contains name = false ↔ f.cell? field j name = none :=
  Option.isSome_eq_false_iff.trans Option.isNone_iff_eq_none

theorem contains_eq_true_iff (f : Forest) (field : Field) (j : Nat) (name : Bytes) :
    (field.table (f.scope j)).contains name = true ↔ f.cell? field j name ≠ none :=
  Option.isSome_iff_ne_none

theorem endsAt_iff {f : Forest} {field : Field} {t c : Nat} {name : Bytes} :
    f.EndsAt field t name c ↔ f.holder? field t name = some c := by
  rw [holder?, List.find?_eq_some_iff_append, contains_eq_true_iff]
  constructor
  · rintro ⟨nearer, farther, hchain, hfree, hbound⟩
    refine ⟨hbound, nearer, farther, hchain, fun j hj => ?_⟩
    rw [Bool.not_eq_true', contains_eq_false_iff]
    exact hfree j hj
  · rintro ⟨hbound, nearer, farther, hchain, hfree⟩
    refine ⟨nearer, farther, hchain, fun j hj => ?_, hbound⟩
    rw [← contains_eq_false_iff, ← Bool.not_eq_true']
    exact hfree j hj

theorem holder?_eq_none {f : Forest} {field : Field} {t : Nat} {name : Bytes}
    (h : f.holder? field t name = none) : ∀ j ∈ f.chain t, f.cell? field j name = none := by
  intro j hj
  have hfree := List.find?_eq_none.1 h j hj
  rwa [Bool.not_eq_true, contains_eq_false_iff] at hfree

theorem EndsAt.get? {f : Forest} {field : Field} {t c : Nat} {name : Bytes}
    (h : f.EndsAt field t name c) : f.get? field t name = f.cell? field c name := by
  rw [Forest.get?, endsAt_iff.1 h]
  rfl

/-- Reading ends where it did if no nearer scope has come to bind the name. -/
theorem EndsAt.of_cells {f f' : Forest} {field : Field} {t c : Nat} {name : Bytes}
    (h : f'.EndsAt field t name c) (hchain : f'.chain t = f.chain t)
    (hcell : ∀ j, f'.cell? field j name = none → f.cell? field j name = none)
    (hsame : f'.cell? field c name = f.cell? field c name) : f.EndsAt field t name c := by
  obtain ⟨nearer, farther, hsplit, hfree, hbound⟩ := h
  exact ⟨nearer, farther, hchain ▸ hsplit, fun j hj => hcell j (hfree j hj), hsame ▸ hbound⟩

/-! ## What a write changes -/

theorem writesCell_put {field : Field} (hfield : field.Lawful) {f : Forest} {s : Nat}
    (hs : s < f.size) (name : Bytes) (v : Value) :
    WritesCell field ((f.holder? field s name).getD s) name v f (f.put field s name v) := by
  intro j m
  rw [cell?, table_put hfield hs]
  by_cases hj : j = (f.holder? field s name).getD s
  · rw [if_pos hj, Table.get?_insert]
    simp only [hj, true_and]
    rfl
  · rw [if_neg hj, if_neg fun h => hj h.1]
    rfl

namespace WritesCell

variable {field : Field} {c : Nat} {name : Bytes} {v : Value} {f f' : Forest}

/-- A cell that is free after a write was free before. -/
theorem eq_none (h : WritesCell field c name v f f') {j : Nat} {m : Bytes}
    (hfree : f'.cell? field j m = none) : f.cell? field j m = none := by
  rw [h] at hfree
  split at hfree
  · cases hfree
  · exact hfree

theorem get?_of_reached (h : WritesCell field c name v f f') {t : Nat}
    (hends : f'.EndsAt field t name c) : f'.get? field t name = some v := by
  rw [hends.get?, h, if_pos ⟨rfl, rfl⟩]

theorem get?_of_unreached (h : WritesCell field c name v f f') {t : Nat}
    (hchain : f'.chain t = f.chain t) {m : Bytes}
    (hno : ¬ (m = name ∧ f'.EndsAt field t name c)) :
    f'.get? field t m = f.get? field t m := by
  by_cases hm : m = name
  · subst hm
    cases hholder : f'.holder? field t m with
    | none =>
      -- No scope on the way binds the name now, so none of them was written to.
      refine get?_congr hchain fun j hj => ?_
      have hfree := holder?_eq_none hholder j (hchain ▸ hj)
      exact hfree.trans (h.eq_none hfree).symm
    | some d =>
      have hends : f'.EndsAt field t m d := endsAt_iff.2 hholder
      have hne : d ≠ c := by
        rintro rfl
        exact hno ⟨rfl, hends⟩
      have hsame : f'.cell? field d m = f.cell? field d m := by
        rw [h, if_neg fun hd => hne hd.1]
      have hbefore := hends.of_cells hchain (fun j => h.eq_none) hsame
      rw [hends.get?, hbefore.get?, hsame]
  · refine get?_congr hchain fun j _ => ?_
    exact (h j m).trans (if_neg fun hj => hm hj.2)

end WritesCell

/-! ## The laws -/

theorem put_stored {field other : Field} (hfield : field ∈ fields)
    (hother : ∀ s t, other.table (field.replace s t) = other.table s) (f : Forest) {s : Nat}
    (hs : s < f.size) (name : Bytes) (v : Value) :
    Stored field other s name v f (f.put field s name v) ((f.holder? field s name).getD s) := by
  have hlawful := lawful_of_mem hfield
  have hcells := writesCell_put hlawful hs name v
  have hnearest : f.EndsAt field s name ((f.holder? field s name).getD s) ∨
      (∀ j ∈ f.chain s, f.cell? field j name = none) ∧ (f.holder? field s name).getD s = s := by
    cases hholder : f.holder? field s name with
    | none => exact .inr ⟨holder?_eq_none hholder, rfl⟩
    | some c => exact .inl (endsAt_iff.2 hholder)
  refine
    { nearest := hnearest
      cells := hcells
      found := by rw [get?_put hlawful hs, if_pos rfl]
      reached := fun t => hcells.get?_of_reached
      unreached := fun t m => hcells.get?_of_unreached (chain_modify ..)
      unshadowed := ?_
      other := fun j => view_modify (fun _ => hother _ _) f _ j
      statements := fun j => view_modify (fun _ => (statements_replace hfield _ _).1) f _ j
      charts := fun j => view_modify (fun _ => (statements_replace hfield _ _).2) f _ j
      size := size_modify ..
      parent := parent?_modify f _ _ }
  rintro ⟨a, ha, hbound⟩
  rw [hcells]
  split
  · next hs' =>
    -- Then `s` is the nearest scope that binds the name, so it had a binding.
    rcases hnearest with ⟨nearer, farther, -, -, hc⟩ | ⟨hfree, -⟩
    · rw [← hs'.1] at hc
      simp [hc]
    · exact absurd (hfree a ha) hbound
  · exact Iff.rfl

/-- **A write touches one cell**, and is seen from the scopes whose reading ends there. -/
theorem put_writes_one_cell (f : Forest) {s : Nat} (hs : s < f.size) (name : Bytes) (v : Value) :
    (∃ c, Stored symbolField propertyField s name v f (f.putSymbol s name v) c) ∧
      ∃ c, Stored propertyField symbolField s name v f (f.putProperty s name v) c :=
  ⟨⟨_, put_stored symbolField_mem (fun _ _ => rfl) f hs name v⟩,
    ⟨_, put_stored propertyField_mem (fun _ _ => rfl) f hs name v⟩⟩

/-- A root, a child that has bound a name before the root did, a child of that child, and a second
child of the root. -/
def kin : Forest :=
  ((((root.add (some 0)).putSymbol 1 "x" (.integer 1)).putSymbol 0 "x" (.integer 2)).add
    (some 1)).add (some 0)

/-- What is stored from the grandchild goes to the first child; the second still sees the root. -/
theorem put_writes_one_cell_kin :
    2 < kin.size ∧
      (kin.putSymbol 2 "x" (.integer 3)).symbol? 2 "x" = some (.integer 3) ∧
      (kin.putSymbol 2 "x" (.integer 3)).symbol? 1 "x" = some (.integer 3) ∧
      (kin.putSymbol 2 "x" (.integer 3)).symbol? 3 "x" = kin.symbol? 3 "x" := by
  have hlt : 2 < kin.size := by decide +kernel
  obtain ⟨⟨c, hstored⟩, -⟩ := put_writes_one_cell kin hlt "x" (.integer 3)
  have hholder : kin.holder? symbolField 2 "x" = some 1 := by decide +kernel
  have hc : c = 1 := by
    rcases hstored.nearest with hends | ⟨hfree, -⟩
    · exact Option.some.inj ((endsAt_iff.1 hends).symm.trans hholder)
    · have hends := endsAt_iff.2 hholder
      obtain ⟨nearer, farther, hchain, -, hbound⟩ := hends
      exact absurd (hfree 1 (by rw [hchain]; simp)) hbound
  subst hc
  refine ⟨hlt, hstored.found, hstored.reached 1 (endsAt_iff.2 (by decide +kernel)),
    hstored.unreached 3 "x" ?_⟩
  rintro ⟨-, hends⟩
  have hroot : (kin.putSymbol 2 "x" (.integer 3)).holder? symbolField 3 "x" = some 0 := by
    decide +kernel
  exact absurd ((endsAt_iff.1 hends).symm.trans hroot) (by decide)

end Forest
end ChartScript
