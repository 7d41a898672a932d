import ChartScript.Proofs.Scope.Lookup

/-!
# What can be done from a scope below the root

A scope below the root reaches itself and the root, and the root only as far as the root already has
names: `Confined` says so of what becomes of all scopes. It holds of each of the four ways to write
to a scope, and it adds up, so it holds of whatever is done from there.
-/

set_option autoImplicit false

namespace ChartScript

open Forest

/-! ## Two tables -/

namespace Forest

/-- The tables of names that a scope has. -/
def fields : List Field := [symbolField, propertyField]

theorem mem_fields {field : Field} :
    field ∈ fields ↔ field = symbolField ∨ field = propertyField := by
  simp [fields]

theorem symbolField_mem : symbolField ∈ fields := mem_fields.2 (.inl rfl)

theorem propertyField_mem : propertyField ∈ fields := mem_fields.2 (.inr rfl)

theorem lawful_of_mem {field : Field} (h : field ∈ fields) : field.Lawful := by
  rcases mem_fields.1 h with rfl | rfl
  · exact symbolField_lawful
  · exact propertyField_lawful

/-- To replace a table leaves the other one alone. -/
theorem table_replace {field field' : Field} (h : field ∈ fields) (h' : field' ∈ fields) :
    field' = field ∨ ∀ s t, field'.table (field.replace s t) = field'.table s := by
  rcases mem_fields.1 h with rfl | rfl
  all_goals rcases mem_fields.1 h' with rfl | rfl
  · exact .inl rfl
  · exact .inr fun _ _ => rfl
  · exact .inr fun _ _ => rfl
  · exact .inl rfl

theorem statements_replace {field : Field} (h : field ∈ fields) (s : Scope) (t : Table Value) :
    (field.replace s t).statements = s.statements ∧ (field.replace s t).charts = s.charts := by
  rcases mem_fields.1 h with rfl | rfl
  · exact ⟨rfl, rfl⟩
  · exact ⟨rfl, rfl⟩

end Forest

/-! ## Scopes side by side -/

/-- The same names, statements and charts; the values may be others. -/
structure Scope.SameShape (s s' : Scope) : Prop where
  names : ∀ field ∈ fields, (field.table s').names = (field.table s).names
  statements : s'.statements = s.statements
  charts : s'.charts = s.charts

/-- No name is bound by both. -/
def Scope.Apart (s s' : Scope) : Prop :=
  ∀ field ∈ fields, ∀ name, (field.table s).contains name = true →
    (field.table s').contains name = false

namespace Scope

theorem SameShape.refl (s : Scope) : SameShape s s := ⟨fun _ _ => rfl, rfl, rfl⟩

theorem SameShape.trans {a b c : Scope} (h : SameShape a b) (h' : SameShape b c) :
    SameShape a c :=
  ⟨fun field hfield => (h'.names field hfield).trans (h.names field hfield),
    h'.statements.trans h.statements, h'.charts.trans h.charts⟩

theorem SameShape.contains {s s' : Scope} (h : SameShape s s') {field : Field}
    (hfield : field ∈ fields) (name : Bytes) :
    (field.table s').contains name = (field.table s).contains name := by
  rw [Bool.eq_iff_iff, Table.contains_iff, Table.contains_iff, h.names field hfield]

theorem Apart.not_mem {r s : Scope} (h : Apart r s) (field : Field) (hfield : field ∈ fields)
    (name : Bytes) (hname : name ∈ (field.table r).names) : name ∉ (field.table s).names := by
  intro hown
  rw [← Table.contains_iff] at hname hown
  rw [h field hfield name hname] at hown
  cases hown

theorem Apart.of_shape {r r' s : Scope} (h : Apart r s) (hshape : SameShape r r') : Apart r' s := by
  intro field hfield name hname
  rw [hshape.contains hfield] at hname
  exact h field hfield name hname

theorem apart_empty (s : Scope) : Apart s {} := by
  intro field hfield name _
  rcases mem_fields.1 hfield with rfl | rfl <;> rfl

/-- A name that `r` does not bind can be bound besides it. -/
theorem Apart.replace {r s : Scope} {field : Field} (hfield : field ∈ fields) (h : Apart r s)
    {name : Bytes} (hname : (field.table r).contains name = false) (v : Value) :
    Apart r (field.replace s ((field.table s).insert name v)) := by
  intro field' hfield' other hother
  rcases table_replace hfield hfield' with rfl | hframe
  · have hne : other ≠ name := by
      rintro rfl
      rw [hname] at hother
      cases hother
    rw [lawful_of_mem hfield, Table.contains_insert, h field' hfield' other hother]
    simp [hne]
  · rw [hframe]
    exact h field' hfield' other hother

/-- To bind a name anew that is bound changes values only. -/
theorem sameShape_replace {s : Scope} {field : Field} (hfield : field ∈ fields) {name : Bytes}
    (hname : (field.table s).contains name = true) (v : Value) :
    SameShape s (field.replace s ((field.table s).insert name v)) := by
  obtain ⟨hstatements, hcharts⟩ := statements_replace hfield s ((field.table s).insert name v)
  refine ⟨fun field' hfield' => ?_, hstatements, hcharts⟩
  rcases table_replace hfield hfield' with rfl | hframe
  · rw [lawful_of_mem hfield, Table.names_insert hname]
  · rw [hframe]

end Scope

/-! ## Below the root -/

namespace Forest

/-- A scope right below a root. -/
structure IsChild (f : Forest) (root i : Nat) : Prop where
  root_lt : root < f.size
  lt : i < f.size
  root_parent : f.parent? root = none
  parent : f.parent? i = some root

theorem IsChild.ne {f : Forest} {root i : Nat} (h : f.IsChild root i) : root ≠ i :=
  Nat.ne_of_lt (parent?_lt h.parent)

theorem IsChild.chain {f : Forest} {root i : Nat} (h : f.IsChild root i) :
    f.chain i = [i, root] := by
  rw [chain_of_parent h.parent, chain_of_root h.root_parent]

theorem IsChild.add {f : Forest} {root i : Nat} (h : f.IsChild root i) (parent : Option Nat) :
    (f.add parent).IsChild root i where
  root_lt := (size_add f parent).symm ▸ Nat.lt_succ_of_lt h.root_lt
  lt := (size_add f parent).symm ▸ Nat.lt_succ_of_lt h.lt
  root_parent := (parent?_add_of_lt h.root_lt parent).trans h.root_parent
  parent := (parent?_add_of_lt h.lt parent).trans h.parent

theorem isChild_add {f : Forest} {root : Nat} (hlt : root < f.size)
    (hroot : f.parent? root = none) :
    (f.add (some root)).IsChild root f.size where
  root_lt := (size_add f (some root)).symm ▸ Nat.lt_succ_of_lt hlt
  lt := (size_add f (some root)).symm ▸ Nat.lt_succ_self f.size
  root_parent := (parent?_add_of_lt hlt (some root)).trans hroot
  parent := parent?_add_new hlt

/-- What may become of the scopes when something is done from the scope `i` below the root. -/
structure Confined (root i : Nat) (f f' : Forest) : Prop where
  size : f'.size = f.size
  parent : ∀ j, f'.parent? j = f.parent? j
  others : ∀ j, j ≠ i → j ≠ root → f'.scope j = f.scope j
  shape : (f.scope root).SameShape (f'.scope root)
  apart : (f.scope root).Apart (f.scope i) → (f'.scope root).Apart (f'.scope i)

theorem Confined.refl (root i : Nat) (f : Forest) : Confined root i f f :=
  ⟨rfl, fun _ => rfl, fun _ _ _ => rfl, .refl _, id⟩

theorem Confined.trans {root i : Nat} {a b c : Forest} (h : Confined root i a b)
    (h' : Confined root i b c) : Confined root i a c where
  size := h'.size.trans h.size
  parent j := (h'.parent j).trans (h.parent j)
  others j hi hroot := (h'.others j hi hroot).trans (h.others j hi hroot)
  shape := h.shape.trans h'.shape
  apart happart := h'.apart (h.apart happart)

theorem IsChild.confined {f f' : Forest} {root i j : Nat} (h : f.IsChild root j)
    (hc : Confined root i f f') : f'.IsChild root j :=
  ⟨hc.size ▸ h.root_lt, hc.size ▸ h.lt, (hc.parent root).trans h.root_parent,
    (hc.parent j).trans h.parent⟩

theorem confined_modify_own {f : Forest} {root i : Nat} (h : f.IsChild root i)
    {change : Scope → Scope}
    (hchange : (f.scope root).Apart (f.scope i) → (f.scope root).Apart (change (f.scope i))) :
    Confined root i f (f.modify i change) := by
  have hroot : (f.modify i change).scope root = f.scope root := scope_modify_ne h.ne f change
  refine ⟨size_modify .., parent?_modify f i change, fun j hj _ => scope_modify_ne hj f change,
    hroot ▸ .refl _, fun happart => ?_⟩
  rw [hroot, scope_modify_self h.lt]
  exact hchange happart

theorem confined_modify_root {f : Forest} {root i : Nat} (h : f.IsChild root i)
    {change : Scope → Scope} (hchange : (f.scope root).SameShape (change (f.scope root))) :
    Confined root i f (f.modify root change) := by
  have hroot : (f.modify root change).scope root = change (f.scope root) :=
    scope_modify_self h.root_lt change
  refine ⟨size_modify .., parent?_modify f root change,
    fun j _ hj => scope_modify_ne hj f change, hroot ▸ hchange, fun happart => ?_⟩
  rw [hroot, scope_modify_ne h.ne.symm]
  exact happart.of_shape hchange

/-- A write goes to the scope itself unless the root alone binds the name. -/
theorem put_cases {f : Forest} {root i : Nat} (h : f.IsChild root i) (field : Field) (name : Bytes)
    (v : Value) :
    (f.put field i name v =
        f.modify i (fun s => field.replace s ((field.table s).insert name v)) ∧
      ((field.table (f.scope i)).contains name = true ∨
        (field.table (f.scope root)).contains name = false)) ∨
    (f.put field i name v =
        f.modify root (fun s => field.replace s ((field.table s).insert name v)) ∧
      (field.table (f.scope root)).contains name = true) := by
  unfold put holder?
  rw [h.chain]
  cases hown : (field.table (f.scope i)).contains name with
  | true => exact .inl ⟨by simp [hown], .inl rfl⟩
  | false =>
    cases hroot : (field.table (f.scope root)).contains name with
    | true => exact .inr ⟨by simp [hown, hroot], rfl⟩
    | false => exact .inl ⟨by simp [hown, hroot], .inr rfl⟩

theorem confined_put {f : Forest} {root i : Nat} (h : f.IsChild root i) {field : Field}
    (hfield : field ∈ fields) (name : Bytes) (v : Value) :
    Confined root i f (f.put field i name v) := by
  rcases put_cases h field name v with ⟨heq, hname⟩ | ⟨heq, hname⟩
  · rw [heq]
    refine confined_modify_own h fun happart => happart.replace hfield ?_ v
    rcases hname with hown | hroot
    · -- What the scope binds itself the root does not bind, if they are apart.
      cases hroot : (field.table (f.scope root)).contains name with
      | false => rfl
      | true =>
        rw [happart field hfield name hroot] at hown
        cases hown
    · exact hroot
  · rw [heq]
    exact confined_modify_root h (Scope.sameShape_replace hfield hname v)

/-- To record something touches no names. -/
theorem confined_record {f : Forest} {root i : Nat} (h : f.IsChild root i) {change : Scope → Scope}
    (hchange : ∀ field ∈ fields, ∀ s, field.table (change s) = field.table s) :
    Confined root i f (f.modify i change) := by
  refine confined_modify_own h fun happart field hfield name hname => ?_
  rw [hchange field hfield]
  exact happart field hfield name hname

theorem table_addStatement {field : Field} (h : field ∈ fields) (stmt : Statement) (s : Scope) :
    field.table { s with statements := s.statements ++ [stmt] } = field.table s := by
  rcases mem_fields.1 h with rfl | rfl <;> rfl

theorem table_addChart {field : Field} (h : field ∈ fields) (c : Chart) (s : Scope) :
    field.table { s with charts := s.charts ++ [c] } = field.table s := by
  rcases mem_fields.1 h with rfl | rfl <;> rfl

end Forest
end ChartScript
