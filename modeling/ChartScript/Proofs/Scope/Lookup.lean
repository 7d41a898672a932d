import ChartScript.Scope.Forest
import Mathlib.Data.List.Find
import Mathlib.Data.List.Pairwise

/-!
# Reading and writing names

The laws of tables and of trees of scopes: what is read after a write, what a write leaves alone,
and which names there are afterwards, in byte order. A write goes to the nearest scope that binds the name, so it
never makes a second binding on the way to the root; what is read after it is what was written, and
no other name reads differently.
-/

set_option autoImplicit false

namespace ChartScript

/-! ## Byte order -/

namespace Bytes

theorem le_iff {a b : Bytes} : le a b = true ↔ ¬ b < a := by
  simp [le]

theorem pairwise_sort (texts : List Bytes) : (sort texts).Pairwise fun a b => ¬ b < a := by
  have htrans : ∀ a b c : Bytes, le a b = true → le b c = true → le a c = true := by
    intro a b c hab hbc
    rw [le_iff] at hab hbc ⊢
    exact List.not_lt.2 (List.le_trans (List.not_lt.1 hab) (List.not_lt.1 hbc))
  have htotal : ∀ a b : Bytes, (le a b || le b a) = true := by
    intro a b
    rw [Bool.or_eq_true, le_iff, le_iff]
    exact (List.le_total a b).imp List.not_lt.2 List.not_lt.2
  exact (List.pairwise_mergeSort htrans htotal texts).imp le_iff.1

/-- Texts in increasing order are what sorting makes of them. -/
theorem sort_eq_of_perm {texts sorted : List Bytes} (h : texts.Perm sorted)
    (hsorted : sorted.Pairwise (· < ·)) : sort texts = sorted := by
  have hle : sorted.Pairwise fun a b => ¬ b < a := hsorted.imp fun hlt => List.lt_asymm hlt
  exact List.Perm.eq_of_pairwise (fun a b _ _ hab hba => Bytes.eq_of_not_lt hba hab)
    (pairwise_sort texts) hle ((List.mergeSort_perm _ _).trans h)

end Bytes

/-! ## Tables -/

namespace Table

variable {α : Type}

theorem find?_insertEntry_self (name : Bytes) (a : α) (entries : List (Bytes × α)) :
    (insertEntry name a entries).find? (fun e => e.1 == name) = some (name, a) := by
  induction entries with
  | nil => simp [insertEntry]
  | cons x rest ih =>
    rw [insertEntry]
    split
    · simp
    · split
      · next hlt =>
        have hne : x.1 ≠ name := fun h => List.lt_irrefl name (h ▸ hlt)
        simpa [hne] using ih
      · simp

theorem find?_insertEntry_ne {name other : Bytes} (h : other ≠ name) (a : α)
    (entries : List (Bytes × α)) :
    (insertEntry name a entries).find? (fun e => e.1 == other) =
      entries.find? (fun e => e.1 == other) := by
  have hne : name ≠ other := fun heq => h heq.symm
  induction entries with
  | nil => simp [insertEntry, hne]
  | cons x rest ih =>
    rw [insertEntry]
    split
    · simp [hne]
    · next hnlt =>
      split
      · simp only [List.find?_cons]
        rw [ih]
      · next hngt =>
        have heq : name = x.1 := Bytes.eq_of_not_lt hnlt hngt
        have hx : x.1 ≠ other := heq ▸ hne
        simp [hne, hx]

theorem get?_insert (t : Table α) (name other : Bytes) (a : α) :
    (t.insert name a).get? other = if other = name then some a else t.get? other := by
  unfold get? insert
  split
  · next h => rw [h, find?_insertEntry_self]; rfl
  · next h => rw [find?_insertEntry_ne h]

theorem contains_insert (t : Table α) (name other : Bytes) (a : α) :
    (t.insert name a).contains other = (decide (other = name) || t.contains other) := by
  unfold contains
  rw [get?_insert]
  by_cases h : other = name <;> simp [h]

theorem contains_iff (t : Table α) (name : Bytes) : t.contains name = true ↔ name ∈ t.names := by
  simp [contains, get?, names]

/-- Replacing an entry adds no name. -/
theorem names_insert {t : Table α} {name : Bytes} (h : t.contains name = true) (a : α) :
    (t.insert name a).names = t.names := by
  have hlist : ∀ entries : List (Bytes × α), entries.Pairwise (fun x y => x.1 < y.1) →
      name ∈ entries.map (·.1) →
        (insertEntry name a entries).map (·.1) = entries.map (·.1) := by
    intro entries hsorted hmem
    induction entries with
    | nil => cases hmem
    | cons x rest ih =>
      obtain ⟨hx, hrest⟩ := List.pairwise_cons.1 hsorted
      rw [insertEntry]
      split
      · next hlt =>
        -- A name before the first one is not in the table.
        rcases List.mem_cons.1 hmem with heq | hmem
        · exact absurd (heq ▸ hlt) (List.lt_irrefl _)
        · obtain ⟨y, hy, heq⟩ := List.mem_map.1 hmem
          exact absurd (List.lt_trans (heq ▸ hx y hy) hlt) (List.lt_irrefl _)
      · next hnlt =>
        split
        · next hgt =>
          have hne : name ≠ x.1 := fun heq => List.lt_irrefl name (heq ▸ hgt)
          rw [List.map_cons, ih hrest (List.mem_of_ne_of_mem hne hmem), List.map_cons]
        · next hngt =>
          rw [List.map_cons, List.map_cons, Bytes.eq_of_not_lt hnlt hngt]
  exact hlist t.entries t.sorted ((contains_iff t name).1 h)

/-- What is read after many writes: the last one of the name, or what was there before. -/
theorem get?_foldl_insert {β : Type} (key : β → Bytes) (entry : β → α) (bindings : List β)
    (t : Table α) (name : Bytes) :
    (bindings.foldl (fun t b => t.insert (key b) (entry b)) t).get? name =
      ((bindings.reverse.find? (key · == name)).map entry).or (t.get? name) := by
  induction bindings generalizing t with
  | nil => rfl
  | cons b bindings ih =>
    rw [List.foldl_cons, ih, get?_insert, List.reverse_cons, List.find?_append, Option.map_or,
      Option.or_assoc, List.find?_singleton]
    by_cases hname : key b = name
    · simp [hname]
    · simp [hname, Ne.symm hname]

/-- What a table was given is all that it has. -/
theorem mem_of_get?_ofList {bindings : List (Bytes × α)} {name : Bytes} {a : α}
    (h : (ofList bindings).get? name = some a) : (name, a) ∈ bindings := by
  have hlast : (ofList bindings).get? name =
      ((bindings.reverse.find? (·.1 == name)).map (·.2)).or none :=
    get?_foldl_insert Prod.fst Prod.snd bindings empty name
  rw [h, Option.or_none] at hlast
  obtain ⟨e, hfind, rfl⟩ := Option.map_eq_some_iff.1 hlast.symm
  obtain rfl : e.1 = name := by simpa using List.find?_some hfind
  exact List.mem_reverse.1 (List.mem_of_find?_eq_some hfind)

/-- Where names are told apart, an entry is found by its name. -/
theorem find?_of_mem {entries : List (Bytes × α)} {e : Bytes × α}
    (h : entries.Pairwise fun x y => x.1 ≠ y.1) (hmem : e ∈ entries) :
    entries.find? (fun x => x.1 == e.1) = some e := by
  induction entries with
  | nil => cases hmem
  | cons x rest ih =>
    obtain ⟨hx, hrest⟩ := List.pairwise_cons.1 h
    rcases List.mem_cons.1 hmem with rfl | hmem
    · simp
    · rw [List.find?_cons_of_neg (by simpa using hx e hmem)]
      exact ih hrest hmem

theorem pairwise_ne (t : Table α) : t.entries.Pairwise fun x y => x.1 ≠ y.1 :=
  t.sorted.imp fun {x y} (hlt : x.1 < y.1) heq => List.lt_irrefl y.1 (heq ▸ hlt)

theorem get?_eq_some_iff {t : Table α} {name : Bytes} {a : α} :
    t.get? name = some a ↔ (name, a) ∈ t.entries := by
  unfold get?
  rw [Option.map_eq_some_iff]
  constructor
  · rintro ⟨⟨n, b⟩, hfind, rfl⟩
    obtain rfl : n = name := by simpa using List.find?_some hfind
    exact List.mem_of_find?_eq_some hfind
  · intro hmem
    exact ⟨_, find?_of_mem t.pairwise_ne hmem, rfl⟩

/-- **Tables that read alike are one.** -/
theorem ext_get? {t u : Table α} (h : ∀ name, t.get? name = u.get? name) : t = u := by
  have hmem : ∀ e, e ∈ t.entries ↔ e ∈ u.entries := fun e => by
    rw [← get?_eq_some_iff, ← get?_eq_some_iff, h]
  have hnodup : ∀ t : Table α, t.entries.Nodup := fun t =>
    t.pairwise_ne.imp fun hne heq => hne (congrArg Prod.fst heq)
  have hperm : t.entries.Perm u.entries := (List.perm_ext_iff_of_nodup (hnodup t) (hnodup u)).2 hmem
  have hentries : t.entries = u.entries :=
    hperm.eq_of_pairwise (fun x y _ _ hxy hyx => absurd (List.lt_trans hxy hyx) (List.lt_irrefl _))
      t.sorted u.sorted
  cases t
  cases u
  congr

theorem insert_comm (t : Table α) {name other : Bytes} (h : name ≠ other) (a b : α) :
    (t.insert name a).insert other b = (t.insert other b).insert name a := by
  refine ext_get? fun x => ?_
  rw [get?_insert, get?_insert, get?_insert, get?_insert]
  by_cases hname : x = name
  · rw [if_pos hname, if_pos hname, if_neg (hname ▸ h)]
  · rw [if_neg hname, if_neg hname]

/-- Writes of different names may be made in any order. -/
theorem foldl_insert_perm {β : Type} (key : β → Bytes) (entry : β → α) {bindings others : List β}
    (hdistinct : bindings.Pairwise fun x y => key x ≠ key y) (hperm : bindings.Perm others)
    (t : Table α) :
    bindings.foldl (fun t b => t.insert (key b) (entry b)) t =
      others.foldl (fun t b => t.insert (key b) (entry b)) t := by
  refine hperm.foldl_eq' (fun x hx y hy t => ?_) t
  by_cases hxy : x = y
  · rw [hxy]
  · have hne : Std.Symm fun x y : β => key x ≠ key y := ⟨fun _ _ h => Ne.symm h⟩
    exact insert_comm t (hdistinct.forall hx hy hxy) _ _

end Table

/-! ## Trees of scopes -/

namespace Forest

theorem scope_modify (f : Forest) (i : Nat) (change : Scope → Scope) (j : Nat) :
    (f.modify i change).scope j =
      if j = i ∧ i < f.size then change (f.scope i) else f.scope j := by
  unfold scope modify size
  rw [List.getElem?_modify]
  by_cases hj : i = j
  · subst hj
    by_cases hi : i < f.nodes.length
    · simp [hi]
    · simp [hi]
  · have hji : ¬ j = i := fun h => hj h.symm
    simp [hj, hji]

theorem scope_modify_self {f : Forest} {i : Nat} (hi : i < f.size) (change : Scope → Scope) :
    (f.modify i change).scope i = change (f.scope i) := by
  rw [scope_modify, if_pos ⟨rfl, hi⟩]

theorem scope_modify_ne {i j : Nat} (h : j ≠ i) (f : Forest) (change : Scope → Scope) :
    (f.modify i change).scope j = f.scope j := by
  rw [scope_modify, if_neg fun hj => h hj.1]

/-- What a change to a scope does not show is the same everywhere. -/
theorem view_modify {β : Type} {view : Scope → β} {change : Scope → Scope}
    (h : ∀ s, view (change s) = view s) (f : Forest) (i j : Nat) :
    view ((f.modify i change).scope j) = view (f.scope j) := by
  rw [scope_modify]
  split
  · next hj => rw [h, hj.1]
  · rfl

@[simp] theorem size_modify (f : Forest) (i : Nat) (change : Scope → Scope) :
    (f.modify i change).size = f.size := by
  simp [size, modify]

@[simp] theorem parent?_modify (f : Forest) (i : Nat) (change : Scope → Scope) (j : Nat) :
    (f.modify i change).parent? j = f.parent? j := by
  unfold parent? modify
  rw [List.getElem?_modify]
  by_cases h : i = j
  · subst h
    cases f.nodes[i]? <;> simp
  · simp [h]

theorem chain_eq_of_parent? {f g : Forest} (h : ∀ j, g.parent? j = f.parent? j) (i : Nat) :
    g.chain i = f.chain i := by
  induction i using Nat.strongRecOn with
  | ind i ih =>
    rw [chain, chain]
    split
    · next p hp =>
      have hpf : f.parent? i = some p := h i ▸ hp
      split
      · next p' hp' =>
        obtain rfl : p = p' := Option.some.inj (hpf.symm.trans hp')
        rw [ih p (parent?_lt hp)]
      · next hp' => rw [hpf] at hp'; cases hp'
    · next hp =>
      have hpf : f.parent? i = none := h i ▸ hp
      split
      · next p' hp' => rw [hpf] at hp'; cases hp'
      · rfl

@[simp] theorem chain_modify (f : Forest) (i : Nat) (change : Scope → Scope) (j : Nat) :
    (f.modify i change).chain j = f.chain j :=
  chain_eq_of_parent? (f.parent?_modify i change) j

theorem chain_of_parent {f : Forest} {i p : Nat} (h : f.parent? i = some p) :
    f.chain i = i :: f.chain p := by
  rw [chain]
  split
  · next p' hp' =>
    rw [h] at hp'
    rw [Option.some.inj hp']
  · next hp' => rw [h] at hp'; cases hp'

theorem chain_of_root {f : Forest} {i : Nat} (h : f.parent? i = none) : f.chain i = [i] := by
  rw [chain]
  split
  · next p' hp' => rw [h] at hp'; cases hp'
  · rfl

/-- The way to the root goes down. -/
theorem le_of_mem_chain {f : Forest} {i j : Nat} (h : j ∈ f.chain i) : j ≤ i := by
  induction i using Nat.strongRecOn with
  | ind i ih =>
    cases hp : f.parent? i with
    | none =>
      rw [chain_of_root hp] at h
      exact Nat.le_of_eq (List.mem_singleton.1 h)
    | some p =>
      rw [chain_of_parent hp] at h
      have hlt := parent?_lt hp
      rcases List.mem_cons.1 h with rfl | h
      · exact Nat.le_refl _
      · exact Nat.le_trans (ih p hlt h) (Nat.le_of_lt hlt)

theorem head_chain (f : Forest) (i : Nat) : ∃ rest, f.chain i = i :: rest := by
  cases hp : f.parent? i with
  | none => exact ⟨[], chain_of_root hp⟩
  | some p => exact ⟨f.chain p, chain_of_parent hp⟩

/-! ### Adding a scope -/

@[simp] theorem size_add (f : Forest) (parent : Option Nat) :
    (f.add parent).size = f.size + 1 := by
  simp [size, add]

theorem scope_add (f : Forest) (parent : Option Nat) (i : Nat) :
    (f.add parent).scope i = f.scope i := by
  unfold scope add
  by_cases hi : i < f.nodes.length
  · rw [List.getElem?_append_left hi]
  · rw [List.getElem?_append_right (Nat.le_of_not_lt hi),
      List.getElem?_eq_none (Nat.le_of_not_lt hi)]
    cases i - f.nodes.length <;> rfl

/-- Where the next scope is going to be, there is nothing yet. -/
@[simp] theorem scope_size (f : Forest) : f.scope f.size = {} := by
  simp [scope, size]

theorem parent?_add_of_lt {f : Forest} {i : Nat} (hi : i < f.size) (parent : Option Nat) :
    (f.add parent).parent? i = f.parent? i := by
  unfold parent? add
  rw [List.getElem?_append_left hi]

theorem parent?_add_new {f : Forest} {p : Nat} (hp : p < f.size) :
    (f.add (some p)).parent? f.size = some p := by
  unfold size at hp
  simp [parent?, add, size, hp]

/-! ### Fields -/

/-- A table that was put in is the table that is there. -/
def Field.Lawful (field : Field) : Prop := ∀ s t, field.table (field.replace s t) = t

theorem symbolField_lawful : symbolField.Lawful := fun _ _ => rfl

theorem propertyField_lawful : propertyField.Lawful := fun _ _ => rfl

/-! ### Reading -/

/-- What is read depends only on the tables on the way to the root. -/
theorem get?_congr {f g : Forest} {field : Field} {i : Nat} (hchain : g.chain i = f.chain i)
    {name : Bytes} (h : ∀ j ∈ f.chain i,
      (field.table (g.scope j)).get? name = (field.table (f.scope j)).get? name) :
    g.get? field i name = f.get? field i name := by
  have hholder : g.holder? field i name = f.holder? field i name := by
    unfold holder? Table.contains
    rw [hchain]
    exact List.find?_congr fun j hj => congrArg Option.isSome (h j hj)
  unfold get?
  rw [hholder]
  cases hf : f.holder? field i name with
  | none => rfl
  | some j => exact h j (List.mem_of_find?_eq_some hf)

/-- A change that leaves a table alone does not change what is read from it. -/
theorem get?_modify {field : Field} {change : Scope → Scope}
    (h : ∀ s, field.table (change s) = field.table s) (f : Forest) (j i : Nat) (name : Bytes) :
    (f.modify j change).get? field i name = f.get? field i name := by
  refine get?_congr (f.chain_modify j change i) fun k _ => ?_
  exact congrArg (·.get? name) (view_modify h f j k)

/-! ### Writing -/

theorem holder_mem_chain (f : Forest) (field : Field) (i : Nat) (name : Bytes) :
    (f.holder? field i name).getD i ∈ f.chain i := by
  cases hf : f.holder? field i name with
  | none =>
    obtain ⟨rest, hchain⟩ := f.head_chain i
    rw [hchain]
    exact List.mem_cons_self
  | some j => exact List.mem_of_find?_eq_some hf

/-- The tables after a write: one of them has one entry more. -/
theorem table_put {field : Field} (hfield : field.Lawful) {f : Forest} {i : Nat} (hi : i < f.size)
    (name : Bytes) (v : Value) (j : Nat) :
    field.table ((f.put field i name v).scope j) =
      if j = (f.holder? field i name).getD i then (field.table (f.scope j)).insert name v
      else field.table (f.scope j) := by
  have hle := le_of_mem_chain (f.holder_mem_chain field i name)
  unfold put
  by_cases hj : j = (f.holder? field i name).getD i
  · rw [if_pos hj, hj, scope_modify_self (by omega), hfield]
  · rw [if_neg hj, scope_modify_ne hj]

/-- The scope written to is the nearest one that binds the name after the write. -/
theorem holder?_put {field : Field} (hfield : field.Lawful) {f : Forest} {i : Nat} (hi : i < f.size)
    (name : Bytes) (v : Value) :
    (f.put field i name v).holder? field i name = some ((f.holder? field i name).getD i) := by
  have htable := table_put hfield hi name v
  have hchain : (f.put field i name v).chain i = f.chain i := chain_modify ..
  cases hf : f.holder? field i name with
  | none =>
    -- No scope binds the name, so it is bound where the search begins.
    obtain ⟨rest, hrest⟩ := f.head_chain i
    rw [holder?, hchain, hrest, List.find?_cons_of_pos]
    · rfl
    · rw [htable, hf, if_pos (Option.getD_none ..).symm, Table.contains_insert]
      simp
  | some j =>
    -- The scope that is found binds the name already, so the search ends where it did.
    have hj := List.find?_some hf
    rw [holder?, hchain, Option.getD_some, ← hf]
    refine List.find?_congr fun k _ => ?_
    rw [htable, hf, Option.getD_some]
    split
    · next hk => rw [Table.contains_insert, hk, hj, Bool.or_true]
    · rfl

/-- **What is read after a write**: what was written under the name, and what was there before under
any other name. -/
theorem get?_put {field : Field} (hfield : field.Lawful) {f : Forest} {i : Nat} (hi : i < f.size)
    (name other : Bytes) (v : Value) :
    (f.put field i name v).get? field i other =
      if other = name then some v else f.get? field i other := by
  have htable := table_put hfield hi name v
  by_cases hother : other = name
  · rw [if_pos hother, hother, get?, holder?_put hfield hi, Option.bind_some, htable, if_pos rfl,
      Table.get?_insert, if_pos rfl]
  · rw [if_neg hother]
    have hchain : (f.put field i name v).chain i = f.chain i := chain_modify ..
    refine get?_congr hchain fun j _ => ?_
    rw [htable]
    split
    · rw [Table.get?_insert, if_neg hother]
    · rfl

end Forest
end ChartScript
