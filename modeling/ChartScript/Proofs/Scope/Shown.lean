import ChartScript.Proofs.Scope.Cells
import ChartScript.Scope.Snapshot
import Mathlib.Data.List.Basic
import Mathlib.Data.List.Forall2

/-!
# What a scope shows

The names of a scope, its dump and its snapshot show what the scope itself binds, each name once and
in byte order, whatever its ancestors bind. How it came to be bound is not shown: two sequences of
writes from one scope that end with the same values under the same names leave every scope of the
forest showing the same (`shown_of_last_writes`).

Where a write goes is settled before the first of them: a name that is bound on the way to the root
stays bound there, and one that is not comes to be bound where the writes are made. So of all writes
of a name the last one counts, and they all meet in one cell (`cell?_run`).
-/

set_option autoImplicit false

namespace ChartScript

/-! ## Listing -/

namespace Table

variable {α : Type}

/-- The bindings of a table as something lists them that has its names in no order: sorted, and each
looked up. -/
def listed (bindings : List (Bytes × α)) : List (Bytes × α) :=
  (Bytes.sort (bindings.map (·.1))).filterMap fun name => bindings.find? fun e => e.1 == name

/-- **Listing goes by the names, not by how the bindings are arranged.** -/
theorem listed_of_perm {t : Table α} {bindings : List (Bytes × α)} (h : bindings.Perm t.entries) :
    listed bindings = t.entries := by
  have hnames : Bytes.sort (bindings.map (·.1)) = t.names :=
    Bytes.sort_eq_of_perm (h.map _) (List.pairwise_map.2 t.sorted)
  have hdistinct : bindings.Pairwise fun x y => x.1 ≠ y.1 :=
    (h.pairwise_iff fun hne => Ne.symm hne).2 t.pairwise_ne
  have hfind : ∀ e ∈ t.entries, bindings.find? (fun x => x.1 == e.1) = some e := fun e he =>
    find?_of_mem hdistinct (h.mem_iff.2 he)
  rw [listed, hnames, names, List.filterMap_map]
  calc t.entries.filterMap (fun e => bindings.find? fun x => x.1 == e.1)
      = t.entries.filterMap some := List.filterMap_congr hfind
    _ = t.entries := List.filterMap_some

end Table

namespace Forest

/-- A record of a snapshot tells what the scope `i` itself binds a name to. -/
structure Tells (f : Forest) (i : Nat) (name : Bytes) (r : SymbolRecord) : Prop where
  named : r.name = name
  tells : ∃ v, f.cell? symbolField i name = some v ∧ r.type = v.typeName ∧ r.value = v.inspect

/-- The scope `i` shows its own bindings: each of them once, in byte order. -/
structure ShowsOwn (f : Forest) (i : Nat) : Prop where
  increasing : ∀ field ∈ fields, (field.table (f.scope i)).names.Pairwise (· < ·)
  bound : ∀ field ∈ fields, ∀ name,
    name ∈ (field.table (f.scope i)).names ↔ f.cell? field i name ≠ none
  arranged : ∀ field ∈ fields, ∀ bindings : List (Bytes × Value),
    bindings.Perm (field.table (f.scope i)).entries →
      Table.listed bindings = (field.table (f.scope i)).entries
  records : List.Forall₂ (f.Tells i) (f.scope i).symbols.names (f.symbolRecords i)

/-- The scope `i` of one forest cannot be told from that of another one. -/
structure ShowAlike (f g : Forest) (i : Nat) : Prop where
  symbolNames : (f.scope i).symbols.names = (g.scope i).symbols.names
  propertyNames : (f.scope i).properties.names = (g.scope i).properties.names
  dump : (f.scope i).dump = (g.scope i).dump
  symbolRecords : f.symbolRecords i = g.symbolRecords i
  chartRecords : f.chartRecords i = g.chartRecords i

/-- A scope comes first on its own way to the root. -/
theorem get?_of_cell? {f : Forest} {field : Field} {i : Nat} {name : Bytes} {v : Value}
    (h : f.cell? field i name = some v) : f.get? field i name = some v := by
  obtain ⟨farther, hchain⟩ := f.head_chain i
  have hends : f.EndsAt field i name i :=
    ⟨[], farther, hchain, fun j hj => absurd hj List.not_mem_nil, by simp [h]⟩
  rw [hends.get?, h]

/-- A snapshot has a record for each binding of the scope itself. -/
theorem symbolRecords_eq (f : Forest) (i : Nat) :
    f.symbolRecords i =
      (f.scope i).symbols.entries.map fun e => ⟨e.1, e.2.typeName, e.2.inspect⟩ := by
  rw [symbolRecords, Table.names, List.map_map]
  refine List.map_congr_left fun e he => ?_
  have hcell : f.cell? symbolField i e.1 = some e.2 := Table.get?_eq_some_iff.2 he
  show (⟨e.1, ((f.get? symbolField i e.1).getD .nil).typeName,
    ((f.get? symbolField i e.1).getD .nil).inspect⟩ : SymbolRecord) = _
  rw [get?_of_cell? hcell, Option.getD_some]

theorem showsOwn (f : Forest) (i : Nat) : f.ShowsOwn i where
  increasing field _ := List.pairwise_map.2 (field.table (f.scope i)).sorted
  bound field _ name := by
    rw [← Table.contains_iff, contains_eq_true_iff]
  arranged field _ bindings hperm := Table.listed_of_perm hperm
  records := by
    rw [symbolRecords_eq, Table.names, List.forall₂_map_left_iff, List.forall₂_map_right_iff,
      List.forall₂_same]
    intro e he
    exact ⟨rfl, e.2, Table.get?_eq_some_iff.2 he, rfl, rfl⟩

/-- What a scope shows is in the scope. -/
theorem showAlike_of_scope {f g : Forest} {i : Nat} (h : f.scope i = g.scope i) :
    ShowAlike f g i where
  symbolNames := by rw [h]
  propertyNames := by rw [h]
  dump := by rw [h]
  symbolRecords := by rw [symbolRecords_eq, symbolRecords_eq, h]
  chartRecords := by rw [chartRecords, chartRecords, h]

end Forest

/-! ## Writing -/

/-- The two kinds of names that a scope binds. -/
inductive Binding where
  | symbol
  | property
  deriving DecidableEq

/-- The table of a kind of names. -/
def Binding.field : Binding → Forest.Field
  | .symbol => Forest.symbolField
  | .property => Forest.propertyField

/-- A value and the name that it is to be stored under. -/
structure Write where
  kind : Binding
  name : Bytes
  value : Value

namespace Write

/-- Makes a write from the scope `i`. -/
def apply (f : Forest) (i : Nat) (w : Write) : Forest :=
  match w.kind with
  | .symbol => f.putSymbol i w.name w.value
  | .property => f.putProperty i w.name w.value

/-- Makes writes from the scope `i`, one after the other. -/
def run (f : Forest) (i : Nat) (ws : List Write) : Forest := ws.foldl (apply · i ·) f

/-- The value that the last write of a name gives it, if there is one. -/
def last? (ws : List Write) (kind : Binding) (name : Bytes) : Option Value :=
  (ws.reverse.find? fun w => w.kind = kind ∧ w.name = name).map value

/-- The same names are written, and with the same last values. -/
def SameLast (ws ws' : List Write) : Prop := ∀ kind name, last? ws kind name = last? ws' kind name

theorem last?_cons (w : Write) (ws : List Write) (kind : Binding) (name : Bytes) :
    last? (w :: ws) kind name =
      (last? ws kind name).or (if w.kind = kind ∧ w.name = name then some w.value else none) := by
  rw [last?, List.reverse_cons, List.find?_append, Option.map_or, List.find?_singleton]
  congr 1
  by_cases h : w.kind = kind ∧ w.name = name
  · simp [h]
  · simp [h]

end Write

namespace Forest

theorem field_mem (kind : Binding) : kind.field ∈ fields := by
  cases kind with
  | symbol => exact symbolField_mem
  | property => exact propertyField_mem

/-- A table of one kind is put in beside that of the other. -/
theorem table_replace_ne {kind kind' : Binding} (h : kind' ≠ kind) (s : Scope) (t : Table Value) :
    kind'.field.table (kind.field.replace s t) = kind'.field.table s := by
  cases kind <;> cases kind'
  · exact absurd rfl h
  · rfl
  · rfl
  · exact absurd rfl h

/-- The scope that a write of a name from the scope `i` goes to. -/
def target (f : Forest) (field : Field) (i : Nat) (name : Bytes) : Nat :=
  (f.holder? field i name).getD i

theorem apply_eq (f : Forest) (i : Nat) (w : Write) :
    w.apply f i = f.put w.kind.field i w.name w.value := by
  unfold Write.apply
  cases w.kind <;> rfl

section

variable {f : Forest} {s : Nat}

/-- A write is in one cell, and in no table of the other kind. -/
theorem cell?_apply (hs : s < f.size) (w : Write) (kind : Binding) (j : Nat) (m : Bytes) :
    (w.apply f s).cell? kind.field j m =
      if j = f.target kind.field s m ∧ w.kind = kind ∧ w.name = m then some w.value
      else f.cell? kind.field j m := by
  rw [apply_eq]
  by_cases hkind : w.kind = kind
  · subst hkind
    rw [writesCell_put (lawful_of_mem (field_mem w.kind)) hs w.name w.value j m]
    refine if_congr ⟨?_, ?_⟩ rfl rfl
    · rintro ⟨rfl, rfl⟩
      exact ⟨rfl, rfl, rfl⟩
    · rintro ⟨rfl, -, rfl⟩
      exact ⟨rfl, rfl⟩
  · rw [if_neg fun h => hkind h.2.1]
    exact congrArg (·.get? m) (view_modify (fun _ => table_replace_ne (Ne.symm hkind) _ _) f _ j)

/-- Where a name is written to stays the same, whatever is written. -/
theorem target_apply (hs : s < f.size) (w : Write) (kind : Binding) (m : Bytes) :
    (w.apply f s).target kind.field s m = f.target kind.field s m := by
  by_cases hsame : w.kind = kind ∧ w.name = m
  · obtain ⟨rfl, rfl⟩ := hsame
    rw [apply_eq, target, holder?_put (lawful_of_mem (field_mem w.kind)) hs]
    rfl
  · have hcell : ∀ j, (w.apply f s).cell? kind.field j m = f.cell? kind.field j m := by
      intro j
      rw [cell?_apply hs, if_neg fun h => hsame h.2]
    have hchain : (w.apply f s).chain s = f.chain s := by
      rw [apply_eq]
      exact chain_modify ..
    unfold target holder? Table.contains
    rw [hchain]
    congr 1
    exact List.find?_congr fun j _ => congrArg Option.isSome (hcell j)

theorem size_apply (f : Forest) (i : Nat) (w : Write) : (w.apply f i).size = f.size := by
  rw [apply_eq]
  exact size_modify ..

/-- **The last write of a name counts**, and all writes of a name meet in one cell. -/
theorem cell?_run (hs : s < f.size) (ws : List Write) (kind : Binding) (j : Nat) (m : Bytes) :
    (Write.run f s ws).cell? kind.field j m =
      if j = f.target kind.field s m then (Write.last? ws kind m).or (f.cell? kind.field j m)
      else f.cell? kind.field j m := by
  induction ws generalizing f with
  | nil =>
    split
    · rfl
    · rfl
  | cons w ws ih =>
    rw [Write.run, List.foldl_cons, ← Write.run, ih (size_apply f s w ▸ hs), target_apply hs,
      cell?_apply hs, Write.last?_cons]
    by_cases hj : j = f.target kind.field s m
    · rw [if_pos hj, if_pos hj, Option.or_assoc]
      congr 1
      by_cases hsame : w.kind = kind ∧ w.name = m
      · rw [if_pos ⟨hj, hsame⟩, if_pos hsame]
        rfl
      · rw [if_neg fun h => hsame h.2, if_neg hsame]
        rfl
    · rw [if_neg hj, if_neg hj, if_neg fun h => hj h.1]

/-- Writes add nothing but bindings. -/
theorem records_run (f : Forest) (s : Nat) (ws : List Write) (j : Nat) :
    ((Write.run f s ws).scope j).statements = (f.scope j).statements ∧
      ((Write.run f s ws).scope j).charts = (f.scope j).charts := by
  induction ws generalizing f with
  | nil => exact ⟨rfl, rfl⟩
  | cons w ws ih =>
    have hframe := statements_replace (field_mem w.kind)
    obtain ⟨hstatements, hcharts⟩ := ih (w.apply f s)
    rw [apply_eq] at hstatements hcharts
    rw [Write.run, List.foldl_cons, ← Write.run, apply_eq]
    exact ⟨hstatements.trans (view_modify (fun _ => (hframe _ _).1) f _ j),
      hcharts.trans (view_modify (fun _ => (hframe _ _).2) f _ j)⟩

theorem scope_ext {a b : Scope} (hsymbols : a.symbols = b.symbols)
    (hproperties : a.properties = b.properties) (hstatements : a.statements = b.statements)
    (hcharts : a.charts = b.charts) : a = b := by
  cases a
  cases b
  rw [Scope.mk.injEq]
  exact ⟨hsymbols, hproperties, hstatements, hcharts⟩

/-- Writes with the same last values come to the same in every scope. -/
theorem scope_run_congr (hs : s < f.size) {ws ws' : List Write} (h : Write.SameLast ws ws')
    (j : Nat) : (Write.run f s ws).scope j = (Write.run f s ws').scope j := by
  have htable : ∀ kind : Binding, kind.field.table ((Write.run f s ws).scope j) =
      kind.field.table ((Write.run f s ws').scope j) := by
    intro kind
    refine Table.ext_get? fun m => ?_
    have hcell := cell?_run hs ws kind j m
    rw [h kind m, ← cell?_run hs ws' kind j m] at hcell
    exact hcell
  obtain ⟨hstatements, hcharts⟩ := records_run f s ws j
  obtain ⟨hstatements', hcharts'⟩ := records_run f s ws' j
  exact scope_ext (htable .symbol) (htable .property) (hstatements.trans hstatements'.symm)
    (hcharts.trans hcharts'.symm)

end

/-- **What is shown depends on the last writes only.** Let two sequences of writes be made from the
same scope that write the same names and end with the same value for each of them. Then every scope
of the forest shows the same names, the same dump and the same snapshot after either of them. And
whatever a scope's ancestors bind, it shows its own bindings, each once and in byte order. -/
theorem shown_of_last_writes {f : Forest} {s : Nat} (hs : s < f.size) {ws ws' : List Write}
    (h : Write.SameLast ws ws') :
    (∀ j, ShowAlike (Write.run f s ws) (Write.run f s ws') j) ∧
      ∀ (g : Forest) (j : Nat), g.ShowsOwn j :=
  ⟨fun j => showAlike_of_scope (scope_run_congr hs h j), showsOwn⟩

/-- Writes of three names, one of them written twice. -/
def hasty : List Write :=
  [⟨.symbol, "z", .integer 1⟩, ⟨.symbol, "x", .integer 5⟩, ⟨.property, "x", .text "p"⟩,
    ⟨.symbol, "z", .nil⟩]

/-- Writes of the same names in another order, none of them twice. -/
def settled : List Write :=
  [⟨.property, "x", .text "p"⟩, ⟨.symbol, "z", .nil⟩, ⟨.symbol, "x", .integer 5⟩]

theorem sameLast_hasty : Write.SameLast hasty settled := by
  intro kind name
  cases kind with
  | symbol =>
    by_cases hz : ("z" : Bytes) = name
    · subst hz
      rfl
    · by_cases hx : ("x" : Bytes) = name
      · subst hx
        rfl
      · simp [Write.last?, hasty, settled, hz, hx]
  | property =>
    by_cases hx : ("x" : Bytes) = name
    · subst hx
      rfl
    · simp [Write.last?, hasty, settled, hx]

/-- From the grandchild, the symbol that the child and the root both bind is written to the child,
and each of them shows its own value of it. -/
theorem shown_of_last_writes_kin :
    2 < kin.size ∧ Write.SameLast hasty settled ∧
      (∀ j, ((Write.run kin 2 hasty).scope j).dump = ((Write.run kin 2 settled).scope j).dump) ∧
      (Write.run kin 2 settled).symbolRecords 2 = [⟨"z", [], "nil"⟩] ∧
      (Write.run kin 2 hasty).symbolRecords 1 = [⟨"x", "Integer", "5"⟩] ∧
      (Write.run kin 2 hasty).symbolRecords 0 = [⟨"x", "Integer", "2"⟩] ∧
      ((Write.run kin 2 hasty).scope 2).properties.names = ["x"] := by
  have hlt : 2 < kin.size := by decide +kernel
  obtain ⟨halike, -⟩ := shown_of_last_writes hlt sameLast_hasty
  refine ⟨hlt, sameLast_hasty, fun j => (halike j).dump, ?_, ?_, ?_, ?_⟩
  · rw [← (halike 2).symbolRecords]
    decide +kernel
  · rw [(halike 1).symbolRecords]
    decide +kernel
  · rw [(halike 0).symbolRecords]
    decide +kernel
  · rw [(halike 2).propertyNames]
    decide +kernel

end Forest

end ChartScript
