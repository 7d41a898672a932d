import ChartScript.Function.Standard
import ChartScript.Plugin.Installing
import ChartScript.Proofs.File.Listing
import ChartScript.Proofs.Plugin.Signature
import Mathlib.Data.List.Forall2

/-!
# Installing plugins

What the steps of an installation come to is `Installation.ofDirectory` (`run_install`), whatever order
they are taken in: a failure finds the table and the log as they were. After a success a name stands
for what the last source offers that offers it, and for what it stood for before if none does
(`install_all_or_nothing`).
-/

set_option autoImplicit false

namespace ChartScript

/-! ## Lists -/

/-- A list is taken through one by one: up to the first that fails, or to the end. -/
theorem mapM_cases {α β ε : Type} (f : α → Except ε β) (xs : List α) :
    (∃ e, xs.mapM f = .error e ∧ ∃ x ∈ xs, f x = .error e) ∨
      ∃ ys, xs.mapM f = .ok ys ∧ List.Forall₂ (fun x y => f x = .ok y) xs ys := by
  induction xs with
  | nil => exact .inr ⟨[], rfl, .nil⟩
  | cons x xs ih =>
    rw [List.mapM_cons]
    cases hx : f x with
    | error e => exact .inl ⟨e, rfl, x, List.mem_cons_self, hx⟩
    | ok y =>
      rcases ih with ⟨e, herror, x', hmem, hfailed⟩ | ⟨ys, hok, hall⟩
      · rw [herror]
        exact .inl ⟨e, rfl, x', List.mem_cons_of_mem _ hmem, hfailed⟩
      · rw [hok]
        exact .inr ⟨y :: ys, rfl, .cons hx hall⟩

/-! ## What a plugin brings -/

namespace Plugin

/-- The function that the source at a path offers under a name. -/
def defined? (interpreter : Interpreter) (files : Files) (path name : Bytes) : Option HostFunction :=
  match files.read path with
  | .error _ => none
  | .ok source =>
    match interpreter.read path source with
    | .error _ => none
    | .ok declarations => Declaration.lastOffer? declarations name

theorem of_load {interpreter : Interpreter} {files : Files} {path : Bytes} {p : Plugin}
    (h : load interpreter files path = .ok p) :
    p.path = path ∧ ∀ name, p.functions.get? name = defined? interpreter files path name := by
  cases hsource : files.read path with
  | error e =>
    rw [load, hsource] at h
    cases h
  | ok source =>
    cases hread : interpreter.read path source with
    | error e =>
      have herror : load interpreter files path = .error (.source path e) := by
        unfold load
        rw [hsource]
        show (interpreter.read path source).mapError _ >>= _ = _
        rw [hread]
        rfl
      rw [h] at herror
      cases herror
    | ok declarations =>
      rw [load_eq hsource hread] at h
      rcases ofDeclarations_cases path declarations with ⟨_, -, herror⟩ | ⟨-, functions, hok, hget⟩
      · rw [h] at herror
        cases herror
      · rw [h] at hok
        obtain rfl := Except.ok.inj hok
        refine ⟨rfl, fun name => ?_⟩
        rw [hget, defined?, hsource]
        dsimp only
        rw [hread]

theorem register_perm (p : Plugin) {order : List (Bytes × HostFunction)}
    (h : order.Perm p.functions.entries) (t : FunctionTable) :
    order.foldl (fun t b => t.insert b.1 (b.2.adapt b.1 p.path)) t = p.register t :=
  Table.foldl_insert_perm Prod.fst (fun b : Bytes × HostFunction => b.2.adapt b.1 p.path)
    ((h.pairwise_iff fun hne => Ne.symm hne).2 p.functions.pairwise_ne) h t

/-- Where a plugin has a function of a name, the name stands for it afterwards. -/
theorem get?_register (p : Plugin) (t : FunctionTable) (name : Bytes) :
    (p.register t).get? name =
      ((p.functions.get? name).map (·.adapt name p.path)).or (t.get? name) := by
  have hget : p.functions.get? name =
      (p.functions.entries.find? fun e => e.1 == name).map (·.2) := rfl
  rw [← register_perm p (List.reverse_perm _), Table.get?_foldl_insert, List.reverse_reverse, hget]
  congr 1
  cases hfind : p.functions.entries.find? fun e => e.1 == name with
  | none => rfl
  | some e =>
    obtain rfl : e.1 = name := by simpa using List.find?_some hfind
    rfl

theorem count_names (p : Plugin) (name : Bytes) :
    p.names.count name = if (p.functions.get? name).isSome then 1 else 0 := by
  have hnodup : p.names.Nodup := by
    rw [names, Table.names, List.Nodup, List.pairwise_map]
    exact p.functions.pairwise_ne
  rw [hnodup.count]
  refine if_congr ?_ rfl rfl
  exact (Table.contains_iff p.functions name).symm

end Plugin

/-! ## What all sources bring -/

namespace Plugin

/-- A path is that of a source: of a name in the directory that ends in `.go`, and no test. -/
def IsSource (files : Files) (directory path : Bytes) : Prop :=
  ∃ name ∈ files.names (Path.clean directory), (".go" : Bytes) <:+ name ∧
    path = Path.join (Path.clean directory) name ∧ ¬ ("_test.go" : Bytes) <:+ path

/-- The paths of all sources of a directory, in byte order. -/
structure ListsSources (files : Files) (directory : Bytes) (paths : List Bytes) : Prop where
  sorted : paths.Pairwise fun a b => ¬ b < a
  mem_iff : ∀ path, path ∈ paths ↔ IsSource files directory path
  /-- A path is listed once if its name stands in the directory once. -/
  strict : (files.names (Path.clean directory)).Nodup → paths.Pairwise (· < ·)

theorem sources_eq (files : Files) {directory : Bytes} (h : Glob.hasWild directory = false) :
    sources files directory =
      .ok ((Bytes.sort (Glob.endingIn files ".go" directory)).filter fun p => !isTest p) := by
  have hpattern : (("*.go" : String) : Bytes) = 42 :: ((".go" : String) : Bytes) := rfl
  have hplain : Path.IsPlain (42 :: ((".go" : String) : Bytes)) :=
    ⟨by decide, by decide, by decide, by decide⟩
  have hread : Glob.parse? (42 :: ((".go" : String) : Bytes)) = some (Glob.ending ".go") := by cbv
  rw [sources, hpattern, Glob.paths?_ending files h hplain hread (by decide)]

theorem mem_sources (files : Files) (directory path : Bytes) :
    path ∈ (Bytes.sort (Glob.endingIn files ".go" directory)).filter (fun p => !isTest p) ↔
      IsSource files directory path := by
  rw [List.mem_filter, Bytes.sort, List.mem_mergeSort, Glob.endingIn, List.mem_map]
  simp only [List.mem_filter, List.isSuffixOf_iff_suffix, isTest, Bool.not_eq_true',
    ← Bool.not_eq_true]
  constructor
  · rintro ⟨⟨name, ⟨hname, hgo⟩, rfl⟩, htest⟩
    exact ⟨name, hname, hgo, rfl, htest⟩
  · rintro ⟨name, hname, hgo, rfl, htest⟩
    exact ⟨⟨name, ⟨hname, hgo⟩, rfl⟩, htest⟩

theorem listsSources (files : Files) (directory : Bytes) :
    ListsSources files directory
      ((Bytes.sort (Glob.endingIn files ".go" directory)).filter fun p => !isTest p) := by
  have hsorted := (Bytes.pairwise_sort (Glob.endingIn files ".go" directory)).filter
    fun p => !isTest p
  refine ⟨hsorted, mem_sources files directory, fun hnames => ?_⟩
  have hnodup : (Bytes.sort (Glob.endingIn files ".go" directory)).Nodup :=
    (List.mergeSort_perm _ _).nodup_iff.2 (Glob.nodup_endingIn (by decide) hnames)
  refine ((hnodup.filter _).and hsorted).imp ?_
  rintro a b ⟨hne, hle⟩
  by_contra hlt
  exact hne (Bytes.eq_of_not_lt hlt hle)

section Loaded

variable {interpreter : Interpreter} {files : Files} {paths : List Bytes} {plugins : List Plugin}

/-- What the last plugin has that has it, or what there was before. -/
theorem get?_foldl_register (plugins : List Plugin) (t : FunctionTable) (name : Bytes) :
    (plugins.foldl (fun t p => p.register t) t).get? name =
      (plugins.reverse.findSome? fun p =>
        (p.functions.get? name).map (·.adapt name p.path)).or (t.get? name) := by
  induction plugins generalizing t with
  | nil => rfl
  | cons p plugins ih =>
    rw [List.foldl_cons, ih, get?_register, List.reverse_cons, List.findSome?_append,
      List.findSome?_singleton, Option.or_assoc]

/-- The function that a name stands for once the sources at some paths are installed. -/
def lastDefined? (interpreter : Interpreter) (files : Files) (paths : List Bytes) (name : Bytes) :
    Option Function :=
  paths.reverse.findSome? fun path =>
    (defined? interpreter files path name).map (·.adapt name path)

variable (h : List.Forall₂ (fun path p => load interpreter files path = .ok p) paths plugins)

include h

theorem findSome?_of_loaded (name : Bytes) :
    (plugins.reverse.findSome? fun p => (p.functions.get? name).map (·.adapt name p.path)) =
      lastDefined? interpreter files paths name := by
  unfold lastDefined?
  induction h with
  | nil => rfl
  | cons hp _ ih =>
    obtain ⟨hpath, hget⟩ := of_load hp
    rw [List.reverse_cons, List.reverse_cons, List.findSome?_append, List.findSome?_append, ih,
      List.findSome?_singleton, List.findSome?_singleton, hpath, hget]

theorem count_of_loaded (name : Bytes) :
    (plugins.flatMap names).count name =
      paths.countP fun path => (defined? interpreter files path name).isSome := by
  induction h with
  | nil => rfl
  | cons hp _ ih =>
    rw [List.flatMap_cons, List.count_append, ih, count_names, (of_load hp).2, List.countP_cons,
      Nat.add_comm]

end Loaded

end Plugin

/-- What an installation is that puts the sources at some paths on a table. -/
structure Installation.Brings (interpreter : Interpreter) (files : Files) (paths : List Bytes)
    (t : FunctionTable) (i : Installation) : Prop where
  get? : ∀ name, i.table.get? name =
    (Plugin.lastDefined? interpreter files paths name).or (t.get? name)
  sorted : i.names.Pairwise fun a b => ¬ b < a
  /-- A name is there once for each source that offers it. -/
  count : ∀ name, i.names.count name =
    paths.countP fun path => (Plugin.defined? interpreter files path name).isSome

theorem Installation.ofPlugins_brings {interpreter : Interpreter} {files : Files}
    {paths : List Bytes} {plugins : List Plugin}
    (h : List.Forall₂ (fun path p => Plugin.load interpreter files path = .ok p) paths plugins)
    (t : FunctionTable) : (ofPlugins plugins t).Brings interpreter files paths t where
  get? name := by
    rw [← Plugin.findSome?_of_loaded h, ← Plugin.get?_foldl_register]
    rfl
  sorted := Bytes.pairwise_sort _
  count name := ((List.mergeSort_perm _ _).count_eq name).trans (Plugin.count_of_loaded h name)

/-! ## Step by step -/

namespace Installing

theorem run_bind_ok {α β : Type} {x : Installing α} {next : α → Installing β} {a : α}
    {w after : Workplace} (h : x.run w = (.ok a, after)) :
    (x >>= next).run w = (next a).run after := by
  change ExceptT.bindCont next (x.run w).1 (x.run w).2 = _
  rw [h]
  rfl

variable (order : TakingOrder)

theorem run_register (p : Plugin) (w : Workplace) :
    (register order p).run w = (.ok p.names, { w with table := p.register w.table }) := by
  have hforM : ∀ (bindings : List (Bytes × HostFunction)) (w : Workplace),
      (bindings.forM (registerOne p.path)).run w = (.ok (), { w with
        table := bindings.foldl (fun t b => t.insert b.1 (b.2.adapt b.1 p.path)) w.table }) := by
    intro bindings
    induction bindings with
    | nil => exact fun w => rfl
    | cons b bindings ih => exact fun w => ih _
  have hnames : Bytes.sort ((order.of p).map (·.1)) = p.names := by
    exact Bytes.sort_eq_of_perm ((order.perm p).map _) (List.pairwise_map.2 p.functions.sorted)
  rw [register, run_bind_ok (hforM _ w), hnames, Plugin.register_perm p (order.perm p)]
  rfl

theorem run_installOne (names : List Bytes) (p : Plugin) (w : Workplace) :
    (installOne order names p).run w =
      (.ok (names ++ p.names), ⟨p.register w.table, w.log ++ [p.entry]⟩) := by
  rw [installOne, run_bind_ok (run_register order p w)]
  rfl

/-- Installing plugins is a matter of their list. -/
theorem run_foldlM (plugins : List Plugin) (names : List Bytes) (w : Workplace) :
    (plugins.foldlM (installOne order) names).run w =
      (.ok (names ++ plugins.flatMap Plugin.names),
        ⟨plugins.foldl (fun t p => p.register t) w.table, w.log ++ plugins.map Plugin.entry⟩) := by
  induction plugins generalizing names w with
  | nil =>
    rw [List.flatMap_nil, List.append_nil, List.map_nil, List.append_nil]
    rfl
  | cons p plugins ih =>
    rw [List.foldlM_cons, run_bind_ok (run_installOne order names p w), ih, List.flatMap_cons,
      List.map_cons, List.append_assoc, List.append_assoc]
    rfl

/-- **The steps come to the installation at once**, whatever order they are taken in. -/
theorem run_install (interpreter : Interpreter) (files : Files) (directory : Bytes) (w : Workplace) :
    (install order interpreter files directory).run w =
      match Installation.ofDirectory interpreter files directory w.table with
      | .error e => (.error e, w)
      | .ok i => (.ok i.names, ⟨i.table, w.log ++ i.entries⟩) := by
  unfold Installation.ofDirectory install
  cases Plugin.loadAll interpreter files directory with
  | error e => rfl
  | ok plugins =>
    have hload : (MonadExcept.ofExcept (.ok plugins) : Installing (List Plugin)).run w =
        (.ok plugins, w) := rfl
    rw [run_bind_ok hload, run_bind_ok (run_foldlM order plugins [] w)]
    rfl

/-- **Installing is all or nothing, and later sources win.** Either a source cannot be loaded, and the
table and the log are as before; or all can, and then a name stands for what the last source in byte
order offers under it, and for what it stood for before if none does. The names are sorted, and each
is there once for each source that offers it. -/
theorem install_all_or_nothing (interpreter : Interpreter) (files : Files) {directory : Bytes}
    (hplain : Glob.hasWild directory = false) (w : Workplace) :
    ∃ paths, Plugin.ListsSources files directory paths ∧
      ((∃ e, Installation.ofDirectory interpreter files directory w.table = .error e ∧
          (install order interpreter files directory).run w = (.error e, w) ∧
          ∃ path ∈ paths, Plugin.load interpreter files path = .error e) ∨
        ∃ i, Installation.ofDirectory interpreter files directory w.table = .ok i ∧
          (install order interpreter files directory).run w =
            (.ok i.names, ⟨i.table, w.log ++ i.entries⟩) ∧
          (∀ path ∈ paths, ∃ p, Plugin.load interpreter files path = .ok p) ∧
          i.Brings interpreter files paths w.table) := by
  refine ⟨_, Plugin.listsSources files directory, ?_⟩
  have hload : Plugin.loadAll interpreter files directory =
      ((Bytes.sort (Glob.endingIn files ".go" directory)).filter fun p => !Plugin.isTest p).mapM
        (Plugin.load interpreter files) := by
    rw [Plugin.loadAll, Plugin.sources_eq files hplain]
    rfl
  rw [run_install]
  unfold Installation.ofDirectory
  rw [hload]
  rcases mapM_cases (Plugin.load interpreter files)
    ((Bytes.sort (Glob.endingIn files ".go" directory)).filter fun p => !Plugin.isTest p) with
    ⟨e, herror, hfailed⟩ | ⟨plugins, hok, hloaded⟩
  · rw [herror]
    exact .inl ⟨e, rfl, rfl, hfailed⟩
  · rw [hok]
    have hall : List.Forall₂ (fun path p =>
        (∃ p, Plugin.load interpreter files path = .ok p) ∧ Plugin.load interpreter files path = .ok p)
        _ plugins := hloaded.imp fun _ p hp => ⟨⟨p, hp⟩, hp⟩
    exact .inr ⟨_, rfl, rfl, ((List.forall₂_and_left _ _).1 hall).1,
      Installation.ofPlugins_brings hloaded w.table⟩

/-! ### Sources with a function of one name -/

/-- A directory with three sources and a test. -/
def countingDirectory : Files :=
  [("p/c.go", "Count"), ("p/c_test.go", "Count"), ("p/a.go", "First"), ("p/b.go", "Count")].foldl
    (fun files (path, first) => files.add (Bytes.ofString path) (Plugin.countingSource first "pair"))
    Files.empty

/-- A reader of them. -/
def countingReader : Interpreter where
  read path _ := .ok (Plugin.counting (if path = "p/a.go" then "First" else "Count") "pair")

/-- The functions of a plugin, the last of them first. -/
def backwards : TakingOrder := ⟨fun p => p.functions.entries.reverse, fun _ => List.reverse_perm _⟩

theorem load_countingDirectory : ∀ name ∈ countingDirectory.names (Path.clean "p"), ∃ p,
    Plugin.load countingReader countingDirectory (Path.join (Path.clean "p") name) = .ok p := by
  have hnames : countingDirectory.names (Path.clean "p") =
      ["a.go", "b.go", "c.go", "c_test.go"].map Bytes.ofString := by decide
  rw [hnames]
  simp only [List.map_cons, List.map_nil, List.forall_mem_cons]
  exact ⟨⟨_, rfl⟩, ⟨_, rfl⟩, ⟨_, rfl⟩, ⟨_, rfl⟩, by simp⟩

theorem install_all_or_nothing_overridden :
    Glob.hasWild "p" = false ∧ ∃ paths, Plugin.ListsSources countingDirectory "p" paths ∧
      Bytes.ofString "p/b.go" ∈ paths ∧ Bytes.ofString "p/c.go" ∈ paths ∧
      ∃ i : Installation,
        (install backwards countingReader countingDirectory "p").run ⟨.standard, []⟩ =
          (.ok i.names, ⟨i.table, i.entries⟩) ∧
        i.Brings countingReader countingDirectory paths .standard := by
  have hplain : Glob.hasWild "p" = false := by decide
  obtain ⟨paths, hpaths, hrun⟩ :=
    install_all_or_nothing backwards countingReader countingDirectory hplain ⟨.standard, []⟩
  refine ⟨hplain, paths, hpaths, (hpaths.mem_iff _).2 ⟨"b.go", by decide⟩,
    (hpaths.mem_iff _).2 ⟨"c.go", by decide⟩, ?_⟩
  rcases hrun with ⟨e, -, -, path, hpath, hfailed⟩ | ⟨i, -, hafter, -, hbrings⟩
  · obtain ⟨name, hname, -, rfl, -⟩ := (hpaths.mem_iff path).1 hpath
    obtain ⟨p, hp⟩ := load_countingDirectory name hname
    rw [hp] at hfailed
    cases hfailed
  · exact ⟨i, hafter, hbrings⟩

end Installing

end ChartScript
