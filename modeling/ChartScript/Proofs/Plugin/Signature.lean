import ChartScript.Plugin.Loading
import ChartScript.Proofs.Scope.Lookup

/-!
# Signatures of plugin functions, as written and as meant

A function of a plugin takes one slice of anything and yields anything and an error. What a signature
means counts a field once for each of its names (`Signature.IsPlugin`); the test on the written form
counts fields. Both agree on the parameters, where a field may have one name at most. They part where
results are grouped: such a function passes for one of a plugin, is of another type, and the source
it stands in is refused for it (`load_filters`).
-/

set_option autoImplicit false

namespace ChartScript

/-! ## What a signature means -/

namespace TypeExpr

/-- The type of anything, in its two spellings. -/
def IsAny (t : TypeExpr) : Prop := t = .emptyInterface ∨ t = .named "any"

theorem isAny_iff (t : TypeExpr) : t.isAny = true ↔ t.IsAny := by
  cases t <;> simp [isAny, IsAny]

theorem isError_iff (t : TypeExpr) : t.isError = true ↔ t = .named "error" := by
  cases t <;> simp [isError]

theorem isAnySlice_iff (t : TypeExpr) :
    t.isAnySlice = true ↔ ∃ element, t = .slice element ∧ element.IsAny := by
  cases t <;> simp [isAnySlice, isAny_iff]

end TypeExpr

namespace SignatureField

/-- A field stands for one type at least. -/
theorem types_ne_nil (f : SignatureField) : f.types ≠ [] := by
  unfold types
  split
  · exact List.cons_ne_nil _ _
  · next h => simpa using h

theorem types_of_length_le_one {f : SignatureField} (h : f.names.length ≤ 1) :
    f.types = [f.type] := by
  unfold types
  cases hnames : f.names with
  | nil => rfl
  | cons n rest =>
    obtain rfl : rest = [] := List.eq_nil_of_length_eq_zero (by simpa [hnames] using h)
    rfl

/-- A field has as many names as types, unless it has none; its types are one and the same. -/
theorem of_types_singleton {f : SignatureField} {t : TypeExpr} (h : f.types = [t]) :
    f.names.length ≤ 1 ∧ f.type = t := by
  unfold types at h
  split at h
  · next hnone =>
    rw [List.isEmpty_iff] at hnone
    exact ⟨by simp [hnone], (List.cons.inj h).1⟩
  · obtain ⟨n, hnames, htype⟩ := List.map_eq_singleton_iff.1 h
    exact ⟨by simp [hnames], htype⟩

theorem eq_of_types_pair {f : SignatureField} {t u : TypeExpr} (h : f.types = [t, u]) : t = u := by
  unfold types at h
  split at h
  · cases (List.cons.inj h).2
  · have hmem : ∀ x ∈ [t, u], x = f.type := by
      rw [← h]
      intro x hx
      exact (List.mem_map.1 hx).elim fun _ hn => hn.2.symm
    rw [hmem t (by simp), hmem u (by simp)]

/-- Fields that stand for one type are one field. -/
theorem eq_singleton_of_types {fields : List SignatureField} {t : TypeExpr}
    (h : fields.flatMap types = [t]) : ∃ f, fields = [f] ∧ f.types = [t] := by
  cases fields with
  | nil => cases h
  | cons f rest =>
    rw [List.flatMap_cons, List.append_eq_singleton_iff] at h
    rcases h with ⟨hnone, -⟩ | ⟨hone, hrest⟩
    · exact absurd hnone f.types_ne_nil
    · cases rest with
      | nil => exact ⟨f, rfl, hone⟩
      | cons g rest =>
        rw [List.flatMap_cons, List.append_eq_nil_iff] at hrest
        exact absurd hrest.1 g.types_ne_nil

/-- Fields that stand for two different types are two. -/
theorem eq_pair_of_types {fields : List SignatureField} {t u : TypeExpr} (hne : t ≠ u)
    (h : fields.flatMap types = [t, u]) :
    ∃ f g, fields = [f, g] ∧ f.types = [t] ∧ g.types = [u] := by
  cases fields with
  | nil => cases h
  | cons f rest =>
    rw [List.flatMap_cons, List.append_eq_cons_iff] at h
    rcases h with ⟨hnone, -⟩ | ⟨more, hf, hrest⟩
    · exact absurd hnone f.types_ne_nil
    · rcases List.append_eq_singleton_iff.1 hrest.symm with ⟨rfl, hone⟩ | ⟨rfl, -⟩
      · obtain ⟨g, rfl, hg⟩ := eq_singleton_of_types hone
        exact ⟨f, g, rfl, hf, hg⟩
      · exact absurd (eq_of_types_pair hf) hne

end SignatureField

namespace Signature

/-- A signature means the type of plugin functions: one parameter and two results, however they are
grouped. -/
structure IsPlugin (s : Signature) : Prop where
  params : ∃ element, s.paramTypes = [.slice element] ∧ element.IsAny
  results : ∃ value, s.resultTypes = [value, .named "error"] ∧ value.IsAny

/-- No two results share a field. -/
def ResultsApart (s : Signature) : Prop := ∀ f ∈ s.results, f.names.length ≤ 1

instance (s : Signature) : Decidable s.ResultsApart :=
  inferInstanceAs (Decidable (∀ f ∈ s.results, f.names.length ≤ 1))

theorem isPluginType_iff (s : Signature) : s.isPluginType = true ↔ s.IsPlugin := by
  unfold isPluginType
  rw [Bool.and_eq_true]
  constructor
  · rintro ⟨hparams, hresults⟩
    refine ⟨?_, ?_⟩
    · split at hparams
      · next p hp =>
        obtain ⟨element, rfl, helement⟩ := (TypeExpr.isAnySlice_iff p).1 hparams
        exact ⟨element, hp, helement⟩
      · cases hparams
    · split at hresults
      · next v e hr =>
        obtain ⟨hv, he⟩ := Bool.and_eq_true_iff.1 hresults
        obtain rfl := (TypeExpr.isError_iff e).1 he
        exact ⟨v, hr, (TypeExpr.isAny_iff v).1 hv⟩
      · cases hresults
  · rintro ⟨⟨element, hp, helement⟩, v, hr, hv⟩
    rw [hp, hr]
    exact ⟨(TypeExpr.isAnySlice_iff _).2 ⟨element, rfl, helement⟩,
      Bool.and_eq_true_iff.2 ⟨(TypeExpr.isAny_iff v).2 hv, (TypeExpr.isError_iff _).2 rfl⟩⟩

instance (s : Signature) : Decidable s.IsPlugin := decidable_of_iff _ (isPluginType_iff s)

theorem isPluginShape_iff (s : Signature) : s.isPluginShape = true ↔
    (∃ p, s.params = [p] ∧ p.names.length ≤ 1 ∧ ∃ element, p.type = .slice element ∧ element.IsAny) ∧
      ∃ v e, s.results = [v, e] ∧ v.type.IsAny ∧ e.type = .named "error" := by
  unfold isPluginShape
  rw [Bool.and_eq_true]
  constructor
  · rintro ⟨hparams, hresults⟩
    refine ⟨?_, ?_⟩
    · split at hparams
      · next p hp =>
        obtain ⟨hnames, htype⟩ := Bool.and_eq_true_iff.1 hparams
        exact ⟨p, hp, of_decide_eq_true hnames, (TypeExpr.isAnySlice_iff _).1 htype⟩
      · cases hparams
    · split at hresults
      · next v e hr =>
        obtain ⟨hv, he⟩ := Bool.and_eq_true_iff.1 hresults
        exact ⟨v, e, hr, (TypeExpr.isAny_iff _).1 hv, (TypeExpr.isError_iff _).1 he⟩
      · cases hresults
  · rintro ⟨⟨p, hp, hnames, htype⟩, v, e, hr, hv, he⟩
    rw [hp, hr]
    exact ⟨Bool.and_eq_true_iff.2 ⟨decide_eq_true hnames, (TypeExpr.isAnySlice_iff _).2 htype⟩,
      Bool.and_eq_true_iff.2 ⟨(TypeExpr.isAny_iff _).2 hv, (TypeExpr.isError_iff _).2 he⟩⟩

/-- **The two tests agree where results are not grouped**, and only there. -/
theorem isPlugin_iff (s : Signature) :
    s.IsPlugin ↔ s.isPluginShape = true ∧ s.ResultsApart := by
  rw [isPluginShape_iff]
  constructor
  · rintro ⟨⟨element, hparams, helement⟩, value, hresults, hvalue⟩
    obtain ⟨p, hp, hptypes⟩ := SignatureField.eq_singleton_of_types hparams
    obtain ⟨hnames, hptype⟩ := SignatureField.of_types_singleton hptypes
    have hne : value ≠ .named "error" := by
      rcases hvalue with rfl | rfl <;> decide
    obtain ⟨v, e, hr, hvtypes, hetypes⟩ := SignatureField.eq_pair_of_types hne hresults
    obtain ⟨hvnames, hvtype⟩ := SignatureField.of_types_singleton hvtypes
    obtain ⟨henames, hetype⟩ := SignatureField.of_types_singleton hetypes
    refine ⟨⟨⟨p, hp, hnames, element, hptype, helement⟩, v, e, hr, hvtype ▸ hvalue, hetype⟩, ?_⟩
    rw [ResultsApart, hr]
    exact List.forall_mem_cons.2 ⟨hvnames, List.forall_mem_singleton.2 henames⟩
  · rintro ⟨⟨⟨p, hp, hnames, element, htype, helement⟩, v, e, hr, hv, he⟩, hapart⟩
    rw [ResultsApart, hr] at hapart
    refine ⟨⟨element, ?_, helement⟩, v.type, ?_, hv⟩
    · rw [paramTypes, hp, List.flatMap_singleton, SignatureField.types_of_length_le_one hnames, htype]
    · rw [resultTypes, hr, List.flatMap_cons, List.flatMap_singleton,
        SignatureField.types_of_length_le_one (hapart v (by simp)),
        SignatureField.types_of_length_le_one (hapart e (by simp)), he]
      rfl

end Signature

/-! ## What a source offers -/

namespace Declaration

/-- The function that a declaration offers to scripts under a name. -/
def offer? (name : Bytes) : Declaration → Option HostFunction
  | .function written signature body =>
    if Plugin.isExported written = true ∧ signature.IsPlugin ∧ Plugin.scriptName written = name then
      some body
    else none
  | .method _ | .global _ => none

/-- The name of a function that passes for one of a plugin and groups its results. -/
def grouped? : Declaration → Option Bytes
  | .function written signature _ =>
    if Plugin.isExported written = true ∧ signature.isPluginShape = true ∧
        ¬ signature.ResultsApart then
      some written
    else none
  | .method _ | .global _ => none

/-- The function that declarations offer under a name: of several the last. -/
def lastOffer? (declarations : List Declaration) (name : Bytes) : Option HostFunction :=
  declarations.reverse.findSome? (offer? name)

end Declaration

namespace Plugin

/-- What a declaration adds to the functions of a plugin, unless it is refused. -/
theorem collect_cases (functions : Table HostFunction) (d : Declaration) :
    (∃ name, d.grouped? = some name ∧ collect functions d = .error (.signature name)) ∨
      (d.grouped? = none ∧ ∃ after, collect functions d = .ok after ∧
        ∀ name, after.get? name = (d.offer? name).or (functions.get? name)) := by
  cases d with
  | function written signature body =>
    have hplugin := Signature.isPlugin_iff signature
    dsimp only [collect, Declaration.grouped?, Declaration.offer?]
    by_cases hpasses : isExported written = true ∧ signature.isPluginShape = true
    · obtain ⟨hexported, hshape⟩ := hpasses
      by_cases hapart : signature.ResultsApart
      · have htype := (Signature.isPluginType_iff signature).2 (hplugin.2 ⟨hshape, hapart⟩)
        refine .inr ⟨by simp [hapart], functions.insert (scriptName written) body,
          by simp [hexported, hshape, htype], fun name => ?_⟩
        rw [Table.get?_insert]
        by_cases hname : scriptName written = name
        · simp [hname, hexported, hplugin.2 ⟨hshape, hapart⟩]
        · simp [hname, Ne.symm hname]
      · have htype : ¬ signature.isPluginType = true := fun htype =>
          hapart (hplugin.1 ((Signature.isPluginType_iff signature).1 htype)).2
        exact .inl ⟨written, by simp [hexported, hshape, hapart], by simp [hexported, hshape, htype]⟩
    · -- Neither does it pass for a function of a plugin nor is it one.
      have hnone : ¬ (isExported written = true ∧ signature.IsPlugin) := fun h =>
        hpasses ⟨h.1, (hplugin.1 h.2).1⟩
      refine .inr ⟨if_neg fun h => hpasses ⟨h.1, h.2.1⟩, functions, ?_, fun name => ?_⟩
      · rw [if_neg (by rwa [Bool.and_eq_true])]
      · rw [if_neg fun h => hnone ⟨h.1, h.2.1⟩, Option.none_or]
  | method written => exact .inr ⟨rfl, functions, rfl, fun _ => rfl⟩
  | global written => exact .inr ⟨rfl, functions, rfl, fun _ => rfl⟩

/-- Declarations make a plugin of what they offer, unless one of them groups its results: then the
first that does is what fails. -/
theorem ofDeclarations_cases (path : Bytes) (declarations : List Declaration) :
    (∃ name, declarations.findSome? Declaration.grouped? = some name ∧
        ofDeclarations path declarations = .error (.signature name)) ∨
      (declarations.findSome? Declaration.grouped? = none ∧ ∃ functions,
        ofDeclarations path declarations = .ok ⟨path, functions⟩ ∧
          ∀ name, functions.get? name = Declaration.lastOffer? declarations name) := by
  have hfold : ∀ (declarations : List Declaration) (functions : Table HostFunction),
      (∃ name, declarations.findSome? Declaration.grouped? = some name ∧
          declarations.foldlM collect functions = .error (.signature name)) ∨
        (declarations.findSome? Declaration.grouped? = none ∧ ∃ after,
          declarations.foldlM collect functions = .ok after ∧
            ∀ name, after.get? name =
              (Declaration.lastOffer? declarations name).or (functions.get? name)) := by
    intro declarations
    induction declarations with
    | nil => exact fun functions => .inr ⟨rfl, functions, rfl, fun _ => rfl⟩
    | cons d rest ih =>
      intro functions
      rw [List.foldlM_cons, List.findSome?_cons]
      rcases collect_cases functions d with ⟨name, hgrouped, hd⟩ | ⟨hgrouped, next, hd, hnext⟩
      · rw [hgrouped, hd]
        exact .inl ⟨name, rfl, rfl⟩
      · rw [hgrouped, hd]
        rcases ih next with ⟨name, hrest, herror⟩ | ⟨hrest, after, hafter, hget⟩
        · exact .inl ⟨name, hrest, herror⟩
        · refine .inr ⟨hrest, after, hafter, fun name => ?_⟩
          rw [hget, hnext, Declaration.lastOffer?, Declaration.lastOffer?, List.reverse_cons,
            List.findSome?_append, List.findSome?_singleton, Option.or_assoc]
  unfold ofDeclarations
  rcases hfold declarations Table.empty with
    ⟨name, hgrouped, herror⟩ | ⟨hgrouped, after, hafter, hget⟩
  · rw [herror]
    exact .inl ⟨name, hgrouped, rfl⟩
  · rw [hafter]
    refine .inr ⟨hgrouped, after, rfl, fun name => ?_⟩
    rw [hget, show Table.empty.get? name = none from rfl, Option.or_none]

section Load

variable {interpreter : Interpreter} {files : Files} {path source : Bytes}
  {declarations : List Declaration}

theorem load_eq (hsource : files.read path = .ok source)
    (hread : interpreter.read path source = .ok declarations) :
    load interpreter files path = ofDeclarations path declarations := by
  unfold load
  rw [hsource]
  show (interpreter.read path source).mapError _ >>= _ = _
  rw [hread]
  rfl

/-- **The test on written signatures keeps what means the type of plugin functions**, and besides it
only what groups its results. A source that is read is refused for the first exported function that
does, and for nothing else; without one, it makes a plugin of the exported functions whose signatures
mean that type, and all others are passed over. -/
theorem load_filters (hsource : files.read path = .ok source)
    (hread : interpreter.read path source = .ok declarations) :
    (∀ s : Signature, s.IsPlugin ↔ s.isPluginShape = true ∧ s.ResultsApart) ∧
      (∀ e, load interpreter files path = .error e ↔
        ∃ name, declarations.findSome? Declaration.grouped? = some name ∧ e = .signature name) ∧
      (declarations.findSome? Declaration.grouped? = none → ∃ p,
        load interpreter files path = .ok p ∧ p.path = path ∧
          ∀ name, p.functions.get? name = Declaration.lastOffer? declarations name) := by
  rw [load_eq hsource hread]
  refine ⟨Signature.isPlugin_iff, ?_, ?_⟩
  · intro e
    rcases ofDeclarations_cases path declarations with
      ⟨name, hgrouped, herror⟩ | ⟨hgrouped, _, hok, -⟩
    · rw [herror, hgrouped]
      constructor
      · intro h
        cases h
        exact ⟨name, rfl, rfl⟩
      · rintro ⟨name', hname, rfl⟩
        cases hname
        rfl
    · rw [hok, hgrouped]
      constructor
      · intro h
        cases h
      · rintro ⟨_, hname, -⟩
        cases hname
  · intro hnone
    rcases ofDeclarations_cases path declarations with
      ⟨name, hgrouped, -⟩ | ⟨-, functions, hok, hget⟩
    · rw [hnone] at hgrouped
      cases hgrouped
    · exact ⟨_, hok, rfl, hget⟩

end Load

/-! ### Functions of other shapes -/

/-- A function of a plugin, one with a variable number of arguments, and one that yields an integer. -/
def measuring : List Declaration :=
  [.function "Count"
      ⟨[⟨["args"], .slice (.named "any")⟩], [⟨[], .named "any"⟩, ⟨[], .named "error"⟩]⟩
      fun args => .ok (.plain (.int .word args.length)),
    .function "Gather"
      ⟨[⟨["args"], .variadic (.named "any")⟩], [⟨[], .named "any"⟩, ⟨[], .named "error"⟩]⟩
      fun args => .ok (.plain (.list args)),
    .function "Size"
      ⟨[⟨["args"], .slice (.named "any")⟩], [⟨[], .named "int"⟩, ⟨[], .named "error"⟩]⟩
      fun args => .ok (.plain (.int .word args.length))]

/-- Their source. -/
def measuringSource : Bytes :=
  "package main\n\nfunc Count(args []any) (any, error) \x7b return len(args), nil \x7d\n\n" ++
    "func Gather(args ...any) (any, error) \x7b return args, nil \x7d\n\n" ++
    "func Size(args []any) (int, error) \x7b return len(args), nil \x7d\n"

/-- A directory with that source. -/
def measuringFiles : Files := Files.empty.add "p/a.go" measuringSource

/-- A reader of it. -/
def measuringReader : Interpreter := ⟨fun _ _ => .ok measuring⟩

/-- Exported functions of other shapes are passed over, and fail nothing. -/
theorem load_filters_otherShapes :
    measuringFiles.read "p/a.go" = .ok measuringSource ∧
      measuringReader.read "p/a.go" measuringSource = .ok measuring ∧
      measuring.findSome? Declaration.grouped? = none ∧
      ∃ p, load measuringReader measuringFiles "p/a.go" = .ok p ∧
        (p.functions.get? "count").isSome = true ∧ (p.functions.get? "gather").isNone = true ∧
        (p.functions.get? "size").isNone = true := by
  have hsource : measuringFiles.read "p/a.go" = .ok measuringSource := rfl
  have hread : measuringReader.read "p/a.go" measuringSource = .ok measuring := rfl
  have hnone : measuring.findSome? Declaration.grouped? = none := by decide
  obtain ⟨p, hok, -, hget⟩ := (load_filters hsource hread).2.2 hnone
  refine ⟨hsource, hread, hnone, p, hok, ?_, ?_, ?_⟩
  · rw [hget]
    decide
  · rw [hget]
    decide
  · rw [hget]
    decide

/-! ### Results in groups -/

/-- A function that counts its arguments, and one with two results in one field. -/
def counting (first second : Bytes) : List Declaration :=
  [.function first
      ⟨[⟨["args"], .slice (.named "any")⟩], [⟨[], .emptyInterface⟩, ⟨[], .named "error"⟩]⟩
      fun args => .ok (.plain (.int .word args.length)),
    .function second
      ⟨[⟨["args"], .slice (.named "any")⟩],
        [⟨["a", "b"], .emptyInterface⟩, ⟨["err"], .named "error"⟩]⟩
      fun _ => .ok (.plain .nil)]

/-- Their source. -/
def countingSource (first second : Bytes) : Bytes :=
  "package main\n\nfunc " ++ first ++
    "(args []any) (interface\x7b\x7d, error) \x7b\n\treturn len(args), nil\n\x7d\n\nfunc " ++ second ++
    "(args []any) (a, b interface\x7b\x7d, err error) \x7b\n\treturn nil, nil, nil\n\x7d\n"

/-- A directory with that source. -/
def countingFiles (first second : Bytes) : Files :=
  Files.empty.add "p/a.go" (countingSource first second)

/-- A reader of it. -/
def countingReader (first second : Bytes) : Interpreter := ⟨fun _ _ => .ok (counting first second)⟩

/-- An exported function with grouped results passes for a function of a plugin, though it is none,
and the source fails. -/
theorem grouped_results_refused :
    (∃ name signature body, .function name signature body ∈ counting "Count" "Pair" ∧
        signature.isPluginShape = true ∧ ¬ signature.IsPlugin) ∧
      load (countingReader "Count" "Pair") (countingFiles "Count" "Pair") "p/a.go" =
        .error (.signature "Pair") := by
  refine ⟨⟨_, _, _, List.mem_cons_of_mem _ List.mem_cons_self, by decide, by decide⟩, ?_⟩
  rfl

end Plugin

end ChartScript
