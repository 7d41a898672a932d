import ChartScript.Store.Repository
import Mathlib.Data.List.Dedup
import Mathlib.Data.List.Induction
import Mathlib.Data.List.Perm.Basic

/-!
# What a repository answers

A repository is asked to save a run, to get one or to list a page of them, again and again. Its
answers are measured against the runs that were saved up to then, in order, and nothing else: the
last one saved under an identity is the one to get (`lastSaved?`), and the latest version of each run
is what there is to list (`latest`). A listing meets the runs in any arrangement, so there may be more
than one right page. All of them are windows of arrangements that are newest first, and every such
window may be shown (`shows_iff`).
-/

set_option autoImplicit false

namespace ChartScript

namespace Run

@[simp] theorem id_summary (r : Run) : r.summary.id = r.id := rfl

@[simp] theorem startedAt_summary (r : Run) : r.summary.startedAt = r.startedAt := rfl

end Run

namespace Repository

/-! ## The runs that were saved -/

/-- The run saved last under an identity. -/
def lastSaved? (saves : List Run) (id : Id) : Option Run :=
  (saves.filter fun run => run.id = id).getLast?

/-- The latest version of each run: a run counts unless a later one has its identity. -/
def latest : List Run → List Run
  | [] => []
  | run :: later => if run.id ∈ later.map Run.id then latest later else run :: latest later

/-- There is one version for each identity. -/
theorem map_id_latest (saves : List Run) :
    (latest saves).map Run.id = (saves.map Run.id).dedup := by
  induction saves with
  | nil => rfl
  | cons run later ih =>
    rw [latest, List.map_cons]
    split
    · next h => rw [List.dedup_cons_of_mem h, ih]
    · next h => rw [List.dedup_cons_of_notMem h, List.map_cons, ih]

theorem latest_concat (saves : List Run) (run : Run) :
    latest (saves ++ [run]) = others (latest saves) run.id ++ [run] := by
  induction saves with
  | nil => rfl
  | cons first later ih =>
    rw [List.cons_append, latest, latest, ih]
    by_cases hsame : first.id = run.id
    · -- The first run gives way to the one at the end, whether or not it did so before.
      rw [if_pos (by simp [hsame])]
      split
      · rfl
      · rw [others, others, List.filter_cons_of_neg (by simp [hsame])]
    · have hmem : first.id ∈ (later ++ [run]).map Run.id ↔ first.id ∈ later.map Run.id := by
        rw [List.map_append, List.mem_append, List.map_singleton, List.mem_singleton]
        exact or_iff_left hsame
      by_cases h : first.id ∈ later.map Run.id
      · rw [if_pos (hmem.2 h), if_pos h]
      · rw [if_neg (mt hmem.1 h), if_neg h, others, others,
          List.filter_cons_of_pos (by simpa using hsame), List.cons_append]

theorem find?_latest (saves : List Run) (id : Id) :
    (latest saves).find? (fun run => run.id == id) = lastSaved? saves id := by
  induction saves using List.reverseRecOn with
  | nil => rfl
  | append_singleton saves run ih =>
    rw [latest_concat, lastSaved?, List.filter_append, List.find?_append]
    by_cases h : run.id = id
    · -- The others have other identities, so the new run is found.
      subst h
      have hothers : (others (latest saves) run.id).find? (fun r => r.id == run.id) = none := by
        simp [others]
      rw [hothers]
      simp
    · have hothers : (others (latest saves) run.id).find? (fun r => r.id == id) =
          (latest saves).find? (fun r => r.id == id) := by
        rw [others, List.find?_filter]
        congr 1
        funext r
        by_cases hr : r.id = id
        · simp [hr, Ne.symm h]
        · simp [hr]
      rw [hothers, ih, lastSaved?]
      simp [h]

/-! ## Pages -/

/-- A page that a listing may show: the kept runs come in any arrangement. -/
def Shows (r : Repository) (limit offset : Int) (page : List Run) : Prop :=
  ∃ runs, runs.Perm r.runs ∧ listing runs limit offset = page

/-- The summaries of runs, newest first. Runs that began at the same time may come in any order. -/
structure NewestFirst (runs all : List Run) : Prop where
  perm : all.Perm (runs.map Run.summary)
  sorted : all.Pairwise fun a b => b.startedAt.ns ≤ a.startedAt.ns

theorem pairwise_isNewer_iff {all : List Run} :
    (all.Pairwise fun a b => isNewer a b = true) ↔
      all.Pairwise fun a b => b.startedAt.ns ≤ a.startedAt.ns := by
  simp only [isNewer, decide_eq_true_eq]

theorem newestFirst_mergeSort {runs arranged : List Run} (h : arranged.Perm runs) :
    NewestFirst runs ((arranged.map Run.summary).mergeSort isNewer) := by
  refine ⟨(List.mergeSort_perm _ _).trans (h.map _), pairwise_isNewer_iff.1 ?_⟩
  refine List.pairwise_mergeSort ?_ ?_ _
  · intro a b c hab hbc
    simp only [isNewer, decide_eq_true_eq] at *
    omega
  · intro a b
    simp only [isNewer, Bool.or_eq_true, decide_eq_true_eq]
    omega

/-- **What a listing may show** are the windows of arrangements that are newest first. -/
theorem shows_iff {r : Repository} {limit offset : Int} {page : List Run} :
    r.Shows limit offset page ↔
      ∃ all, NewestFirst r.runs all ∧ page = (Page.ofRequest limit offset).of all := by
  constructor
  · rintro ⟨arranged, hperm, rfl⟩
    exact ⟨_, newestFirst_mergeSort hperm, rfl⟩
  · rintro ⟨all, hall, rfl⟩
    -- An arrangement of summaries is one of runs, and sorting leaves it as it is.
    have hmap : Relation.Comp (fun x y => x = List.map Run.summary y) List.Perm all r.runs := by
      rw [List.eq_map_comp_perm]
      exact hall.perm
    obtain ⟨arranged, rfl, hperm⟩ := hmap
    refine ⟨arranged, hperm, ?_⟩
    rw [listing, List.mergeSort_of_pairwise (pairwise_isNewer_iff.2 hall.sorted)]

/-- The times of runs, latest first. -/
def times (runs : List Run) : List Int :=
  (runs.map fun run => run.startedAt.ns).mergeSort fun a b => b ≤ a

namespace NewestFirst

variable {runs all : List Run}

theorem length (h : NewestFirst runs all) : all.length = runs.length := by
  rw [h.perm.length_eq, List.length_map]

theorem map_id_perm (h : NewestFirst runs all) : (all.map Run.id).Perm (runs.map Run.id) := by
  have hids := h.perm.map Run.id
  rw [List.map_map] at hids
  exact hids

/-- Only runs with the same time can change places, so the times do not depend on the
arrangement. -/
theorem map_startedAt (h : NewestFirst runs all) :
    (all.map fun run => run.startedAt.ns) = times runs := by
  have hperm : (all.map fun run => run.startedAt.ns).Perm (runs.map fun run => run.startedAt.ns) := by
    have htimes := h.perm.map fun run => run.startedAt.ns
    rw [List.map_map] at htimes
    exact htimes
  have hsorted : (times runs).Pairwise fun a b => decide (b ≤ a) = true := by
    refine List.pairwise_mergeSort ?_ ?_ _
    · intro a b c hab hbc
      simp only [decide_eq_true_eq] at *
      omega
    · intro a b
      simp only [Bool.or_eq_true, decide_eq_true_eq]
      omega
  refine List.Perm.eq_of_pairwise ?_ ?_ hsorted ?_
  · intro a b _ _ hab hba
    simp only [decide_eq_true_eq] at hab hba
    omega
  · rw [List.pairwise_map]
    exact h.sorted.imp fun hle => decide_eq_true hle
  · exact hperm.trans (List.mergeSort_perm _ _).symm

end NewestFirst

/-- A right page, given the runs that were saved. -/
structure IsPage (saves : List Run) (limit offset : Int) (page : List Run) : Prop where
  /-- It is a window of all runs, newest first. -/
  window : ∃ all, NewestFirst (latest saves) all ∧
    page = (all.drop (max 0 offset).toNat).take (if limit ≤ 0 then 100 else limit).toNat
  /-- It is full unless the runs come to an end. -/
  length : (page.length : Int) = min (if limit ≤ 0 then 100 else limit)
    (max 0 (((saves.map Run.id).dedup.length : Int) - max 0 offset))
  /-- It shows no run twice. -/
  distinct : (page.map Run.id).Nodup
  /-- There is no choice about the times. -/
  times : (page.map fun run => run.startedAt.ns) =
    ((times (latest saves)).drop (max 0 offset).toNat).take (if limit ≤ 0 then 100 else limit).toNat

theorem ofRequest_eq (limit offset : Int) :
    Page.ofRequest limit offset =
      ⟨(if limit ≤ 0 then 100 else limit).toNat, (max 0 offset).toNat⟩ := by
  rw [Page.ofRequest, Page.mk.injEq]
  constructor
  · split <;> rfl
  · omega

theorem isPage_of_shows {r : Repository} {saves : List Run} (hr : r.runs = latest saves)
    {limit offset : Int} {page : List Run} (h : r.Shows limit offset page) :
    IsPage saves limit offset page := by
  obtain ⟨all, hall, rfl⟩ := shows_iff.1 h
  rw [hr] at hall
  rw [ofRequest_eq, Page.of]
  refine ⟨⟨all, hall, rfl⟩, ?_, ?_, ?_⟩
  · have hn : all.length = (saves.map Run.id).dedup.length := by
      rw [hall.length, ← map_id_latest, List.length_map]
    dsimp only
    rw [List.length_take, List.length_drop, hn]
    split <;> omega
  · have hids : (all.map Run.id).Nodup := by
      rw [hall.map_id_perm.nodup_iff, map_id_latest]
      exact List.nodup_dedup _
    exact hids.sublist (((List.take_sublist _ _).trans (List.drop_sublist _ _)).map Run.id)
  · rw [List.map_take, List.map_drop, hall.map_startedAt]

/-! ## Asking again and again -/

/-- What a repository can be asked for. -/
inductive Request where
  | save (run : Run)
  | get (id : Id)
  | list (limit offset : Int)

/-- What it answers. -/
inductive Reply where
  | saved
  | found (run : Run)
  | failed (words : Bytes)
  | page (runs : List Run)

/-- The answer to who asks for a run. -/
def Reply.ofRun? : Option Run → Reply
  | some run => .found run
  | none => .failed notFound

/-- A request, an answer to it, and the repository afterwards. -/
inductive Answers : Repository → Request → Reply → Repository → Prop where
  | save (r : Repository) (run : Run) : Answers r (.save run) .saved (r.save run)
  | get (r : Repository) (id : Id) : Answers r (.get id) (.ofRun? (r.get? id)) r
  | list {r : Repository} {limit offset : Int} {page : List Run} (h : r.Shows limit offset page) :
      Answers r (.list limit offset) (.page page) r

/-- Requests made one after the other, with their answers. -/
inductive Dialogue : Repository → List (Request × Reply) → Repository → Prop where
  | done (r : Repository) : Dialogue r [] r
  | ask {r r₁ r' : Repository} {request : Request} {reply : Reply} {talk : List (Request × Reply)}
      (first : Answers r request reply r₁) (rest : Dialogue r₁ talk r') :
      Dialogue r ((request, reply) :: talk) r'

/-- The run that a request saves. -/
def Request.run? : Request → Option Run
  | .save run => some run
  | .get _ => none
  | .list _ _ => none

/-- The runs saved in the course of a dialogue. -/
def savedIn (talk : List (Request × Reply)) : List Run := talk.filterMap fun turn => turn.1.run?

/-- What one request makes of the kept runs. -/
theorem Answers.runs {r r' : Repository} {request : Request} {reply : Reply} {saves : List Run}
    (h : Answers r request reply r') (hr : r.runs = latest saves) :
    r'.runs = latest (saves ++ request.run?.toList) := by
  cases h with
  | save run =>
    rw [Request.run?, Option.toList_some, latest_concat, ← hr]
    rfl
  | get id => rw [Request.run?, Option.toList_none, List.append_nil, hr]
  | list h => rw [Request.run?, Option.toList_none, List.append_nil, hr]

/-- What a dialogue makes of them: only the saves count. -/
theorem Dialogue.runs {r r' : Repository} {talk : List (Request × Reply)} {saves : List Run}
    (h : Dialogue r talk r') (hr : r.runs = latest saves) :
    r'.runs = latest (saves ++ savedIn talk) := by
  induction h generalizing saves with
  | done r => rw [savedIn, List.filterMap_nil, List.append_nil, hr]
  | @ask r r₁ r' request reply talk first rest ih =>
    have hrest := ih (first.runs hr)
    have hsaves : savedIn ((request, reply) :: talk) = request.run?.toList ++ savedIn talk := by
      unfold savedIn
      cases h : request.run? <;> simp [h]
    rw [hsaves, ← List.append_assoc]
    exact hrest

/-- The right answer to a request, given the runs that were saved before. -/
def Request.Right (saves : List Run) : Request → Reply → Prop
  | .save _, reply => reply = .saved
  | .get id, reply => reply = .ofRun? (lastSaved? saves id)
  | .list limit offset, reply => ∃ page, reply = .page page ∧ IsPage saves limit offset page

theorem exists_answers (r : Repository) (request : Request) :
    ∃ reply r', Answers r request reply r' := by
  cases request with
  | save run => exact ⟨_, _, .save r run⟩
  | get id => exact ⟨_, _, .get r id⟩
  | list limit offset => exact ⟨_, _, .list ⟨r.runs, .refl _, rfl⟩⟩

/-- **A repository is faithful.** After any dialogue, whatever is asked next has an answer, and any
answer that it has is by what was saved: a run by its last version, a listing by a page of the latest
versions. Neither a listing nor a look at a run has any part in later answers. -/
theorem dialogue_faithful {talk : List (Request × Reply)} {r : Repository}
    (h : Dialogue .empty talk r) (request : Request) :
    (∃ reply r', Answers r request reply r') ∧
      ∀ reply r', Answers r request reply r' → request.Right (savedIn talk) reply := by
  refine ⟨exists_answers r request, fun reply r' ha => ?_⟩
  have hruns : r.runs = latest (savedIn talk) := h.runs (show empty.runs = latest [] from rfl)
  cases ha with
  | save run => rfl
  | get id => rw [Request.Right, get?, hruns, find?_latest]
  | list hshows => exact ⟨_, rfl, isPage_of_shows hruns hshows⟩

/-- Three saves, the last of them under the identity of the first. -/
def resaved : List Run :=
  [{ id := ⟨1⟩, script := "a = 1;", startedAt := ⟨5⟩ },
    { id := ⟨2⟩, script := "b = 2;", startedAt := ⟨7⟩ },
    { id := ⟨1⟩, script := "a = 3;", startedAt := ⟨9⟩, symbols := [⟨"a", "Integer", "3"⟩] }]

/-- What is kept of them. -/
def resavedKept : Repository := resaved.foldl save empty

theorem dialogue_resaved :
    Dialogue empty (resaved.map fun run => (.save run, .saved)) resavedKept :=
  .ask (.save _ _) (.ask (.save _ _) (.ask (.save _ _) (.done _)))

theorem shows_resaved :
    resavedKept.Shows 1 (-4) [{ id := ⟨1⟩, script := "a = 3;", startedAt := ⟨9⟩ }] := by
  refine ⟨_, List.reverse_perm _, ?_⟩
  rw [listing, List.mergeSort_of_pairwise (by decide)]
  rfl

/-- The run that was saved again is got with its symbols and listed without them, as it was saved
last. -/
theorem dialogue_faithful_resaved :
    (Request.get ⟨1⟩).Right resaved (.ofRun? resaved[2]?) ∧
      (Request.list 1 (-4)).Right resaved
        (.page [{ id := ⟨1⟩, script := "a = 3;", startedAt := ⟨9⟩ }]) :=
  ⟨(dialogue_faithful dialogue_resaved _).2 _ _ (.get _ _),
    (dialogue_faithful dialogue_resaved _).2 _ _ (.list shows_resaved)⟩

end Repository

end ChartScript
