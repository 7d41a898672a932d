import ChartScript.Store.Run

/-!
# Repositories

A repository keeps runs by their identity for as long as the program lives. Listing shows summaries,
newest first, a page at a time. Runs are kept in no particular order: `listing` takes them in any
arrangement.
-/

set_option autoImplicit false

namespace ChartScript

/-- A part of a listing: how many entries, and how many come before it. -/
structure Page where
  size : Nat
  start : Nat

/-- The page that is asked for: a limit that is not positive stands for 100 entries, and a negative
offset for the beginning. -/
def Page.ofRequest (limit offset : Int) : Page :=
  ⟨if limit ≤ 0 then 100 else limit.toNat, offset.toNat⟩

/-- The entries of a list that are on a page. -/
def Page.of {α : Type} (p : Page) (entries : List α) : List α := (entries.drop p.start).take p.size

/-- Runs with distinct identities. -/
structure Repository where
  runs : List Run
  distinct : (runs.map Run.id).Nodup

namespace Repository

/-- The repository without runs. -/
def empty : Repository := ⟨[], .nil⟩

/-- The runs without the one with this identity. -/
def others (runs : List Run) (id : Id) : List Run := runs.filter fun r => r.id ≠ id

/-- Taking a run out and adding it anew keeps identities distinct. -/
theorem nodup_others_append {runs : List Run} (h : (runs.map Run.id).Nodup) (run : Run) :
    ((others runs run.id ++ [run]).map Run.id).Nodup := by
  simp only [List.map_append, List.map_cons, List.map_nil]
  refine List.nodup_append.2 ⟨(List.filter_sublist.map Run.id).nodup h, by simp, ?_⟩
  intro a ha b hb
  obtain ⟨r, hr, rfl⟩ := List.mem_map.1 ha
  rw [List.mem_singleton.1 hb]
  simpa [others] using (List.mem_filter.1 hr).2

/-- Keeps a run, in place of an earlier one with its identity. -/
def save (r : Repository) (run : Run) : Repository :=
  ⟨others r.runs run.id ++ [run], nodup_others_append r.distinct run⟩

/-- What is said when no run has the identity asked for. -/
def notFound : Bytes := "run not found"

/-- The run with an identity. -/
def get? (r : Repository) (id : Id) : Option Run := r.runs.find? fun run => run.id == id

/-- Whether a run comes before another in a listing, or is level with it. -/
def isNewer (a b : Run) : Bool := b.startedAt.ns ≤ a.startedAt.ns

/-- The page of a listing of the given runs, in whatever arrangement they come. -/
def listing (runs : List Run) (limit offset : Int) : List Run :=
  (Page.ofRequest limit offset).of ((runs.map Run.summary).mergeSort isNewer)

/-- A page of summaries of the kept runs, newest first. -/
def list (r : Repository) (limit offset : Int) : List Run := listing r.runs limit offset

end Repository

end ChartScript
