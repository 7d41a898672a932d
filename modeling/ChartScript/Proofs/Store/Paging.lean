import ChartScript.Proofs.Store.Dialogue
import Mathlib.Algebra.Group.Int.Defs
import Mathlib.Algebra.Group.Nat.Defs

/-!
# Turning pages

Who wants to see all runs asks for one page after the other: `k` runs from the beginning, `k` runs
from `k` on, and so on. Each page is cut from an arrangement of its own. The arrangements agree in
the times, so the pages together have the times of all runs, latest first. Runs that began together
have a range of places in common, behind those that are `newer`, and there each arrangement may have
them in an order of its own. If one page holds the whole range, each of these runs is seen once
(`paging_sees_each`). If the range goes over the border of two pages, both may show the same run and
neither its twin (`paging_twins_missed`).
-/

set_option autoImplicit false

namespace ChartScript

namespace Repository

/-- Of what was listed, a run is there once, and as its summary. -/
def SeenOnce (listed : List Run) (run : Run) : Prop :=
  (listed.filter fun x => x.id = run.id) = [run.summary]

/-- How many runs began after a run: they come before it on every listing. -/
def newer (runs : List Run) (run : Run) : Nat :=
  (runs.filter fun x => run.startedAt.ns < x.startedAt.ns).length

/-- How many runs began at the time of a run: its own place is among theirs. -/
def level (runs : List Run) (run : Run) : Nat :=
  (runs.filter fun x => x.startedAt.ns = run.startedAt.ns).length

/-- The first and the last of the places for a run are on one page of `k` places. -/
def OnOnePage (runs : List Run) (k : Nat) (run : Run) : Prop :=
  newer runs run / k = (newer runs run + level runs run - 1) / k

/-! ## Lists cut into pages -/

/-- Pages one after the other make the list, as far as they go. -/
theorem flatMap_pages {α : Type} (l : List α) (k m : Nat) :
    ((List.range m).flatMap fun i => (l.drop (i * k)).take k) = l.take (m * k) := by
  induction m with
  | zero => simp
  | succ m ih => rw [List.range_succ, List.flatMap_append, ih, Nat.succ_mul, List.take_add,
      List.flatMap_singleton]

theorem flatMap_one_page {α : Type} {l : List α} {j m : Nat} (h : j < m) :
    ((List.range m).flatMap fun i => if i = j then l else []) = l := by
  induction m with
  | zero => omega
  | succ m ih =>
    rw [List.range_succ, List.flatMap_append, List.flatMap_singleton]
    by_cases hj : j = m
    · have hnone : ((List.range m).flatMap fun i => if i = j then l else []) = [] := by
        rw [List.flatMap_eq_nil_iff]
        intro i hi
        have hlt := List.mem_range.1 hi
        rw [if_neg (by omega)]
      rw [hnone, if_pos hj.symm, List.nil_append]
    · rw [ih (by omega), if_neg (Ne.symm hj), List.append_nil]

/-- What is found on a page when everything to be found stands together and on one page. -/
theorem filter_page {α : Type} {p : α → Bool} {before found behind : List α}
    (hbefore : ∀ x ∈ before, p x = false) (hfound : ∀ x ∈ found, p x = true)
    (hbehind : ∀ x ∈ behind, p x = false) (hne : found ≠ []) {k : Nat} (hk : 0 < k)
    (h : before.length / k = (before.length + found.length - 1) / k) (i : Nat) :
    (((before ++ (found ++ behind)).drop (i * k)).take k).filter p =
      if i = before.length / k then found else [] := by
  have hpos := List.length_pos_iff.2 hne
  have hfirst : before.length / k * k ≤ before.length := Nat.div_mul_le_self _ _
  have hlast : before.length + found.length ≤ before.length / k * k + k := by
    have hlt := Nat.lt_div_mul_add (a := before.length + found.length - 1) hk
    rw [← h] at hlt
    omega
  have none_of : ∀ l : List α, (∀ x ∈ l, p x = false) → l.filter p = [] := by
    intro l hl
    rw [List.filter_eq_nil_iff]
    intro x hx
    rw [hl x hx]
    decide
  rcases Nat.lt_trichotomy i (before.length / k) with hlt | rfl | hgt
  · -- The page ends where the first one that is found has not yet begun.
    rw [if_neg (Nat.ne_of_lt hlt), List.take_drop]
    have hle : i * k + k ≤ before.length := by
      have hmul := Nat.mul_le_mul_right k hlt
      rw [Nat.succ_mul] at hmul
      omega
    rw [List.take_append_of_le_length hle]
    exact none_of _ fun x hx => hbefore x (List.mem_of_mem_take (List.mem_of_mem_drop hx))
  · rw [if_pos rfl, List.drop_append_of_le_length hfirst, List.take_append, List.take_append,
      List.filter_append, List.filter_append]
    have hfront := none_of ((before.drop (before.length / k * k)).take k)
      fun x hx => hbefore x (List.mem_of_mem_drop (List.mem_of_mem_take hx))
    have hback : ∀ n, (behind.take n).filter p = [] :=
      fun n => none_of _ fun x hx => hbehind x (List.mem_of_mem_take hx)
    rw [hfront, hback, List.take_of_length_le (by rw [List.length_drop]; omega),
      List.filter_eq_self.2 hfound, List.nil_append, List.append_nil]
  · -- The page begins where the last one that is found is over.
    rw [if_neg (Nat.ne_of_gt hgt), ← List.append_assoc]
    have hge : (before ++ found).length ≤ i * k := by
      have hmul := Nat.mul_le_mul_right k hgt
      rw [Nat.succ_mul] at hmul
      rw [List.length_append]
      omega
    rw [List.drop_append, List.drop_eq_nil_of_le hge, List.nil_append]
    exact none_of _ fun x hx => hbehind x (List.mem_of_mem_drop (List.mem_of_mem_take hx))

/-! ## The places of a run -/

theorem filter_id_eq {runs : List Run} (h : (runs.map Run.id).Nodup) {run : Run}
    (hrun : run ∈ runs) : (runs.filter fun x => x.id = run.id) = [run] := by
  induction runs with
  | nil => cases hrun
  | cons first rest ih =>
    obtain ⟨hfirst, hrest⟩ := List.nodup_cons.1 h
    rcases List.mem_cons.1 hrun with rfl | hmem
    · have hnone : (rest.filter fun x => x.id = run.id) = [] := by
        rw [List.filter_eq_nil_iff]
        intro x hx hid
        exact hfirst (List.mem_map.2 ⟨x, hx, of_decide_eq_true hid⟩)
      rw [List.filter_cons_of_pos (by simp), hnone]
    · have hne : first.id ≠ run.id := by
        intro hid
        exact hfirst (List.mem_map.2 ⟨run, hmem, hid.symm⟩)
      rw [List.filter_cons_of_neg (by simpa using hne), ih hrest hmem]

/-- A list that is newest first begins with what is newer than a time and ends with what is
older. -/
theorem split_at_time {all : List Run}
    (h : all.Pairwise fun a b => b.startedAt.ns ≤ a.startedAt.ns) (t : Int) :
    all = (all.filter fun x => t < x.startedAt.ns) ++
      ((all.filter fun x => x.startedAt.ns = t) ++ all.filter fun x => x.startedAt.ns < t) := by
  induction all with
  | nil => rfl
  | cons first rest ih =>
    obtain ⟨hfirst, hrest⟩ := List.pairwise_cons.1 h
    have hsplit := ih hrest
    rcases Int.lt_trichotomy first.startedAt.ns t with hlt | heq | hgt
    · -- Everything is older.
      have hall : ∀ x ∈ first :: rest, x.startedAt.ns < t := by
        intro x hx
        rcases List.mem_cons.1 hx with rfl | hx
        · exact hlt
        · have hle := hfirst x hx
          omega
      have hnewer : ((first :: rest).filter fun x => t < x.startedAt.ns) = [] := by
        rw [List.filter_eq_nil_iff]
        intro x hx
        have hxt := hall x hx
        simp only [decide_eq_true_eq]
        omega
      have hlevel : ((first :: rest).filter fun x => x.startedAt.ns = t) = [] := by
        rw [List.filter_eq_nil_iff]
        intro x hx
        have hxt := hall x hx
        simp only [decide_eq_true_eq]
        omega
      rw [hnewer, hlevel, List.filter_eq_self.2 fun x hx => decide_eq_true (hall x hx)]
      rfl
    · have hnewer : (rest.filter fun x => t < x.startedAt.ns) = [] := by
        rw [List.filter_eq_nil_iff]
        intro x hx
        have hle := hfirst x hx
        simp only [decide_eq_true_eq]
        omega
      rw [List.filter_cons_of_neg (by simp; omega), List.filter_cons_of_pos (by simpa using heq),
        List.filter_cons_of_neg (by simp; omega), hnewer, List.nil_append, List.cons_append]
      rw [hnewer, List.nil_append] at hsplit
      rw [← hsplit]
    · rw [List.filter_cons_of_pos (by simpa using hgt), List.filter_cons_of_neg (by simp; omega),
        List.filter_cons_of_neg (by simp; omega), List.cons_append, ← hsplit]

namespace NewestFirst

variable {runs all : List Run}

/-- What is counted by time only is counted alike in every arrangement. -/
theorem length_filter (h : NewestFirst runs all) {p : Run → Bool}
    (hp : ∀ run : Run, p run.summary = p run) :
    (all.filter p).length = (runs.filter p).length := by
  rw [(h.perm.filter p).length_eq, List.filter_map, List.length_map]
  exact congrArg (fun q => (runs.filter q).length) (funext hp)

/-- An arrangement has every run once. -/
theorem seenOnce (h : NewestFirst runs all) (hids : (runs.map Run.id).Nodup) {run : Run}
    (hrun : run ∈ runs) : SeenOnce all run := by
  have hperm := h.perm.filter fun x => x.id = run.id
  rw [List.filter_map] at hperm
  have hone : (runs.filter ((fun x => decide (x.id = run.id)) ∘ Run.summary)) = [run] :=
    filter_id_eq hids hrun
  rw [hone, List.map_singleton] at hperm
  exact List.perm_singleton.1 hperm

/-- What an arrangement has of a run's identity is of the run's time. -/
theorem time_of_id (h : NewestFirst runs all) (hids : (runs.map Run.id).Nodup) {run x : Run}
    (hrun : run ∈ runs) (hx : x ∈ all) (hid : x.id = run.id) :
    x.startedAt.ns = run.startedAt.ns := by
  have hmem : x ∈ all.filter fun y => y.id = run.id := List.mem_filter.2 ⟨hx, decide_eq_true hid⟩
  rw [h.seenOnce hids hrun, List.mem_singleton] at hmem
  rw [hmem, Run.startedAt_summary]

/-- **A run whose places are on one page is found there, and on no other page.** -/
theorem filter_page (h : NewestFirst runs all) (hids : (runs.map Run.id).Nodup) {run : Run}
    (hrun : run ∈ runs) {k : Nat} (hk : 0 < k) (hone : OnOnePage runs k run) (i : Nat) :
    (((all.drop (i * k)).take k).filter fun x => x.id = run.id) =
      if i = newer runs run / k then [run.summary] else [] := by
  have hsplit := split_at_time h.sorted run.startedAt.ns
  have hnewer : (all.filter fun x => run.startedAt.ns < x.startedAt.ns).length = newer runs run :=
    h.length_filter fun _ => rfl
  have hlevel : (all.filter fun x => x.startedAt.ns = run.startedAt.ns).length = level runs run :=
    h.length_filter fun _ => rfl
  have hseen := h.seenOnce hids hrun
  -- The run is looked for among those of its time only.
  have hnarrow : ∀ l : List Run, (∀ x ∈ l, x ∈ all) →
      (l.filter fun x => x.id = run.id) =
        (l.filter fun x => x.startedAt.ns = run.startedAt.ns).filter fun x => x.id = run.id := by
    intro l hl
    rw [List.filter_filter]
    refine List.filter_congr fun x hx => ?_
    by_cases hid : x.id = run.id
    · simp [hid, h.time_of_id hids hrun (hl x hx) hid]
    · simp [hid]
  have hlevels : (all.filter fun x => x.startedAt.ns = run.startedAt.ns) ≠ [] := by
    intro hnil
    have hall := hnarrow all fun x hx => hx
    rw [hnil, hseen] at hall
    cases hall
  have hbefore : ∀ x ∈ all.filter fun x => run.startedAt.ns < x.startedAt.ns,
      decide (x.startedAt.ns = run.startedAt.ns) = false := by
    intro x hx
    have hlt := of_decide_eq_true (List.mem_filter.1 hx).2
    exact decide_eq_false (by omega)
  have hbehind : ∀ x ∈ all.filter fun x => x.startedAt.ns < run.startedAt.ns,
      decide (x.startedAt.ns = run.startedAt.ns) = false := by
    intro x hx
    have hlt := of_decide_eq_true (List.mem_filter.1 hx).2
    exact decide_eq_false (by omega)
  rw [OnOnePage, ← hnewer, ← hlevel] at hone
  have hpage := Repository.filter_page hbefore (fun x hx => (List.mem_filter.1 hx).2) hbehind
    hlevels hk hone i
  rw [← hsplit, hnewer] at hpage
  rw [hnarrow _ fun x hx => List.mem_of_mem_drop (List.mem_of_mem_take hx)]
  rw [hpage]
  split
  · rw [← hnarrow all fun x hx => hx]
    exact hseen
  · rfl

end NewestFirst

/-- A run that began at a time of its own has one place only. -/
theorem onOnePage_of_nodup {runs : List Run} (h : (runs.map fun run => run.startedAt.ns).Nodup)
    {run : Run} (hrun : run ∈ runs) (k : Nat) : OnOnePage runs k run := by
  have hlevel : level runs run = 1 := by
    have hcount := List.count_eq_one_of_mem h
      (List.mem_map_of_mem (f := fun run : Run => run.startedAt.ns) hrun)
    rw [List.count_eq_length_filter, List.filter_map, List.length_map] at hcount
    rw [level, ← hcount]
    congr 1
  rw [OnOnePage, hlevel, Nat.add_sub_cancel]

/-! ## One page after the other -/

theorem ofRequest_page {k : Nat} (hk : 0 < k) (i : Nat) :
    Page.ofRequest k (i * k) = ⟨k, i * k⟩ := by
  rw [ofRequest_eq, if_neg (by omega), Page.mk.injEq, ← Int.natCast_mul]
  omega

/-- Pages of `k` runs, each cut from an arrangement of its own. -/
def CutFrom (runs : List Run) (k : Nat) (pages : Nat → List Run) : Prop :=
  ∀ i, ∃ all, NewestFirst runs all ∧ pages i = (all.drop (i * k)).take k

theorem cutFrom_iff {r : Repository} {k : Nat} (hk : 0 < k) {pages : Nat → List Run} :
    (∀ i : Nat, r.Shows k (i * k) (pages i)) ↔ CutFrom r.runs k pages := by
  simp only [shows_iff, ofRequest_page hk]
  rfl

namespace CutFrom

variable {runs : List Run} {k m : Nat} {pages : Nat → List Run}

theorem map_startedAt (h : CutFrom runs k pages) (hm : runs.length ≤ m * k) :
    (((List.range m).flatMap pages).map fun run => run.startedAt.ns) = times runs := by
  have hpage : ∀ i, ((pages i).map fun run => run.startedAt.ns) =
      ((times runs).drop (i * k)).take k := by
    intro i
    obtain ⟨all, hall, hcut⟩ := h i
    rw [hcut, List.map_take, List.map_drop, hall.map_startedAt]
  rw [List.map_flatMap]
  simp only [hpage]
  rw [flatMap_pages]
  refine List.take_of_length_le ?_
  rw [times, List.length_mergeSort, List.length_map]
  exact hm

theorem exists_run (h : CutFrom runs k pages) {i : Nat} {x : Run} (hx : x ∈ pages i) :
    ∃ run ∈ runs, x = run.summary := by
  obtain ⟨all, hall, hcut⟩ := h i
  rw [hcut] at hx
  obtain ⟨run, hrun, rfl⟩ :=
    List.mem_map.1 (hall.perm.subset (List.mem_of_mem_drop (List.mem_of_mem_take hx)))
  exact ⟨run, hrun, rfl⟩

theorem eq_nil (h : CutFrom runs k pages) (hm : runs.length ≤ m * k) {i : Nat} (hi : m ≤ i) :
    pages i = [] := by
  obtain ⟨all, hall, hcut⟩ := h i
  have hle : all.length ≤ i * k := by
    rw [hall.length]
    exact Nat.le_trans hm (Nat.mul_le_mul_right k hi)
  rw [hcut, List.drop_eq_nil_of_le hle, List.take_nil]

theorem seenOnce (h : CutFrom runs k pages) (hids : (runs.map Run.id).Nodup) (hk : 0 < k)
    (hm : runs.length ≤ m * k) {run : Run} (hrun : run ∈ runs) (hone : OnOnePage runs k run) :
    SeenOnce ((List.range m).flatMap pages) run := by
  have hpage : ∀ i, ((pages i).filter fun x => x.id = run.id) =
      if i = newer runs run / k then [run.summary] else [] := by
    intro i
    obtain ⟨all, hall, hcut⟩ := h i
    rw [hcut]
    exact hall.filter_page hids hrun hk hone i
  have hlt : newer runs run < runs.length := by
    refine List.length_filter_lt_length_iff_exists.2 ⟨run, hrun, ?_⟩
    simp
  have hj : newer runs run / k < m := Nat.div_lt_of_lt_mul (by rw [Nat.mul_comm]; omega)
  rw [SeenOnce, List.filter_flatMap]
  simp only [hpage]
  exact flatMap_one_page hj

end CutFrom

/-- **Turning pages shows every run once, unless runs that began together are parted.** Let enough
pages of `k` runs be asked for, each cut from any arrangement. Together they have the times of all
runs, latest first, and show nothing but kept runs; the pages behind them are empty. Every run whose
places are on one page is seen once, so all runs are if no two began at the same time. All runs are
seen once, too, if the pages are cut from the same arrangement. -/
theorem paging_sees_each {r : Repository} {k : Nat} (hk : 0 < k) {pages : Nat → List Run}
    (h : ∀ i : Nat, r.Shows k (i * k) (pages i)) {m : Nat} (hm : r.runs.length ≤ m * k) :
    (((List.range m).flatMap pages).map fun run => run.startedAt.ns) = times r.runs ∧
      (∀ x ∈ (List.range m).flatMap pages, ∃ run ∈ r.runs, x = run.summary) ∧
      (∀ i, m ≤ i → pages i = []) ∧
      (∀ run ∈ r.runs, OnOnePage r.runs k run → SeenOnce ((List.range m).flatMap pages) run) ∧
      ((r.runs.map fun run => run.startedAt.ns).Nodup →
        ∀ run ∈ r.runs, SeenOnce ((List.range m).flatMap pages) run) ∧
      ∀ arranged : List Run, arranged.Perm r.runs → ∀ run ∈ r.runs,
        SeenOnce ((List.range m).flatMap fun i : Nat => listing arranged k (i * k)) run := by
  have hcut := (cutFrom_iff hk).1 h
  refine ⟨hcut.map_startedAt hm, ?_, fun i hi => hcut.eq_nil hm hi, ?_, ?_, ?_⟩
  · intro x hx
    obtain ⟨i, -, hi⟩ := List.mem_flatMap.1 hx
    exact hcut.exists_run hi
  · intro run hrun hone
    exact hcut.seenOnce r.distinct hk hm hrun hone
  · intro hnodup run hrun
    exact hcut.seenOnce r.distinct hk hm hrun (onOnePage_of_nodup hnodup hrun k)
  · intro arranged harranged run hrun
    have hall := newestFirst_mergeSort harranged
    simp only [listing, ofRequest_page hk, Page.of]
    rw [flatMap_pages, List.take_of_length_le (by rw [hall.length]; exact hm)]
    exact hall.seenOnce r.distinct hrun

/-! ## Twins -/

/-- Two runs that began at the same time. -/
def firstTwin : Run := { id := ⟨1⟩, script := "a = 1;", startedAt := ⟨0⟩ }

def secondTwin : Run := { id := ⟨2⟩, script := "b = 2;", startedAt := ⟨0⟩ }

def twins : Repository := ⟨[firstTwin, secondTwin], by decide⟩

/-- The twins as the call for page `i` lists them: all calls but the first have them swapped. -/
def listedTwins (i : Nat) : List Run :=
  if i = 0 then [firstTwin, secondTwin] else [secondTwin, firstTwin]

theorem newestFirst_listedTwins (i : Nat) : NewestFirst twins.runs (listedTwins i) := by
  unfold listedTwins
  split
  · exact ⟨.refl _, by decide⟩
  · exact ⟨.swap _ _ _, by decide⟩

/-- The pages of `k` runs that these calls show. -/
def twinPages (k i : Nat) : List Run := ((listedTwins i).drop (i * k)).take k

theorem cutFrom_twinPages (k : Nat) : CutFrom twins.runs k (twinPages k) :=
  fun i => ⟨_, newestFirst_listedTwins i, rfl⟩

/-- Twins that fit on one page are seen once each. -/
theorem paging_sees_each_twins :
    SeenOnce ((List.range 1).flatMap (twinPages 2)) firstTwin ∧
      SeenOnce ((List.range 1).flatMap (twinPages 2)) secondTwin := by
  have hshows := (cutFrom_iff (by decide)).2 (cutFrom_twinPages 2)
  have hseen := (paging_sees_each (by decide) hshows
    (show twins.runs.length ≤ 1 * 2 by decide)).2.2.2.1
  exact ⟨hseen firstTwin List.mem_cons_self rfl,
    hseen secondTwin (List.mem_cons_of_mem _ List.mem_cons_self) rfl⟩

/-- On pages of one run each, the first twin may be seen on both pages, and the second one on none.
And if the offset of a third page of `2 ^ 62` runs is reckoned in words of 64 bits, it is negative,
and the page begins with the first run again. -/
theorem paging_twins_missed :
    (∀ i : Nat, twins.Shows 1 (i * 1) (twinPages 1 i)) ∧
      twinPages 1 0 = [firstTwin] ∧ twinPages 1 1 = [firstTwin] ∧
      ¬ SeenOnce ((List.range 2).flatMap (twinPages 1)) firstTwin ∧
      ¬ SeenOnce ((List.range 2).flatMap (twinPages 1)) secondTwin ∧
      twins.Shows (2 ^ 62) 0 [firstTwin, secondTwin] ∧
      twins.Shows (2 ^ 62) (Int.bmod (2 * 2 ^ 62) (2 ^ 64)) [firstTwin, secondTwin] := by
  have hpages : (List.range 2).flatMap (twinPages 1) = [firstTwin, firstTwin] := rfl
  have hbeginning : ∀ offset : Int, offset ≤ 0 →
      twins.Shows (2 ^ 62) offset [firstTwin, secondTwin] := by
    intro offset hoffset
    refine shows_iff.2 ⟨_, newestFirst_listedTwins 0, ?_⟩
    rw [Page.ofRequest, if_neg (by decide), Int.toNat_of_nonpos hoffset]
    rfl
  refine ⟨(cutFrom_iff (by decide)).2 (cutFrom_twinPages 1), rfl, rfl, ?_, ?_,
    hbeginning _ (by decide), hbeginning _ (by decide)⟩
  · intro hseen
    rw [hpages] at hseen
    exact absurd (congrArg List.length hseen) (by decide)
  · intro hseen
    rw [hpages] at hseen
    exact absurd (congrArg List.length hseen) (by decide)

end Repository

end ChartScript
