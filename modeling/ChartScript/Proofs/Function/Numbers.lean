import ChartScript.Function.Standard
import ChartScript.Proofs.Value.Rounding
import Mathlib.Data.List.MinMax

/-!
# What the functions on numbers make of integers

`min` and `max` compare their arguments as reals, and integers beyond `2 ^ 53` may round to the same
real. The answer is then the first of those that round alike, and another one of them may be the
less or the greater (`min_max_integers`). `abs` turns the sign of an integer where the operator `-`
would go over to a real: the two agree on all integers but the lowest one, which `abs` leaves
negative (`abs_integers`).
-/

set_option autoImplicit false

namespace ChartScript
namespace Function

open Value

/-! ## The first of the best -/

/-- An argument that is chosen as the first of the best, going by the rounded integers; `le a b`
says that `b` is no better than `a`. -/
structure Chosen (le : ℤ → ℤ → Prop) (ns : List Int64) (n : Int64) : Prop where
  mem : n ∈ ns
  best : ∀ m ∈ ns, le (rounded n.toInt) (rounded m.toInt)
  first : ∀ m ∈ ns, rounded m.toInt = rounded n.toInt → ns.idxOf n ≤ ns.idxOf m

/-- The best of the integers themselves stands before all others that round as it does. -/
def BestLeads (le : ℤ → ℤ → Prop) (ns : List Int64) : Prop :=
  ∃ n ∈ ns, (∀ m ∈ ns, le n.toInt m.toInt) ∧
    ∀ m ∈ ns, rounded m.toInt = rounded n.toInt → ns.idxOf n ≤ ns.idxOf m

section Chosen

variable {le : ℤ → ℤ → Prop} {ns : List Int64} {n : Int64}

/-- What is chosen is the best one just where rounding hides none that is better. -/
theorem Chosen.best_iff [Std.Antisymm le] (hrounded : ∀ a b, le a b → le (rounded a) (rounded b))
    (h : Chosen le ns n) : (∀ m ∈ ns, le n.toInt m.toInt) ↔ BestLeads le ns := by
  constructor
  · intro hbest
    exact ⟨n, h.mem, hbest, h.first⟩
  · rintro ⟨b, hmem, hbest, hfirst⟩
    have hround : rounded b.toInt = rounded n.toInt :=
      antisymm (hrounded _ _ (hbest n h.mem)) (h.best b hmem)
    have hplace : ns.idxOf n = ns.idxOf b :=
      (h.first b hmem hround).antisymm (hfirst n h.mem hround.symm)
    rwa [(List.idxOf_inj h.mem).1 hplace]

/-- Small integers are what they round to. -/
theorem Chosen.bestLeads_of_small (h : Chosen le ns n) (hsmall : ∀ m ∈ ns, |m.toInt| ≤ 2 ^ 53) :
    BestLeads le ns := by
  refine ⟨n, h.mem, fun m hm => ?_, h.first⟩
  have hbest := h.best m hm
  rwa [rounded_of_small (hsmall n h.mem), rounded_of_small (hsmall m hm)] at hbest

theorem chosen_of_argmin (h : ns.argmin (fun m => rounded m.toInt) = some n) :
    Chosen (· ≤ ·) ns n := by
  obtain ⟨hmem, hbest, hfirst⟩ := List.argmin_eq_some_iff.1 h
  exact ⟨hmem, hbest, fun m hm hround => hfirst m hm hround.le⟩

theorem chosen_of_argmax (h : ns.argmax (fun m => rounded m.toInt) = some n) :
    Chosen (· ≥ ·) ns n := by
  obtain ⟨hmem, hbest, hfirst⟩ := List.argmax_eq_some_iff.1 h
  exact ⟨hmem, hbest, fun m hm hround => hfirst m hm hround.ge⟩

end Chosen

/-! ## Extrema -/

section Extremum

variable {α : Type} [LinearOrder α] (better : Float → Float → Bool) (f : Int64 → α)

/-- Going through integers is a search for the least one by `f`. -/
theorem extremumFrom_integers
    (hbetter : ∀ a b, better (realOfInteger a) (realOfInteger b) = true ↔ f a < f b)
    (best : Int64) (ns : List Int64) :
    ∃ n, extremumFrom better (.integer best) (realOfInteger best) (ns.map .integer) =
        .ok (.integer n) ∧
      ns.foldl (List.argAux fun a b => f a < f b) (some best) = some n := by
  induction ns generalizing best with
  | nil => exact ⟨best, rfl, rfl⟩
  | cons m ns ih =>
    rw [List.map_cons, extremumFrom, number?, List.foldl_cons, List.argAux]
    dsimp only
    by_cases hlt : f m < f best
    · rw [if_pos ((hbetter m best).2 hlt), if_pos hlt]
      exact ih m
    · rw [if_neg (mt (hbetter m best).1 hlt), if_neg hlt]
      exact ih best

theorem extremum_integers (func : Bytes)
    (hbetter : ∀ a b, better (realOfInteger a) (realOfInteger b) = true ↔ f a < f b)
    {ns : List Int64} (hns : ns ≠ []) (scope : Option Nat) (forest : Forest) (host : Host) :
    ∃ n, extremum func better (ns.map .integer) scope forest host =
        (.ok (.integer n), forest, host) ∧ ns.argmin f = some n := by
  cases ns with
  | nil => exact absurd rfl hns
  | cons m ns =>
    obtain ⟨n, hanswer, hleast⟩ := extremumFrom_integers better f hbetter m ns
    refine ⟨n, ?_, hleast⟩
    rw [extremum, ofPure, List.map_cons]
    dsimp only [number?]
    rw [hanswer]
    rfl

end Extremum

/-- **`min` and `max` of integers are exact up to rounding.** They answer one of their arguments,
unchanged, and touch nothing: the first of those whose rounding is the least or the greatest. That
is the least or the greatest argument itself if and only if no other one that rounds alike stands
before it. Up to `2 ^ 53` this is always so. -/
theorem min_max_integers {ns : List Int64} (hns : ns ≠ []) (scope : Option Nat) (forest : Forest)
    (host : Host) :
    (∃ n, FunctionTable.standard.invoke ⟨"min", ns.map .integer, scope⟩ forest host =
        (.ok (.integer n), forest, host) ∧ Chosen (· ≤ ·) ns n ∧
        ((∀ m ∈ ns, n.toInt ≤ m.toInt) ↔ BestLeads (· ≤ ·) ns)) ∧
      (∃ n, FunctionTable.standard.invoke ⟨"max", ns.map .integer, scope⟩ forest host =
        (.ok (.integer n), forest, host) ∧ Chosen (· ≥ ·) ns n ∧
        ((∀ m ∈ ns, n.toInt ≥ m.toInt) ↔ BestLeads (· ≥ ·) ns)) ∧
      ((∀ m ∈ ns, |m.toInt| ≤ 2 ^ 53) → BestLeads (· ≤ ·) ns ∧ BestLeads (· ≥ ·) ns) := by
  obtain ⟨lo, hlo, hleast⟩ := extremum_integers (fun a b => a < b) (fun m => rounded m.toInt)
    "min" (fun a b => by rw [decide_eq_true_iff, realOfInteger_lt_iff]) hns scope forest host
  obtain ⟨hi, hhi, hgreatest⟩ := extremum_integers (fun a b => a > b)
    (fun m => OrderDual.toDual (rounded m.toInt)) "max"
    (fun a b => by rw [decide_eq_true_iff, gt_iff_lt, realOfInteger_lt_iff,
      OrderDual.toDual_lt_toDual]) hns scope forest host
  have hchosenLo := chosen_of_argmin hleast
  have hchosenHi := chosen_of_argmax hgreatest
  refine ⟨⟨lo, hlo, hchosenLo, ?_⟩, ⟨hi, hhi, hchosenHi, ?_⟩, fun hsmall => ⟨?_, ?_⟩⟩
  · exact hchosenLo.best_iff fun _ _ hle => rounded_mono hle
  · exact hchosenHi.best_iff fun _ _ hle => rounded_mono hle
  · exact hchosenLo.bestLeads_of_small hsmall
  · exact hchosenHi.bestLeads_of_small hsmall

/-- Neighbours beyond `2 ^ 53` that come in order. -/
theorem min_max_integers_neighbours :
    [9007199254740992, 9007199254740993] ≠ ([] : List Int64) ∧
      ∃ n, FunctionTable.standard.invoke
        ⟨"min", [.integer 9007199254740992, .integer 9007199254740993], some 0⟩ .root {} =
          (.ok (.integer n), .root, {}) ∧
        ∀ m ∈ ([9007199254740992, 9007199254740993] : List Int64), n.toInt ≤ m.toInt := by
  have hne : [9007199254740992, 9007199254740993] ≠ ([] : List Int64) := List.cons_ne_nil _ _
  obtain ⟨⟨n, hanswer, -, hbest⟩, -⟩ := min_max_integers hne (some 0) .root {}
  refine ⟨hne, n, hanswer, hbest.2 ⟨9007199254740992, List.mem_cons_self, ?_, ?_⟩⟩
  · intro m hm
    rcases List.mem_cons.1 hm with rfl | hm
    · exact le_rfl
    · rw [List.mem_singleton.1 hm]
      decide
  · intro m _ _
    rw [List.idxOf_cons_self]
    exact Nat.zero_le _

/-- Neighbours beyond `2 ^ 53` that do not: the first of them is the answer to both. -/
theorem min_neighbours_rounded :
    FunctionTable.standard.invoke
        ⟨"min", [.integer 9007199254740993, .integer 9007199254740992], some 0⟩ .root {} =
          (.ok (.integer 9007199254740993), .root, {}) ∧
      ¬ (9007199254740993 : Int64).toInt ≤ (9007199254740992 : Int64).toInt := by
  exact ⟨rfl, by decide⟩

/-! ## Absolute values -/

/-- The sign of an integer can be turned but for the lowest one. -/
theorem toInt_absolute_iff (n : Int64) :
    (if n < 0 then -n else n).toInt = |n.toInt| ↔ n ≠ Int64.minValue := by
  have hn := toInt_bounds n
  have hneg := Int64.toInt_neg n
  rw [Int.bmod_def] at hneg
  rw [ne_eq, ← Int64.toInt_inj, Int64.toInt_minValue, Int.abs_eq_natAbs]
  split
  · next hlt =>
    rw [Int64.lt_iff_toInt_lt, Int64.toInt_zero] at hlt
    omega
  · next hge =>
    rw [Int64.lt_iff_toInt_lt, Int64.toInt_zero] at hge
    omega

/-- **`abs` is the operator `-` on all negative integers but the lowest one.** Integers that are not
negative are their own absolute values. The lowest integer is the one that `abs` answers with a
negative number. -/
theorem abs_integers (n : Int64) (scope : Option Nat) (forest : Forest) (host : Host) :
    ∃ m, FunctionTable.standard.invoke ⟨"abs", [.integer n], scope⟩ forest host =
        (.ok (.integer m), forest, host) ∧
      (0 ≤ n → m = n) ∧
      (n < 0 → (apply .sub (.integer 0) (.integer n) = .ok (.integer m) ↔ n ≠ Int64.minValue)) ∧
      (0 ≤ m ↔ n ≠ Int64.minValue) := by
  refine ⟨if n < 0 then -n else n, rfl, fun hge => ?_, fun hlt => ?_, ?_⟩
  · exact if_neg (Int64.not_lt.2 hge)
  · rw [apply_integers, combineIntegers_sub, ← toInt_absolute_iff]
    rw [Int64.lt_iff_toInt_lt, Int64.toInt_zero] at hlt
    rw [Int64.toInt_zero, zero_sub, abs_of_neg hlt, eq_comm]
  · constructor
    · rintro hge rfl
      exact absurd hge (by decide)
    · intro hne
      rw [zero_le_iff, (toInt_absolute_iff n).2 hne]
      exact abs_nonneg _

/-- The lowest integer: `abs` wraps around, the operator goes over to the real `2 ^ 63`. -/
theorem abs_minValue_wraps :
    FunctionTable.standard.invoke ⟨"abs", [.integer Int64.minValue], some 0⟩ .root {} =
        (.ok (.integer Int64.minValue), .root, {}) ∧
      Int64.minValue < 0 ∧
      apply .sub (.integer 0) (.integer Int64.minValue) =
        .ok (.real (Float.ofBits 0x43E0000000000000)) := by
  exact ⟨rfl, by decide, rfl⟩

end Function
end ChartScript
