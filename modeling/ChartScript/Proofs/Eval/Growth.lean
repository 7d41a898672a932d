import ChartScript.Function.Observation
import ChartScript.Proofs.Eval.Acts
import ChartScript.Proofs.Eval.Agreement

/-!
# Worlds only grow

The standard functions print behind what was printed before, and an entry is logged behind those
before it. So the world after a run begins with the world before it, and what was printed and logged
in a sequence of runs is what was printed and logged in each of them, one after the other.
-/

set_option autoImplicit false

namespace ChartScript

namespace Function

/-- A function that takes back nothing of what was printed. -/
def Prints (fn : Function) : Prop :=
  ∀ args scope f h, h.printed <+: (fn args scope f h).2.2.printed

theorem prints_ofPure (g : List Value → Except CallError Value) : (ofPure g).Prints :=
  fun _ _ _ _ => List.prefix_rfl

theorem prints_print : print.Prints := by
  intro args scope f h
  unfold print
  dsimp only
  rw [List.append_assoc]
  exact List.prefix_append _ _

theorem prints_property : property.Prints := fun _ _ _ _ => List.prefix_rfl

theorem prints_chart : chart.Prints := by
  intro args scope f h
  unfold chart
  split
  · exact List.prefix_rfl
  · cases scope <;> exact List.prefix_rfl
  · exact List.prefix_rfl

theorem prints_setProperty : setProperty.Prints := by
  intro args scope f h
  unfold setProperty
  split
  · cases scope <;> exact List.prefix_rfl
  · exact List.prefix_rfl
  · exact List.prefix_rfl

end Function

theorem FunctionTable.prints_invoke (call : Call) (f : Forest) (h : Host) :
    h.printed <+: (standard.invoke call f h).2.2.printed := by
  unfold invoke
  cases hget : standard.get? call.name with
  | none => exact List.prefix_rfl
  | some fn =>
    have hfn : fn.Prints := standard_forall Function.prints_print Function.prints_chart
      Function.prints_property Function.prints_setProperty Function.prints_ofPure hget
    exact hfn call.args call.scope f h

namespace World

/-- What was printed and logged in a world is the beginning of what was in a later one. -/
structure Grows (w w' : World Host) : Prop where
  printed : w.host.printed <+: w'.host.printed
  entries : w.entries <+: w'.entries

namespace Grows

theorem refl (w : World Host) : w.Grows w := ⟨List.prefix_rfl, List.prefix_rfl⟩

variable {a b c : World Host}

theorem trans (h : a.Grows b) (h' : b.Grows c) : a.Grows c :=
  ⟨h.printed.trans h'.printed, h.entries.trans h'.entries⟩

theorem printedSince (h : a.Grows b) (h' : b.Grows c) :
    c.printedSince a = b.printedSince a ++ c.printedSince b := by
  obtain ⟨first, hfirst⟩ := h.printed
  obtain ⟨second, hsecond⟩ := h'.printed
  unfold World.printedSince
  rw [← hsecond, List.drop_left, ← hfirst, List.append_assoc, List.drop_left, List.drop_left]

theorem entriesSince (h : a.Grows b) (h' : b.Grows c) :
    c.entriesSince a = b.entriesSince a ++ c.entriesSince b := by
  obtain ⟨first, hfirst⟩ := h.entries
  obtain ⟨second, hsecond⟩ := h'.entries
  unfold World.entriesSince
  rw [← hsecond, List.drop_left, ← hfirst, List.append_assoc, List.drop_left, List.drop_left]

end Grows

theorem printedSince_self (w : World Host) : w.printedSince w = [] := List.drop_length

theorem entriesSince_self (w : World Host) : w.entriesSince w = [] := List.drop_length

/-- What acts leave in the trace goes behind what was there. -/
theorem entries_after (w : World Host) (ev : Evaluator Host) (acts : List Act) :
    w.entries <+: (w.after ev acts).entries := by
  unfold entries after
  dsimp only
  rw [List.filterMap_append]
  exact List.prefix_append _ _

end World

/-- On a trail of calls of standard functions nothing is taken back that was printed. -/
theorem Trail.printed {ev : Evaluator Host} (hev : ev.IsStandard) {a b : Forest × Host}
    {stmts : List Statement} (h : Trail ev a stmts b) : a.2.printed <+: b.2.printed := by
  refine h.keeps (R := fun a b => a.2.printed <+: b.2.printed) (fun _ => List.prefix_rfl) ?_
    (fun _ _ _ _ => List.prefix_rfl) ?_ (fun _ _ _ => List.prefix_rfl)
  · intro a b c hab hbc
    exact hab.trans hbc
  · intro d hd name args f h
    obtain rfl : FunctionTable.standard.dispatcher = d := Option.some.inj (hev.symm.trans hd)
    exact FunctionTable.prints_invoke _ f h

/-- **A run makes the world grow.** -/
theorem Evaluator.evalSource_grows {ev : Evaluator Host} (hev : ev.IsStandard) (source : Bytes)
    (w : World Host) : w.Grows ((ev.evalSource source).run w).2 := by
  refine ⟨(ev.evalSource_trail source w).printed hev, ?_⟩
  obtain ⟨out, acts, hacts⟩ := ev.evalSource_acts source w.state
  have hrun : (ev.evalSource source).run w = (out, w.after ev acts) := hacts.heard ev.logger w rfl
  rw [hrun]
  exact w.entries_after ev acts

end ChartScript
