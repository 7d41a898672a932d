import ChartScript.Function.Standard
import ChartScript.Proofs.Eval.View

/-!
# What functions do to the scopes and see of them

A standard function leaves the scopes as they are, or stores a property from the scope of its call,
or records a chart on it. That is its *footprint*; the rest of what it does is to the host. Only
`setProperty` stores properties, and a function that answers with an error has done nothing: it
*refuses* the call. What a function answers depends on its arguments and on what properties read as
from the scope of its call: it is *blind* to all else, to the host as well.
-/

set_option autoImplicit false

namespace ChartScript

/-- The ways in which a call from scope `i` may change the scopes. -/
inductive Footprint (i : Nat) (f : Forest) : Forest → Prop where
  | none : Footprint i f f
  | property (name : Bytes) (v : Value) : Footprint i f (f.putProperty i name v)
  | chart (c : Chart) : Footprint i f (f.addChart i c)

namespace Function

/-- A function with a footprint. -/
def Leaves (fn : Function) : Prop :=
  ∀ args i f h, Footprint i f (fn args (some i) f h).2.1

theorem leaves_ofPure (g : List Value → Except CallError Value) : (ofPure g).Leaves :=
  fun _ _ _ _ => .none

theorem leaves_print : print.Leaves := fun _ _ _ _ => .none

theorem leaves_property : property.Leaves := fun _ _ _ _ => .none

theorem leaves_chart : chart.Leaves := by
  intro args i f h
  unfold chart
  split
  · exact .none
  · exact .chart _
  · exact .none

theorem leaves_setProperty : setProperty.Leaves := by
  intro args i f h
  unfold setProperty
  split
  · exact .property _ _
  · exact .none
  · exact .none

end Function

/-! ## Refusals -/

namespace Function

/-- A function that leaves all names alone: at most it records a chart. -/
def SparesNames (fn : Function) : Prop :=
  ∀ args i f h, (fn args (some i) f h).2.1 = f ∨ ∃ c, (fn args (some i) f h).2.1 = f.addChart i c

theorem sparesNames_ofPure (g : List Value → Except CallError Value) : (ofPure g).SparesNames :=
  fun _ _ _ _ => .inl rfl

theorem sparesNames_print : print.SparesNames := fun _ _ _ _ => .inl rfl

theorem sparesNames_property : property.SparesNames := fun _ _ _ _ => .inl rfl

theorem sparesNames_chart : chart.SparesNames := by
  intro args i f h
  unfold chart
  split
  · exact .inl rfl
  · exact .inr ⟨_, rfl⟩
  · exact .inl rfl

/-- A function that has done nothing when it answers with an error, wherever it is called. -/
def Refuses (fn : Function) : Prop :=
  ∀ args scope f h e, (fn args scope f h).1 = .error e → (fn args scope f h).2 = (f, h)

theorem refuses_ofPure (g : List Value → Except CallError Value) : (ofPure g).Refuses :=
  fun _ _ _ _ _ _ => rfl

theorem refuses_print : print.Refuses := by
  intro args scope f h e herror
  cases herror

theorem refuses_property : property.Refuses := fun _ _ _ _ _ _ => rfl

theorem refuses_chart : chart.Refuses := by
  intro args scope f h e herror
  unfold chart at herror ⊢
  split at herror
  · rfl
  · cases scope with
    | none => rfl
    | some i => cases herror
  · rfl

theorem refuses_setProperty : setProperty.Refuses := by
  intro args scope f h e herror
  unfold setProperty at herror ⊢
  split at herror
  · cases scope with
    | none => rfl
    | some i => cases herror
  · rfl
  · rfl

end Function

/-! ## Blindness -/

namespace Function

open Forest

/-- A function that answers calls from alike scopes alike, and leaves the scopes alike. -/
def Blind (fn : Function) : Prop :=
  ∀ args {f f' : Forest} {i i' : Nat} (h h' : Host), Alike f i f' i' →
    (fn args (some i) f h).1 = (fn args (some i') f' h').1 ∧
    Alike (fn args (some i) f h).2.1 i (fn args (some i') f' h').2.1 i'

theorem blind_ofPure (g : List Value → Except CallError Value) : (ofPure g).Blind :=
  fun _ _ _ _ _ _ _ halike => ⟨rfl, halike⟩

theorem blind_print : print.Blind := fun _ _ _ _ _ _ _ halike => ⟨rfl, halike⟩

/-- The identity of a chart is not part of the answer. -/
theorem blind_chart : chart.Blind := by
  intro args f f' i i' h h' halike
  unfold chart
  split
  · exact ⟨rfl, halike⟩
  · exact ⟨rfl, halike.record (fun field hfield s => table_addChart hfield _ s)
      (fun field hfield s => table_addChart hfield _ s)⟩
  · exact ⟨rfl, halike⟩

theorem blind_property : property.Blind := by
  intro args f f' i i' h h' halike
  refine ⟨?_, halike⟩
  simp only [property, Option.bind_some, halike.property?]

theorem blind_setProperty : setProperty.Blind := by
  intro args f f' i i' h h' halike
  unfold setProperty
  split
  · exact ⟨rfl, halike.put propertyField_mem _ _⟩
  · exact ⟨rfl, halike⟩
  · exact ⟨rfl, halike⟩

end Function

/-! ## The standard table -/

namespace FunctionTable

/-- What holds of each of the standard functions under its name holds of all functions in the
standard table under theirs. -/
theorem standard_forall_named {P : Bytes → Function → Prop} (print : P "print" Function.print)
    (chart : P "chart" Function.chart) (property : P "property" Function.property)
    (setProperty : P "setProperty" Function.setProperty) (pure : ∀ name g, P name (.ofPure g))
    {name : Bytes} {fn : Function} (h : standard.get? name = some fn) : P name fn := by
  have hmem := Table.mem_of_get?_ofList h
  simp only [List.mem_cons, Prod.mk.injEq, List.not_mem_nil, or_false] at hmem
  rcases hmem with ⟨rfl, rfl⟩ | ⟨rfl, rfl⟩ | ⟨rfl, rfl⟩ | ⟨rfl, rfl⟩ | ⟨rfl, rfl⟩ | ⟨rfl, rfl⟩ |
    ⟨rfl, rfl⟩ | ⟨rfl, rfl⟩ | ⟨rfl, rfl⟩ | ⟨rfl, rfl⟩
  · exact print
  · exact chart
  · exact property
  · exact setProperty
  all_goals exact pure _ _

/-- What holds of each of the standard functions holds of all functions in the standard table. -/
theorem standard_forall {P : Function → Prop} (print : P Function.print) (chart : P Function.chart)
    (property : P Function.property) (setProperty : P Function.setProperty)
    (pure : ∀ g, P (.ofPure g)) {name : Bytes} {fn : Function}
    (h : standard.get? name = some fn) : P fn :=
  standard_forall_named (P := fun _ => P) print chart property setProperty (fun _ => pure) h

theorem footprint_invoke (name : Bytes) (args : List Value) (i : Nat) (f : Forest) (h : Host) :
    Footprint i f (standard.invoke ⟨name, args, some i⟩ f h).2.1 := by
  unfold invoke
  cases hget : standard.get? name with
  | none => exact .none
  | some fn =>
    have hfn : fn.Leaves := standard_forall Function.leaves_print Function.leaves_chart
      Function.leaves_property Function.leaves_setProperty Function.leaves_ofPure hget
    exact hfn args i f h

/-- A call of any other name than `setProperty` leaves all names alone. -/
theorem invoke_sparesNames {name : Bytes} (hname : name ≠ "setProperty") (args : List Value)
    (i : Nat) (f : Forest) (h : Host) :
    (standard.invoke ⟨name, args, some i⟩ f h).2.1 = f ∨
      ∃ c, (standard.invoke ⟨name, args, some i⟩ f h).2.1 = f.addChart i c := by
  unfold invoke
  cases hget : standard.get? name with
  | none => exact .inl rfl
  | some fn =>
    have hfn : name ≠ "setProperty" → fn.SparesNames :=
      standard_forall_named (P := fun name fn => name ≠ "setProperty" → fn.SparesNames)
        (fun _ => Function.sparesNames_print) (fun _ => Function.sparesNames_chart)
        (fun _ => Function.sparesNames_property) (fun hne => absurd rfl hne)
        (fun _ g _ => Function.sparesNames_ofPure g) hget
    exact hfn hname args i f h

/-- **A call that is answered with an error has done nothing**: not to the scopes, and neither has
it printed. -/
theorem invoke_refuses {call : Call} {f : Forest} {h : Host} {e : CallError}
    (herror : (standard.invoke call f h).1 = .error e) :
    (standard.invoke call f h).2 = (f, h) := by
  unfold invoke at herror ⊢
  cases hget : standard.get? call.name with
  | none => rfl
  | some fn =>
    have hfn : fn.Refuses := standard_forall Function.refuses_print Function.refuses_chart
      Function.refuses_property Function.refuses_setProperty Function.refuses_ofPure hget
    rw [hget] at herror
    exact hfn call.args call.scope f h e herror

theorem blind_standard : standard.dispatcher.Blind := by
  intro name args f f' i i' h h' halike
  unfold dispatcher invoke
  dsimp only
  cases hget : standard.get? name with
  | none => exact ⟨rfl, halike⟩
  | some fn =>
    have hfn : fn.Blind := standard_forall Function.blind_print Function.blind_chart
      Function.blind_property Function.blind_setProperty Function.blind_ofPure hget
    exact hfn args h h' halike

end FunctionTable
end ChartScript
