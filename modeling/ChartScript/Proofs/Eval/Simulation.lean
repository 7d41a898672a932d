import ChartScript.Eval.Script

/-!
# Ways to speak about a run

A step of evaluation takes a state to a state and an answer, and steps are put together with `bind`.
Everything said about whole runs is said about steps first and then put together in the same way.
There are four forms of it:

- `Fails x`: from no state does `x` give a value. It is enough that one part of `x` fails.
- `Simulates R x y`: from states related by `R`, the steps `x` and `y` give the same answer and
  states related by `R`. The two may run on states of different types.
- `Repeats R x y`: where `x` gives a value, `y` gives the same from states related by `R`. Nothing
  is said of failures, so the two may fail with different errors.
- `Moves R x`: whatever `x` answers, it takes a state only to states that `R` relates to it.
-/

set_option autoImplicit false

namespace ChartScript

/-- A step that may fail and keeps its effects when it does. -/
abbrev Step (S E α : Type) : Type := ExceptT E (StateM S) α

namespace Step

variable {S T E α β : Type}

/-- The answer of a step and the state after it. -/
def on (x : Step S E α) (s : S) : Except E α × S := x.run.run s

@[simp] theorem on_get (s : S) : on (get : Step S E S) s = (.ok s, s) := rfl

@[simp] theorem on_set (s' s : S) : on (set s' : Step S E PUnit) s = (.ok ⟨⟩, s') := rfl

@[simp] theorem on_modify (f : S → S) (s : S) :
    on (modify f : Step S E PUnit) s = (.ok ⟨⟩, f s) := rfl

/-- A step after a step: it is reached with the answer of the first one, if there is one. -/
theorem on_bind (x : Step S E α) (f : α → Step S E β) (s : S) :
    on (x >>= f) s =
      match on x s with
      | (.ok a, s') => on (f a) s'
      | (.error e, s') => (.error e, s') := by
  simp only [on, ExceptT.run_bind, StateT.run_bind]
  cases x.run.run s with
  | mk answer s' => cases answer <;> rfl

theorem on_bind_ok {x : Step S E α} {s s' : S} {a : α} (h : on x s = (.ok a, s'))
    (f : α → Step S E β) : on (x >>= f) s = on (f a) s' := by
  rw [on_bind, h]

theorem on_bind_error {x : Step S E α} {s s' : S} {e : E} (h : on x s = (.error e, s'))
    (f : α → Step S E β) : on (x >>= f) s = (.error e, s') := by
  rw [on_bind, h]

/-- A computation without errors after another one. -/
theorem run_bind (x : StateM S α) (f : α → StateM S β) (s : S) :
    (x >>= f).run s = (f (x.run s).1).run (x.run s).2 := rfl

/-! ## Failure -/

/-- A step that has no value, whatever the state. -/
def Fails (x : Step S E α) : Prop := ∀ s, ∃ e s', on x s = (.error e, s')

theorem Fails.bind_left {x : Step S E α} (h : Fails x) (f : α → Step S E β) : Fails (x >>= f) := by
  intro s
  obtain ⟨e, s', hx⟩ := h s
  exact ⟨e, s', on_bind_error hx f⟩

theorem Fails.bind_right (x : Step S E α) {f : α → Step S E β} (h : ∀ a, Fails (f a)) :
    Fails (x >>= f) := by
  intro s
  cases hx : on x s with
  | mk answer s' =>
    cases answer with
    | error e => exact ⟨e, s', on_bind_error hx f⟩
    | ok a =>
      rw [on_bind_ok hx]
      exact h a s'

/-! ## Simulation -/

/-- Both steps answer alike and keep the relation between their states. -/
def Simulates (R : S → T → Prop) (x : Step S E α) (y : Step T E α) : Prop :=
  ∀ s t, R s t → (on x s).1 = (on y t).1 ∧ R (on x s).2 (on y t).2

/-- Both steps fail alike or give the same value. -/
theorem Simulates.cases {R : S → T → Prop} {x : Step S E α} {y : Step T E α}
    (h : Simulates R x y) {s : S} {t : T} (hst : R s t) :
    (∃ e s' t', on x s = (.error e, s') ∧ on y t = (.error e, t') ∧ R s' t') ∨
      ∃ a s' t', on x s = (.ok a, s') ∧ on y t = (.ok a, t') ∧ R s' t' := by
  obtain ⟨hans, hrel⟩ := h s t hst
  cases hs : on x s with
  | mk answer s' =>
    cases ht : on y t with
    | mk answer' t' =>
      rw [hs, ht] at hans hrel
      obtain rfl : answer = answer' := hans
      cases answer with
      | error e => exact .inl ⟨e, s', t', rfl, rfl, hrel⟩
      | ok a => exact .inr ⟨a, s', t', rfl, rfl, hrel⟩

theorem Simulates.pure {R : S → T → Prop} (a : α) :
    Simulates R (Pure.pure a : Step S E α) (Pure.pure a : Step T E α) :=
  fun _ _ h => ⟨rfl, h⟩

theorem Simulates.throw {R : S → T → Prop} (e : E) :
    Simulates R (MonadExcept.throw e : Step S E α) (MonadExcept.throw e : Step T E α) :=
  fun _ _ h => ⟨rfl, h⟩

theorem Simulates.bind {R : S → T → Prop} {x : Step S E α} {y : Step T E α}
    {f : α → Step S E β} {g : α → Step T E β} (hx : Simulates R x y)
    (hf : ∀ a, Simulates R (f a) (g a)) : Simulates R (x >>= f) (y >>= g) := by
  intro s t h
  rcases hx.cases h with ⟨e, s', t', hs, ht, hrel⟩ | ⟨a, s', t', hs, ht, hrel⟩
  · rw [on_bind_error hs, on_bind_error ht]
    exact ⟨rfl, hrel⟩
  · rw [on_bind_ok hs, on_bind_ok ht]
    exact hf a s' t' hrel

/-! ## Repetition -/

/-- What the first step does without an error, the second one does as well. -/
def Repeats (R : S → T → Prop) (x : Step S E α) (y : Step T E α) : Prop :=
  ∀ s t, R s t → ∀ a s', on x s = (.ok a, s') → ∃ t', on y t = (.ok a, t') ∧ R s' t'

theorem Repeats.pure {R : S → T → Prop} (a : α) :
    Repeats R (Pure.pure a : Step S E α) (Pure.pure a : Step T E α) := by
  intro s t h b s' hs
  cases hs
  exact ⟨t, rfl, h⟩

/-- A step with a value is made of two steps with a value. -/
theorem on_bind_eq_ok {x : Step S E α} {f : α → Step S E β} {s s' : S} {b : β}
    (h : on (x >>= f) s = (.ok b, s')) :
    ∃ a s₁, on x s = (.ok a, s₁) ∧ on (f a) s₁ = (.ok b, s') := by
  cases hx : on x s with
  | mk answer s₁ =>
    cases answer with
    | error e =>
      rw [on_bind_error hx] at h
      cases h
    | ok a =>
      rw [on_bind_ok hx] at h
      exact ⟨a, s₁, rfl, h⟩

theorem Repeats.bind {R : S → T → Prop} {x : Step S E α} {y : Step T E α}
    {f : α → Step S E β} {g : α → Step T E β} (hx : Repeats R x y)
    (hf : ∀ a, Repeats R (f a) (g a)) : Repeats R (x >>= f) (y >>= g) := by
  intro s t h b s' hs
  obtain ⟨a, s₁, hx₁, hf₁⟩ := on_bind_eq_ok hs
  obtain ⟨t₁, hy, h₁⟩ := hx s t h a s₁ hx₁
  obtain ⟨t', hg, h'⟩ := hf a s₁ t₁ h₁ b s' hf₁
  exact ⟨t', by rw [on_bind_ok hy, hg], h'⟩

/-! ## Effects -/

/-- A step takes a state only to states related to it. -/
def Moves (R : S → S → Prop) (x : Step S E α) : Prop := ∀ s, R s (on x s).2

end Step
end ChartScript
