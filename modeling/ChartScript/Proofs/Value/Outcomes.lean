import ChartScript.Proofs.Value.Rounding

/-!
# Outcomes of the operators

What an operator answers is settled by the operator, by the types of its operands and by whether the
divisor is zero, in this order: a text on the left of `+` or `-`, operands that are no numbers, a
zero divisor, a real among the operands. `Outcomes` is that table, and `outcomes_apply` says that it
holds for any two values. In a chain of operators the left operand is the answer so far, and a text
or a real never turns into anything else.
-/

set_option autoImplicit false

namespace ChartScript
namespace Value

/-- Integers and reals. -/
def IsNumeric (v : Value) : Prop := v.type? = some .integer ∨ v.type? = some .real

/-- The zero of the integers and the two of the reals. -/
def IsZero (v : Value) : Prop := v = .integer 0 ∨ v = .real 0 ∨ v = .real (-0)

/-- What an operator answers. -/
structure Outcomes (op : Operator) (l r : Value) (answer : Except OperationError Value) : Prop where
  joined : ∀ t, op = .add → l = .text t → answer = .ok (.text (t ++ r.inspect))
  unsupported : ∀ t, op = .sub → l = .text t → answer = .error (.unsupported op l r)
  refused : ¬ (l.type? = some .text ∧ (op = .add ∨ op = .sub)) → ¬ (l.IsNumeric ∧ r.IsNumeric) →
    answer = .error (.operandType op l r)
  dividedByZero : op = .div → l.IsNumeric → r.IsZero → answer = .error (.divideByZero l r)
  real : l.IsNumeric → r.IsNumeric → ¬ (op = .div ∧ r.IsZero) →
    (l.type? = some .real ∨ r.type? = some .real) → ∃ x, answer = .ok (.real x)
  integers : l.type? = some .integer → r.type? = some .integer → ¬ (op = .div ∧ r.IsZero) →
    IsNumber answer
  /-- Every error has the operands it was given, and the operator if it has one. -/
  carries : ∀ e, answer = .error e →
    e = .unsupported op l r ∨ e = .operandType op l r ∨ e = .divideByZero l r

/-! ## Zeros -/

theorem beq_zero_iff (x : Float) : (x == 0) = true ↔ x = 0 ∨ x = -0 := by
  have ne_nan : ∀ {y : Float}, y.toBits ≠ Float.nan.toBits → y ≠ Float.nan := by
    rintro y hbits rfl
    exact hbits rfl
  have hzero : (0 : Float) ≠ Float.nan := ne_nan (by decide +kernel)
  have hminus : (-0 : Float) ≠ Float.nan := ne_nan (by decide +kernel)
  rw [Float.beq_iff_ne_nan_and_eq]
  constructor
  · rintro ⟨-, -, h | ⟨h, -⟩ | ⟨h, -⟩⟩
    · exact .inl h
    · exact .inl h
    · exact .inr h
  · rintro (rfl | rfl)
    · exact ⟨hzero, hzero, .inl rfl⟩
    · exact ⟨hminus, hzero, .inr (.inr ⟨rfl, rfl⟩)⟩

theorem isZero_real (x : Float) : IsZero (.real x) ↔ (x == 0) = true := by
  simp [IsZero, beq_zero_iff]

theorem isZero_integer (n : Int64) : IsZero (.integer n) ↔ n = 0 := by
  simp [IsZero]

/-! ## Operators on reals -/

theorem combineReals_div_zero {y : Float} (h : (y == 0) = true) (x : Float) (l r : Value) :
    combineReals .div x y l r = .error (.divideByZero l r) := by
  rw [combineReals, if_pos h]

theorem combineReals_real {op : Operator} (hop : op ≠ .unknown) {y : Float}
    (h : ¬ (op = .div ∧ (y == 0) = true)) (x : Float) (l r : Value) :
    ∃ z, combineReals op x y l r = .ok (.real z) := by
  cases op with
  | add => exact ⟨_, rfl⟩
  | sub => exact ⟨_, rfl⟩
  | mul => exact ⟨_, rfl⟩
  | div => exact ⟨_, if_neg fun hy => h ⟨rfl, hy⟩⟩
  | unknown => exact absurd rfl hop

/-! ## Operators on numbers -/

theorem isNumeric_iff (v : Value) :
    v.IsNumeric ↔ (∃ n, v = .integer n) ∨ ∃ x, v = .real x := by
  cases v <;> simp [IsNumeric, type?]

theorem apply_numbers (op : Operator) {l r : Value} (hl : l.IsNumeric) :
    apply op l r = combineNumbers op l r := by
  rcases (isNumeric_iff l).1 hl with ⟨n, rfl⟩ | ⟨x, rfl⟩ <;> cases op <;> rfl

/-- With a real on either side the operator works on reals. -/
theorem apply_mixed (op : Operator) {l r : Value} (hl : l.IsNumeric) (hr : r.IsNumeric)
    (hreal : l.type? = some .real ∨ r.type? = some .real) :
    ∃ x y, apply op l r = combineReals op x y l r ∧ (r.IsZero ↔ (y == 0) = true) := by
  rw [apply_numbers op hl]
  rcases (isNumeric_iff l).1 hl with ⟨m, rfl⟩ | ⟨x, rfl⟩
  · rcases (isNumeric_iff r).1 hr with ⟨n, rfl⟩ | ⟨y, rfl⟩
    · simp [type?] at hreal
    · exact ⟨realOfInteger m, y, rfl, isZero_real y⟩
  · rcases (isNumeric_iff r).1 hr with ⟨n, rfl⟩ | ⟨y, rfl⟩
    · refine ⟨x, realOfInteger n, rfl, ?_⟩
      rw [isZero_integer, realOfInteger_beq_zero_iff]
    · exact ⟨x, y, rfl, isZero_real y⟩

/-- The operands of an operator on numbers are two integers, or one of them is a real. -/
theorem integers_or_mixed {l r : Value} (hl : l.IsNumeric) (hr : r.IsNumeric) :
    (∃ m n, l = .integer m ∧ r = .integer n) ∨ l.type? = some .real ∨ r.type? = some .real := by
  rcases (isNumeric_iff l).1 hl with ⟨m, rfl⟩ | ⟨x, rfl⟩
  · rcases (isNumeric_iff r).1 hr with ⟨n, rfl⟩ | ⟨y, rfl⟩
    · exact .inl ⟨m, n, rfl, rfl⟩
    · exact .inr (.inr rfl)
  · exact .inr (.inl rfl)

theorem apply_dividedByZero {l r : Value} (hl : l.IsNumeric) (hr : r.IsZero) :
    apply .div l r = .error (.divideByZero l r) := by
  have hnumeric : r.IsNumeric := by
    rcases hr with rfl | rfl | rfl
    · exact .inl rfl
    · exact .inr rfl
    · exact .inr rfl
  rcases integers_or_mixed hl hnumeric with ⟨m, n, rfl, rfl⟩ | hreal
  · obtain rfl := (isZero_integer n).1 hr
    rw [apply_integers, combineIntegers_div_zero]
  · obtain ⟨x, y, happly, hzero⟩ := apply_mixed .div hl hnumeric hreal
    rw [happly, combineReals_div_zero (hzero.1 hr)]

theorem apply_real {op : Operator} (hop : op ≠ .unknown) {l r : Value} (hl : l.IsNumeric)
    (hr : r.IsNumeric) (hzero : ¬ (op = .div ∧ r.IsZero))
    (hreal : l.type? = some .real ∨ r.type? = some .real) :
    ∃ x, apply op l r = .ok (.real x) := by
  obtain ⟨x, y, happly, hiff⟩ := apply_mixed op hl hr hreal
  rw [happly]
  exact combineReals_real hop (by rwa [← hiff]) x l r

theorem apply_integers_isNumber {op : Operator} (hop : op ≠ .unknown) {l r : Value}
    (hl : l.type? = some .integer) (hr : r.type? = some .integer)
    (hzero : ¬ (op = .div ∧ r.IsZero)) : IsNumber (apply op l r) := by
  rcases integers_or_mixed (.inl hl) (.inl hr) with ⟨m, n, rfl, rfl⟩ | hreal | hreal
  · rw [isZero_integer] at hzero
    rw [apply_integers]
    exact combineIntegers_isNumber hop hzero
  · rw [hl] at hreal
    cases hreal
  · rw [hr] at hreal
    cases hreal

/-! ## Operands that are no numbers -/

theorem exists_text {v : Value} (h : v.type? = some .text) : ∃ t, v = .text t := by
  cases v <;> simp [type?] at h ⊢

theorem combineNumbers_refused (op : Operator) {l r : Value} (h : ¬ (l.IsNumeric ∧ r.IsNumeric)) :
    combineNumbers op l r = .error (.operandType op l r) := by
  unfold combineNumbers
  split
  · exact absurd ⟨.inl rfl, .inl rfl⟩ h
  · exact absurd ⟨.inl rfl, .inr rfl⟩ h
  · exact absurd ⟨.inr rfl, .inl rfl⟩ h
  · exact absurd ⟨.inr rfl, .inr rfl⟩ h
  · rfl

theorem apply_refused {op : Operator} {l r : Value}
    (htext : ¬ (l.type? = some .text ∧ (op = .add ∨ op = .sub)))
    (h : ¬ (l.IsNumeric ∧ r.IsNumeric)) : apply op l r = .error (.operandType op l r) := by
  unfold apply
  split
  · exact absurd ⟨rfl, .inl rfl⟩ htext
  · exact absurd ⟨rfl, .inr rfl⟩ htext
  · exact combineNumbers_refused op h

/-! ## The table and chains -/

theorem isNumber_ne_error {answer : Except OperationError Value} (h : IsNumber answer)
    (e : OperationError) : answer ≠ .error e := by
  rcases h with ⟨n, rfl⟩ | ⟨x, rfl⟩ <;> exact nofun

theorem apply_carries {op : Operator} (hop : op ≠ .unknown) {l r : Value} {e : OperationError}
    (h : apply op l r = .error e) :
    e = .unsupported op l r ∨ e = .operandType op l r ∨ e = .divideByZero l r := by
  by_cases htext : l.type? = some .text ∧ (op = .add ∨ op = .sub)
  · obtain ⟨hl, hop⟩ := htext
    obtain ⟨t, rfl⟩ := exists_text hl
    rcases hop with rfl | rfl
    · cases h
    · cases h
      exact .inl rfl
  by_cases hnumeric : l.IsNumeric ∧ r.IsNumeric
  · obtain ⟨hl, hr⟩ := hnumeric
    by_cases hzero : op = .div ∧ r.IsZero
    · obtain ⟨rfl, hzero⟩ := hzero
      rw [apply_dividedByZero hl hzero] at h
      exact .inr (.inr (Except.error.inj h).symm)
    · rcases integers_or_mixed hl hr with ⟨m, n, rfl, rfl⟩ | hreal
      · exact absurd h (isNumber_ne_error (apply_integers_isNumber hop rfl rfl hzero) e)
      · exact absurd h (isNumber_ne_error (.inr (apply_real hop hl hr hzero hreal)) e)
  · rw [apply_refused htext hnumeric] at h
    exact .inr (.inl (Except.error.inj h).symm)

theorem outcomes_apply {op : Operator} (hop : op ≠ .unknown) (l r : Value) :
    Outcomes op l r (apply op l r) where
  joined := by
    rintro t rfl rfl
    rfl
  unsupported := by
    rintro t rfl rfl
    rfl
  refused := apply_refused
  dividedByZero := by
    rintro rfl hl hr
    exact apply_dividedByZero hl hr
  real := apply_real hop
  integers := apply_integers_isNumber hop
  carries _ := apply_carries hop

theorem apply_unknown (l r : Value) :
    apply .unknown l r = .error (.operandType .unknown l r) := by
  cases l <;> cases r <;> rfl

/-- A text or a real on the left is one in the answer. -/
theorem type?_apply {op : Operator} {l r v : Value} (h : apply op l r = .ok v)
    (hl : l.type? = some .text ∨ l.type? = some .real) : v.type? = l.type? := by
  have hop : op ≠ .unknown := by
    rintro rfl
    rw [apply_unknown] at h
    cases h
  have table := outcomes_apply hop l r
  rcases hl with hl | hl
  · obtain ⟨t, rfl⟩ := exists_text hl
    by_cases hadd : op = .add
    · rw [table.joined t hadd rfl] at h
      cases h
      rfl
    by_cases hsub : op = .sub
    · rw [table.unsupported t hsub rfl] at h
      cases h
    · rw [table.refused (by simp [hadd, hsub]) (by simp [IsNumeric, type?])] at h
      cases h
  · by_cases hr : r.IsNumeric
    · by_cases hzero : op = .div ∧ r.IsZero
      · rw [table.dividedByZero hzero.1 (.inr hl) hzero.2] at h
        cases h
      · obtain ⟨x, hx⟩ := table.real (.inr hl) hr hzero (.inl hl)
        rw [hx] at h
        cases h
        exact hl.symm
    · rw [table.refused (by simp [hl]) fun hboth => hr hboth.2] at h
      cases h

/-- The answer of a chain of operators, each with its right operand. -/
def chain (l : Value) (steps : List (Operator × Value)) : Except OperationError Value :=
  steps.foldlM (fun l step => apply step.1 l step.2) l

theorem chain_cons (l : Value) (op : Operator) (r : Value) (steps : List (Operator × Value)) :
    chain l ((op, r) :: steps) = (apply op l r).bind fun m => chain m steps := rfl

/-- A chain that begins with a text or a real stays one of that type. -/
theorem type?_chain {l v : Value} {steps : List (Operator × Value)} (h : chain l steps = .ok v)
    (hl : l.type? = some .text ∨ l.type? = some .real) : v.type? = l.type? := by
  induction steps generalizing l with
  | nil =>
    cases h
    rfl
  | cons step steps ih =>
    obtain ⟨op, r⟩ := step
    rw [chain_cons] at h
    cases happly : apply op l r with
    | error e =>
      rw [happly] at h
      cases h
    | ok m =>
      rw [happly] at h
      have hkept := type?_apply happly hl
      exact (ih h (by rwa [hkept])).trans hkept

/-- A chain is run by its first part and then, from there, by its second part. -/
theorem chain_append {l v : Value} {before after : List (Operator × Value)}
    (h : chain l (before ++ after) = .ok v) :
    ∃ m, chain l before = .ok m ∧ chain m after = .ok v := by
  rw [chain, List.foldlM_append] at h
  cases hbefore : chain l before with
  | error e =>
    rw [chain] at hbefore
    rw [hbefore] at h
    cases h
  | ok m =>
    rw [chain] at hbefore
    rw [hbefore] at h
    exact ⟨m, rfl, h⟩

/-- **The outcome of an operator can be read off a table**: off the operator, the types of its
operands and whether the divisor is zero. So in a chain of operators that raises no error, an answer
on the way that is a text stays one to the end, and so does one that is a real. -/
theorem operators_outcomes :
    (∀ op, op ≠ .unknown → ∀ l r, Outcomes op l r (apply op l r)) ∧
      ∀ l before after v, chain l (before ++ after) = .ok v → ∃ m, chain l before = .ok m ∧
        (m.type? = some .text → v.type? = some .text) ∧
        (m.type? = some .real → v.type? = some .real) := by
  refine ⟨fun op hop l r => outcomes_apply hop l r, ?_⟩
  intro l before after v h
  obtain ⟨m, hbefore, hafter⟩ := chain_append h
  refine ⟨m, hbefore, fun hm => ?_, fun hm => ?_⟩
  · rw [type?_chain hafter (.inl hm), hm]
  · rw [type?_chain hafter (.inr hm), hm]

/-- A text is no dividend, whatever the divisor is; and `nil` and an integer join it. -/
theorem operators_outcomes_text :
    apply .div (.text "a") (.integer 0) =
        .error (.operandType .div (.text "a") (.integer 0)) ∧
      ∃ v, chain (.text "a") ([(.add, .nil)] ++ [(.add, .integer 3)]) = .ok v ∧
        v.type? = some .text := by
  obtain ⟨htable, hchain⟩ := operators_outcomes
  have hrun : chain (.text "a") ([(.add, .nil)] ++ [(.add, .integer 3)]) = .ok (.text "anil3") := by
    rfl
  obtain ⟨m, hm, htext, -⟩ := hchain _ _ _ _ hrun
  refine ⟨(htable .div (by decide) _ _).refused (by decide) ?_, _, hrun, htext ?_⟩
  · simp [IsNumeric, type?]
  · cases hm
    rfl

end Value
end ChartScript
