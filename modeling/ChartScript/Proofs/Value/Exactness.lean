import ChartScript.Value.Arithmetic
import Mathlib.Algebra.Order.Field.Rat
import Mathlib.Data.Rat.Lemmas
import Mathlib.Tactic.Linarith

/-!
# Integers are exact

An operator on two integers yields the integer `n` if and only if `n` is its exact result, taken in
the rational numbers (`combineIntegers_eq_integer_iff`). Both directions say something: no result
that wrapped around or lost a remainder is passed off as an integer, and no integer that fits in 64
bits is given up for a real. A real on either side never leads back to an integer
(`apply_eq_integer_iff`). So two integers have one of three outcomes, and the exact result alone says
which (`apply_integers_never_wraps`).

The arithmetic is done on `Int64.toInt`, where wrapping around is `Int.bmod`.
-/

set_option autoImplicit false

namespace ChartScript

/-- The exact result of an operator; a quotient by zero has none. -/
def Operator.rational? (op : Operator) (l r : ℚ) : Option ℚ :=
  match op with
  | .add => some (l + r)
  | .sub => some (l - r)
  | .mul => some (l * r)
  | .div => if r = 0 then none else some (l / r)
  | .unknown => none

namespace Value

/-! ## Numbers of 64 bits -/

theorem toInt_bounds (n : Int64) : -2 ^ 63 ≤ n.toInt ∧ n.toInt < 2 ^ 63 :=
  ⟨n.le_toInt, n.toInt_lt⟩

theorem zero_le_iff (n : Int64) : 0 ≤ n ↔ 0 ≤ n.toInt := by
  rw [Int64.le_iff_toInt_le, Int64.toInt_zero]

theorem eq_zero_iff (n : Int64) : n = 0 ↔ n.toInt = 0 := by
  rw [← Int64.toInt_inj, Int64.toInt_zero]

theorem bmod_of_fits {x : ℤ} (lo : -2 ^ 63 ≤ x) (hi : x < 2 ^ 63) : x.bmod (2 ^ 64) = x :=
  Int.bmod_eq_of_le (by omega) (by omega)

theorem cast_eq_iff (a b : ℤ) : some (a : ℚ) = some (b : ℚ) ↔ a = b := by
  rw [Option.some.injEq, Int.cast_inj]

/-! ## Sums and differences

What wraps around comes out on the wrong side of zero. -/

theorem combineIntegers_add (l r n : Int64) :
    combineIntegers .add l r = .ok (.integer n) ↔ l.toInt + r.toInt = n.toInt := by
  have hl := toInt_bounds l
  have hr := toInt_bounds r
  have hn := toInt_bounds n
  have hsum := Int64.toInt_add l r
  rw [Int.bmod_def] at hsum
  simp only [combineIntegers, zero_le_iff]
  split
  · next h =>
    simp only [decide_eq_decide, ne_eq] at h
    simp only [Except.ok.injEq, reduceCtorEq, false_iff]
    omega
  · next h =>
    simp only [decide_eq_decide, ne_eq] at h
    simp only [Except.ok.injEq, integer.injEq, ← Int64.toInt_inj]
    omega

theorem combineIntegers_sub (l r n : Int64) :
    combineIntegers .sub l r = .ok (.integer n) ↔ l.toInt - r.toInt = n.toInt := by
  have hl := toInt_bounds l
  have hr := toInt_bounds r
  have hn := toInt_bounds n
  have hdifference := Int64.toInt_sub l r
  rw [Int.bmod_def] at hdifference
  simp only [combineIntegers, zero_le_iff]
  split
  · next h =>
    simp only [decide_eq_decide, ne_eq] at h
    simp only [Except.ok.injEq, reduceCtorEq, false_iff]
    omega
  · next h =>
    simp only [decide_eq_decide, ne_eq] at h
    simp only [Except.ok.injEq, integer.injEq, ← Int64.toInt_inj]
    omega

/-! ## Products

A product is tried by dividing it by one factor, which has to give the other one. A product that
wrapped around differs from the true one by a multiple of `2 ^ 64`, and no remainder is as large as
that. -/

/-- The quotient of the test is the other factor itself and not the other factor wrapped around:
that could only happen to `-2 ^ 63` divided by `-1`. -/
theorem tdiv_eq_of_bmod {l r p : ℤ} (hp : -2 ^ 63 ≤ p ∧ p < 2 ^ 63) (hl : l ≠ 0)
    (hmin : ¬ (l = -1 ∧ r = -2 ^ 63)) (h : (p.tdiv l).bmod (2 ^ 64) = r) : p.tdiv l = r := by
  have hle : (p.tdiv l).natAbs ≤ p.natAbs := by
    rw [Int.natAbs_tdiv]
    exact Nat.div_le_self ..
  by_cases hbig : p.tdiv l = 2 ^ 63
  · have hrem := Int.mul_tdiv_add_tmod p l
    have hlt : (p.tmod l).natAbs < l.natAbs := by
      rw [Int.natAbs_tmod]
      exact Nat.mod_lt _ (by omega)
    rw [hbig] at h hrem
    have hr : r = -2 ^ 63 := h.symm.trans (by decide)
    exact absurd ⟨by omega, hr⟩ hmin
  · rwa [bmod_of_fits (by omega) (by omega)] at h

theorem tdiv_bmod_eq_iff {l r : ℤ} (hl : -2 ^ 63 ≤ l ∧ l < 2 ^ 63) (hr : -2 ^ 63 ≤ r ∧ r < 2 ^ 63)
    (hne : l ≠ 0) (hmin : ¬ (l = -1 ∧ r = -2 ^ 63)) :
    (((l * r).bmod (2 ^ 64)).tdiv l).bmod (2 ^ 64) = r ↔ (l * r).bmod (2 ^ 64) = l * r := by
  have hrange : -2 ^ 63 ≤ (l * r).bmod (2 ^ 64) ∧ (l * r).bmod (2 ^ 64) < 2 ^ 63 := by
    rw [Int.bmod_def]
    omega
  have hwrap : (2 ^ 64 : ℤ) ∣ (l * r).bmod (2 ^ 64) - l * r := by
    exact_mod_cast Int.dvd_bmod_sub_self
  generalize (l * r).bmod (2 ^ 64) = p at hrange hwrap ⊢
  constructor
  · intro h
    have hrem := Int.mul_tdiv_add_tmod p l
    rw [tdiv_eq_of_bmod hrange hne hmin h] at hrem
    have hlt : (p.tmod l).natAbs < l.natAbs := by
      rw [Int.natAbs_tmod]
      exact Nat.mod_lt _ (by omega)
    have hzero : p.tmod l = 0 := by
      have hdvd : (2 ^ 64 : ℤ) ∣ p.tmod l := by
        rwa [← hrem, add_sub_cancel_left] at hwrap
      omega
    rw [hzero, add_zero] at hrem
    exact hrem.symm
  · intro h
    rw [h, Int.mul_tdiv_cancel_left r hne]
    exact bmod_of_fits hr.1 hr.2

theorem combineIntegers_mul (l r n : Int64) :
    combineIntegers .mul l r = .ok (.integer n) ↔ l.toInt * r.toInt = n.toInt := by
  have hn := toInt_bounds n
  have hfit : l.toInt * r.toInt = n.toInt →
      (l.toInt * r.toInt).bmod (2 ^ 64) = l.toInt * r.toInt := by
    intro h
    exact bmod_of_fits (by omega) (by omega)
  have hproduct : l * r = n ↔ (l.toInt * r.toInt).bmod (2 ^ 64) = n.toInt := by
    rw [← Int64.toInt_inj, Int64.toInt_mul]
  have hmin : (l = -1 ∧ r = Int64.minValue) ↔ (l.toInt = -1 ∧ r.toInt = -2 ^ 63) := by
    rw [← Int64.toInt_inj, ← Int64.toInt_inj, Int64.toInt_minValue]
    exact Iff.rfl
  simp only [combineIntegers, ne_eq, eq_zero_iff, hmin]
  by_cases hl : l.toInt = 0
  · simp [hl, ← Int64.toInt_inj, Int64.toInt_mul]
  by_cases hm : l.toInt = -1 ∧ r.toInt = -2 ^ 63
  · rw [if_pos ⟨hl, .inr hm⟩]
    simp only [Except.ok.injEq, reduceCtorEq, false_iff, hm.1, hm.2]
    omega
  have htest := tdiv_bmod_eq_iff (toInt_bounds l) (toInt_bounds r) hl hm
  rw [← Int64.toInt_mul, ← Int64.toInt_div, Int64.toInt_inj, Int64.toInt_mul] at htest
  by_cases hexact : l * r / l = r
  · have hpass : ¬ (¬ l.toInt = 0 ∧ (¬ l * r / l = r ∨ l.toInt = -1 ∧ r.toInt = -2 ^ 63)) := by
      rintro ⟨-, hbad | hbad⟩
      · exact hbad hexact
      · exact hm hbad
    rw [if_neg hpass, Except.ok.injEq, integer.injEq, hproduct, htest.1 hexact]
  · rw [if_pos ⟨hl, .inl hexact⟩]
    simp only [Except.ok.injEq, reduceCtorEq, false_iff]
    intro h
    exact hexact (htest.2 (hfit h))

/-! ## Quotients -/

/-- A quotient is an integer when there is no remainder. -/
theorem quotient_eq_iff {l r n : ℤ} (hr : r ≠ 0) : (l / r : ℚ) = n ↔ l = n * r := by
  have hr' : (r : ℚ) ≠ 0 := Int.cast_ne_zero.2 hr
  rw [div_eq_iff hr', ← Int.cast_mul, Int.cast_inj]

theorem divideIntegers_eq_integer_iff (l r n : Int64) :
    divideIntegers l r = .ok (.integer n) ↔ r.toInt ≠ 0 ∧ l.toInt = n.toInt * r.toInt := by
  have hl := toInt_bounds l
  have hn := toInt_bounds n
  have hmin : (l = Int64.minValue ∧ r = -1) ↔ (l.toInt = -2 ^ 63 ∧ r.toInt = -1) := by
    rw [← Int64.toInt_inj, ← Int64.toInt_inj, Int64.toInt_minValue]
    exact Iff.rfl
  simp only [divideIntegers, eq_zero_iff, hmin, Int64.toInt_mod]
  by_cases hr : r.toInt = 0
  · simp [hr]
  rw [if_neg hr]
  by_cases hm : l.toInt = -2 ^ 63 ∧ r.toInt = -1
  · rw [if_pos hm]
    simp only [Except.ok.injEq, reduceCtorEq, false_iff, hm.1, hm.2]
    omega
  rw [if_neg hm]
  have hrem := Int.mul_tdiv_add_tmod l.toInt r.toInt
  by_cases hzero : l.toInt.tmod r.toInt = 0
  · -- The quotient is one of 64 bits: only `-2 ^ 63 / -1` is not.
    have hle : (l.toInt.tdiv r.toInt).natAbs ≤ l.toInt.natAbs := by
      rw [Int.natAbs_tdiv]
      exact Nat.div_le_self ..
    rw [hzero, add_zero] at hrem
    have hfits : l.toInt.tdiv r.toInt ≠ 2 ^ 63 := by
      intro hbig
      rw [hbig] at hrem
      exact hm (by omega)
    rw [if_pos hzero, Except.ok.injEq, integer.injEq, ← Int64.toInt_inj, Int64.toInt_div,
      bmod_of_fits (by omega) (by omega)]
    constructor
    · intro h
      rw [h, mul_comm] at hrem
      exact ⟨hr, hrem.symm⟩
    · rintro ⟨-, h⟩
      rw [h, Int.mul_tdiv_cancel _ hr]
  · rw [if_neg hzero]
    simp only [Except.ok.injEq, reduceCtorEq, false_iff, not_and]
    rintro - h
    rw [h, Int.mul_tmod_left] at hzero
    exact hzero rfl

/-! ## All operators -/

/-- **An operator on integers yields an integer exactly when its exact result is that integer.** -/
theorem combineIntegers_eq_integer_iff (op : Operator) (l r n : Int64) :
    combineIntegers op l r = .ok (.integer n) ↔
      op.rational? l.toInt r.toInt = some (n.toInt : ℚ) := by
  cases op with
  | add => rw [combineIntegers_add, Operator.rational?, ← Int.cast_add, cast_eq_iff]
  | sub => rw [combineIntegers_sub, Operator.rational?, ← Int.cast_sub, cast_eq_iff]
  | mul => rw [combineIntegers_mul, Operator.rational?, ← Int.cast_mul, cast_eq_iff]
  | div =>
    rw [combineIntegers, divideIntegers_eq_integer_iff, Operator.rational?]
    by_cases hr : r.toInt = 0
    · simp [hr]
    · rw [if_neg (Int.cast_ne_zero.2 hr), Option.some.injEq, quotient_eq_iff hr]
      simp [hr]
  | unknown => simp [combineIntegers, Operator.rational?]

/-- Reals stay reals. -/
theorem combineReals_ne_integer (op : Operator) (x y : Float) (left right : Value) (n : Int64) :
    combineReals op x y left right ≠ .ok (.integer n) := by
  cases op with
  | div =>
    simp only [combineReals]
    split <;> simp
  | _ => simp [combineReals]

/-- **Where an integer comes from**: two integers whose exact result it is. -/
theorem apply_eq_integer_iff (op : Operator) (left right : Value) (n : Int64) :
    apply op left right = .ok (.integer n) ↔
      ∃ l r : Int64, left = .integer l ∧ right = .integer r ∧
        op.rational? l.toInt r.toInt = some (n.toInt : ℚ) := by
  constructor
  · intro h
    have hnumbers : combineNumbers op left right = .ok (.integer n) := by
      unfold apply at h
      split at h
      · cases h
      · cases h
      · exact h
    unfold combineNumbers at hnumbers
    split at hnumbers
    · next l r => exact ⟨l, r, rfl, rfl, (combineIntegers_eq_integer_iff op l r n).1 hnumbers⟩
    · exact absurd hnumbers (combineReals_ne_integer _ _ _ _ _ _)
    · exact absurd hnumbers (combineReals_ne_integer _ _ _ _ _ _)
    · exact absurd hnumbers (combineReals_ne_integer _ _ _ _ _ _)
    · cases hnumbers
  · rintro ⟨l, r, rfl, rfl, h⟩
    have hcombine := (combineIntegers_eq_integer_iff op l r n).2 h
    cases op <;> exact hcombine

/-! ## The three outcomes

Two integers fail to combine only where there is no exact result. Otherwise the exact result itself
decides between an integer and a real: whether it is a whole number of 64 bits. -/

/-- Whole numbers of 64 bits, among the rational ones. -/
def Fits (q : ℚ) : Prop := ∃ z : ℤ, q = z ∧ -2 ^ 63 ≤ z ∧ z ≤ 2 ^ 63 - 1

theorem fits_iff (q : ℚ) : Fits q ↔ ∃ n : Int64, q = (n.toInt : ℚ) := by
  constructor
  · rintro ⟨z, rfl, hlo, hhi⟩
    refine ⟨Int64.ofInt z, ?_⟩
    rw [Int64.toInt_ofInt_of_le hlo (by omega)]
  · rintro ⟨n, rfl⟩
    have hn := toInt_bounds n
    exact ⟨n.toInt, rfl, hn.1, by omega⟩

theorem apply_integers (op : Operator) (l r : Int64) :
    apply op (.integer l) (.integer r) = combineIntegers op l r := by
  cases op <;> rfl

/-- Only a quotient by zero has no exact result. -/
theorem exists_rational {op : Operator} (hop : op ≠ .unknown) {l r : Int64}
    (h : ¬ (op = .div ∧ r = 0)) : ∃ q, op.rational? l.toInt r.toInt = some q := by
  cases op with
  | add => exact ⟨_, rfl⟩
  | sub => exact ⟨_, rfl⟩
  | mul => exact ⟨_, rfl⟩
  | div =>
    have hr : r.toInt ≠ 0 := fun hr => h ⟨rfl, (eq_zero_iff r).2 hr⟩
    exact ⟨_, if_neg (Int.cast_ne_zero.2 hr)⟩
  | unknown => exact absurd rfl hop

theorem combineIntegers_div_zero (l : Int64) :
    combineIntegers .div l 0 = .error (.divideByZero (.integer l) (.integer 0)) := by
  rw [combineIntegers, divideIntegers, if_pos rfl]

/-- An answer that is an integer or a real. -/
def IsNumber (answer : Except OperationError Value) : Prop :=
  (∃ n, answer = .ok (.integer n)) ∨ ∃ x, answer = .ok (.real x)

theorem isNumber_integer (n : Int64) : IsNumber (.ok (.integer n)) := .inl ⟨n, rfl⟩

theorem isNumber_real (x : Float) : IsNumber (.ok (.real x)) := .inr ⟨x, rfl⟩

theorem isNumber_ite {p : Prop} [Decidable p] {a b : Except OperationError Value}
    (ha : IsNumber a) (hb : IsNumber b) : IsNumber (if p then a else b) := by
  split
  · exact ha
  · exact hb

theorem combineIntegers_isNumber {op : Operator} (hop : op ≠ .unknown) {l r : Int64}
    (h : ¬ (op = .div ∧ r = 0)) : IsNumber (combineIntegers op l r) := by
  cases op with
  | add => exact isNumber_ite (isNumber_real _) (isNumber_integer _)
  | sub => exact isNumber_ite (isNumber_real _) (isNumber_integer _)
  | mul => exact isNumber_ite (isNumber_real _) (isNumber_integer _)
  | div =>
    rw [combineIntegers, divideIntegers, if_neg fun hr => h ⟨rfl, hr⟩]
    apply isNumber_ite (isNumber_real _)
    exact isNumber_ite (isNumber_integer _) (isNumber_real _)
  | unknown => exact absurd rfl hop

/-- **Arithmetic on integers never wraps around.** It fails for a zero divisor and for nothing else;
otherwise the answer is an integer if and only if the exact result is one of 64 bits, which is then
the answer, and a real in every other case. -/
theorem apply_integers_never_wraps {op : Operator} (hop : op ≠ .unknown) (l r : Int64) :
    (∀ e, apply op (.integer l) (.integer r) = .error e ↔
      op = .div ∧ r = 0 ∧ e = .divideByZero (.integer l) (.integer r)) ∧
    (¬ (op = .div ∧ r = 0) → ∃ q, op.rational? l.toInt r.toInt = some q ∧
      ((∃ n, apply op (.integer l) (.integer r) = .ok (.integer n)) ↔ Fits q) ∧
      (∀ n, apply op (.integer l) (.integer r) = .ok (.integer n) → (n.toInt : ℚ) = q) ∧
      (¬ Fits q → ∃ x, apply op (.integer l) (.integer r) = .ok (.real x))) := by
  rw [apply_integers]
  constructor
  · intro e
    constructor
    · intro he
      by_cases hzero : op = .div ∧ r = 0
      · obtain ⟨rfl, rfl⟩ := hzero
        rw [combineIntegers_div_zero] at he
        exact ⟨rfl, rfl, (Except.error.inj he).symm⟩
      · rcases combineIntegers_isNumber hop hzero with ⟨n, hn⟩ | ⟨x, hx⟩
        · rw [hn] at he
          cases he
        · rw [hx] at he
          cases he
    · rintro ⟨rfl, rfl, rfl⟩
      exact combineIntegers_div_zero l
  · intro hzero
    obtain ⟨q, hq⟩ := exists_rational hop hzero
    have hinteger : ∀ n, combineIntegers op l r = .ok (.integer n) ↔ q = (n.toInt : ℚ) := by
      intro n
      rw [combineIntegers_eq_integer_iff, hq, Option.some.injEq]
    have hfits : (∃ n, combineIntegers op l r = .ok (.integer n)) ↔ Fits q := by
      rw [fits_iff]
      exact exists_congr hinteger
    refine ⟨q, hq, hfits, fun n hn => ((hinteger n).1 hn).symm, fun hno => ?_⟩
    rcases combineIntegers_isNumber hop hzero with hsome | hreal
    · exact absurd (hfits.1 hsome) hno
    · exact hreal

/-- The one quotient of 64-bit integers that is whole and too large. -/
theorem apply_integers_never_wraps_minValue :
    Operator.div ≠ .unknown ∧ ¬ (Operator.div = .div ∧ (-1 : Int64) = 0) ∧
      ∃ x, apply .div (.integer Int64.minValue) (.integer (-1)) = .ok (.real x) := by
  have hop : Operator.div ≠ .unknown := by decide
  have hzero : ¬ (Operator.div = .div ∧ (-1 : Int64) = 0) := by decide
  obtain ⟨q, hq, -, -, hreal⟩ :=
    (apply_integers_never_wraps hop Int64.minValue (-1)).2 hzero
  have hq' : q = ((2 ^ 63 : ℤ) : ℚ) := by
    have hminus : ((-1 : Int64).toInt : ℚ) = -1 := by
      rw [show (-1 : Int64).toInt = -1 by decide]
      norm_num
    rw [Operator.rational?, Int64.toInt_minValue, hminus, if_neg (by norm_num)] at hq
    rw [← Option.some.inj hq]
    norm_num
  refine ⟨hop, hzero, hreal ?_⟩
  rintro ⟨z, hz, -, hhi⟩
  rw [hq', Int.cast_inj] at hz
  omega

end Value
end ChartScript
