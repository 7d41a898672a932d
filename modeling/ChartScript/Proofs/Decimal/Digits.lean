import ChartScript.Decimal.Reading
import ChartScript.Value.Basic
import Mathlib.Algebra.Ring.Int.Defs
import Mathlib.Algebra.Ring.Nat

/-!
# Digits

What a list of digits spells is what the library makes of it (`digitsValue_eq`). An integer is read
if it is a sign and digits that spell a number of 64 bits, and the decimal text of an integer is read
as that integer (`readInteger?_intChars`), down to the lowest one.
-/

set_option autoImplicit false

namespace ChartScript

open Text

/-! ## What digits spell -/

theorem digitsValue_eq (cs : List Char) : digitsValue cs = Nat.ofDigitChars 10 cs 0 := by
  rw [Nat.ofDigitChars_eq_foldl, digitsValue]
  congr 1
  funext n c
  rw [Nat.mul_comm]
  rfl

theorem all_isAsciiDigit_toDigits (n : ℕ) : (Nat.toDigits 10 n).all isAsciiDigit = true :=
  List.all_eq_true.2 fun _ hc => Nat.isDigit_of_mem_toDigits (by decide) (by decide) hc

/-! ## Signs -/

/-- Digits with a minus in front, or with no sign. -/
def signed (negative : Bool) (cs : List Char) : List Char := if negative then '-' :: cs else cs

theorem splitSign_signed (negative : Bool) {c : Char} {cs : List Char}
    (hc : isAsciiDigit c = true) : splitSign (signed negative (c :: cs)) = (negative, c :: cs) := by
  cases negative with
  | true => rfl
  | false =>
    unfold signed splitSign
    split
    · next h => obtain rfl := (List.cons.inj h).1; cases hc
    · next h => obtain rfl := (List.cons.inj h).1; cases hc
    · rfl

theorem mem_signed {negative : Bool} {c : Char} {cs : List Char} (h : c ∈ signed negative cs) :
    c = '-' ∨ c ∈ cs := by
  cases negative with
  | true => exact List.mem_cons.1 h
  | false => exact .inr h

/-! ## Integers -/

/-- An integer is put together from its sign and its size. -/
theorem signed_natAbs (n : ℤ) :
    (if decide (n < 0) = true then -(n.natAbs : ℤ) else n.natAbs) = n := by
  split
  · next h =>
    rw [decide_eq_true_iff] at h
    omega
  · next h =>
    rw [decide_eq_true_iff] at h
    omega

/-- The characters of an integer's decimal text. -/
def intChars (n : ℤ) : List Char := signed (n < 0) (Nat.toDigits 10 n.natAbs)

theorem ofInt_eq (n : ℤ) : Bytes.ofInt n = Bytes.ofChars (intChars n) := by
  cases n with
  | ofNat n => rfl
  | negSucc n =>
    rw [intChars, decide_eq_true (Int.negSucc_lt_zero n)]
    rfl

/-- A sign and digits are read if what they spell fits in 64 bits. -/
theorem readInteger?_signed (negative : Bool) {cs : List Char} (hne : cs ≠ [])
    (hdigits : cs.all isAsciiDigit = true) {n : ℤ}
    (hn : n = if negative then -(Nat.ofDigitChars 10 cs 0 : ℤ) else Nat.ofDigitChars 10 cs 0) :
    readInteger? (signed negative cs) =
      if -2 ^ 63 ≤ n ∧ n ≤ 2 ^ 63 - 1 then some (Int64.ofInt n) else none := by
  obtain ⟨c, cs, rfl⟩ := List.exists_cons_of_ne_nil hne
  have hc := List.all_eq_true.1 hdigits c List.mem_cons_self
  rw [readInteger?, splitSign_signed negative hc]
  dsimp only
  rw [if_neg (by simp [hdigits]), digitsValue_eq, ← hn]
  rfl

theorem readInteger?_digits {cs : List Char} (hne : cs ≠ []) (hdigits : cs.all isAsciiDigit = true) :
    readInteger? cs = if Nat.ofDigitChars 10 cs 0 ≤ 2 ^ 63 - 1 then
      some (Int64.ofInt (Nat.ofDigitChars 10 cs 0)) else none := by
  have hread := readInteger?_signed false hne hdigits rfl
  rw [if_neg Bool.false_ne_true] at hread
  rw [show readInteger? cs = _ from hread]
  congr 1
  rw [eq_iff_iff]
  omega

/-- Digits that spell a number of 64 bits are read as that number. -/
theorem readInteger?_of_fits {cs : List Char} (hne : cs ≠ []) (hdigits : cs.all isAsciiDigit = true)
    (hfits : Nat.ofDigitChars 10 cs 0 ≤ 2 ^ 63 - 1) :
    ∃ n : Int64, n.toInt = Nat.ofDigitChars 10 cs 0 ∧ readInteger? cs = some n := by
  refine ⟨Int64.ofInt (Nat.ofDigitChars 10 cs 0), ?_, ?_⟩
  · exact Int64.toInt_ofInt_of_le (by omega) (by omega)
  · rw [readInteger?_digits hne hdigits, if_pos hfits]

/-- Digits that spell a greater one are not read. -/
theorem readInteger?_of_beyond {cs : List Char} (hne : cs ≠ [])
    (hdigits : cs.all isAsciiDigit = true) (hbeyond : 2 ^ 63 - 1 < Nat.ofDigitChars 10 cs 0) :
    readInteger? cs = none := by
  rw [readInteger?_digits hne hdigits, if_neg (by omega)]

/-- **The text of an integer is read as the integer.** -/
theorem readInteger?_intChars (n : Int64) : readInteger? (intChars n.toInt) = some n := by
  have hsign : n.toInt = if decide (n.toInt < 0) then
      -(Nat.ofDigitChars 10 (Nat.toDigits 10 n.toInt.natAbs) 0 : ℤ)
      else Nat.ofDigitChars 10 (Nat.toDigits 10 n.toInt.natAbs) 0 := by
    rw [Nat.ofDigitChars_ten_toDigits, signed_natAbs]
  have hlow : -2 ^ 63 ≤ n.toInt := n.le_toInt
  have hhigh : n.toInt < 2 ^ 63 := n.toInt_lt
  rw [intChars, readInteger?_signed _ Nat.toDigits_ne_nil (all_isAsciiDigit_toDigits _) hsign,
    if_pos ⟨hlow, by omega⟩, Int64.ofInt_toInt]

end ChartScript
