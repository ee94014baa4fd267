import StakeSnapshot.Number.IntegerText
import Mathlib.Data.Nat.Digits.Defs

/-!
# Decimal digits

How many digits a number has, and what the digits are: they tell the number, and only zero starts with
a zero. So does the text of an integer.
-/

namespace StakeSnapshot.Number

theorem digitCount_pos (n : Nat) : 0 < digitCount n := Nat.length_toDigits_pos

theorem digitCount_le_iff {n k : Nat} (hk : 0 < k) : digitCount n ≤ k ↔ n < 10 ^ k :=
  Nat.length_toDigits_le_iff (by decide) hk

/-- An integer can be written just if its magnitude is below `10 ^ maxDigits`. -/
theorem isWritable_iff {n : Int} : isWritable n = true ↔ n.natAbs < 10 ^ maxDigits := by
  rw [isWritable, decide_eq_true_iff, digitCount_le_iff (by decide)]

theorem isWritable_pow {k : Nat} (h : maxDigits ≤ k) : isWritable (Int.pow 10 k) = false := by
  have habs : (Int.pow 10 k).natAbs = 10 ^ k := Int.natAbs_pow 10 k
  rw [Bool.eq_false_iff, ne_eq, isWritable_iff, habs, not_lt]
  exact Nat.pow_le_pow_right (by decide) h

theorem lt_pow_digitCount (n : Nat) : n < 10 ^ digitCount n :=
  (digitCount_le_iff (digitCount_pos n)).1 le_rfl

theorem pow_digitCount_le {n : Nat} (hn : 0 < n) : 10 ^ (digitCount n - 1) ≤ n := by
  rcases Nat.eq_zero_or_pos (digitCount n - 1) with h | h
  · rw [h]
    exact hn
  · by_contra hless
    have := (digitCount_le_iff h).2 (Nat.lt_of_not_le hless)
    omega

theorem isDigit_of_mem_digits {n : Nat} {c : Char} (h : c ∈ digits n) : c.isDigit = true :=
  Nat.isDigit_of_mem_toDigits (by decide) (by decide) h

theorem ne_of_isDigit {c d : Char} (hc : c.isDigit = true) (hd : d.isDigit = false) : c ≠ d := by
  rintro rfl
  exact Bool.false_ne_true (hd.symm.trans hc)

theorem digits_ne_nil (n : Nat) : digits n ≠ [] := Nat.toDigits_ne_nil

/-- The first digit of a positive number is not a zero. -/
theorem exists_digits_eq_cons {n : Nat} (hn : 0 < n) : ∃ c ds, digits n = c :: ds ∧ c ≠ '0' := by
  induction n using Nat.strong_induction_on with
  | h n ih =>
    rcases Nat.lt_or_ge n 10 with h | h
    · refine ⟨_, [], Nat.toDigits_of_lt_base h, ?_⟩
      have hdigits : ∀ n < 10, 0 < n → n.digitChar ≠ '0' := by decide
      exact hdigits n h hn
    · obtain ⟨c, ds, hds, hc⟩ := ih (n / 10) (by omega) (by omega)
      refine ⟨c, ds ++ [(n % 10).digitChar], ?_, hc⟩
      rw [digits, Nat.toDigits_of_base_le (by decide) h, ← digits, hds, List.cons_append]

theorem digits_injective : Function.Injective digits := fun m n h => by
  have hvalue := congrArg (Nat.ofDigitChars 10 · 0) h
  simpa only [digits, Nat.ofDigitChars_ten_toDigits] using hvalue

/-- The number that a text of digits stands for. -/
def numeral? (s : List Char) : Option Nat :=
  if s ≠ [] ∧ s.all Char.isDigit then some (Nat.ofDigitChars 10 s 0) else none

theorem numeral?_digits (n : Nat) : numeral? (digits n) = some n := by
  have hdigits : digits n ≠ [] ∧ (digits n).all Char.isDigit :=
    ⟨digits_ne_nil n, List.all_eq_true.2 fun _ hc => isDigit_of_mem_digits hc⟩
  rw [numeral?, if_pos hdigits, digits, Nat.ofDigitChars_ten_toDigits]

/-! ### Integers -/

/-- The text of an integer has digits only, apart from its sign. -/
theorem mem_intText {n : Int} {c : Char} (h : c ∈ intText n) : c = '-' ∨ c.isDigit = true := by
  cases n with
  | ofNat n => exact .inr (isDigit_of_mem_digits h)
  | negSucc n => exact (List.mem_cons.1 h).imp_right isDigit_of_mem_digits

theorem intText_injective : Function.Injective intText := by
  have hsign : ∀ {m n : Nat}, digits m ≠ '-' :: digits n := fun {m n} h => by
    have := isDigit_of_mem_digits (h ▸ List.mem_cons_self : '-' ∈ digits m)
    exact absurd this (by decide)
  intro m n h
  cases m with
  | ofNat m =>
    cases n with
    | ofNat n => rw [digits_injective h]
    | negSucc n => exact absurd h hsign
  | negSucc m =>
    cases n with
    | ofNat n => exact absurd h.symm hsign
    | negSucc n => rw [Nat.succ.inj (digits_injective (List.cons.inj h).2)]

end StakeSnapshot.Number
