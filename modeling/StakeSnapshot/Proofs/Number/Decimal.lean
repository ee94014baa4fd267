import Mathlib.Algebra.Order.Field.Rat
import Mathlib.Tactic.FieldSimp
import Mathlib.Tactic.Ring
import StakeSnapshot.Proofs.Number.Digits

/-!
# Decimal texts

A number with a fraction is written as the digits of its whole part, a point and further digits.
`decimal?` reads such a text, and `fixedPoint_eq` says what a number in fixed-point form consists of:
its quotient by a power of ten, and the digits of the remainder.
-/

namespace StakeSnapshot.Number

/-! ### Reading -/

/-- The number that digits with at most one point between them stand for. -/
def magnitude? (s : List Char) : Option ℚ :=
  match s.splitOn '.' with
  | [whole] => (numeral? whole).map fun n => (n : ℚ)
  | [whole, fraction] => do
    let m ← numeral? whole
    let n ← numeral? fraction
    return m + n / 10 ^ fraction.length
  | _ => none

/-- The number of a decimal text, below zero with a sign in front. -/
def decimal? : List Char → Option ℚ
  | '-' :: rest => (magnitude? rest).map fun x => -x
  | s => magnitude? s

/-- The digits of a whole part, and those of a fraction behind a point if there are any. -/
def pointed (whole : Nat) (fraction : List Char) : List Char :=
  digits whole ++ if fraction = [] then [] else '.' :: fraction

/-- What digits behind the point stand for. -/
def fractionValue (ds : List Char) : ℚ := Nat.ofDigitChars 10 ds 0 / 10 ^ ds.length

theorem point_notMem {s : List Char} (h : ∀ c ∈ s, c.isDigit = true) : '.' ∉ s := fun hmem =>
  ne_of_isDigit (h '.' hmem) rfl rfl

theorem magnitude?_pointed (whole : Nat) {fraction : List Char}
    (h : ∀ c ∈ fraction, c.isDigit = true) :
    magnitude? (pointed whole fraction) = some (whole + fractionValue fraction) := by
  have hwhole : '.' ∉ digits whole := point_notMem fun _ hc => isDigit_of_mem_digits hc
  unfold pointed
  split
  · next hnil =>
    subst hnil
    have hsplit : (['.'].intercalate [digits whole]).splitOn '.' = [digits whole] :=
      List.splitOn_intercalate '.' (by simpa using hwhole) (by simp)
    rw [List.intercalate_singleton] at hsplit
    rw [List.append_nil, magnitude?, hsplit]
    simp [numeral?_digits, fractionValue]
  · next hne =>
    have hsplit : (['.'].intercalate [digits whole, fraction]).splitOn '.' =
        [digits whole, fraction] :=
      List.splitOn_intercalate '.' (by simpa using ⟨hwhole, point_notMem h⟩) (by simp)
    rw [List.intercalate_cons_cons, List.intercalate_singleton, List.append_assoc,
      List.singleton_append] at hsplit
    have hfraction : numeral? fraction = some (Nat.ofDigitChars 10 fraction 0) :=
      if_pos ⟨hne, List.all_eq_true.2 h⟩
    rw [magnitude?, hsplit]
    simp [numeral?_digits, hfraction, fractionValue]

/-- A text without a sign. -/
theorem decimal?_pointed (whole : Nat) (fraction : List Char) :
    decimal? (pointed whole fraction) = magnitude? (pointed whole fraction) := by
  obtain ⟨c, ds, hdigits⟩ := List.exists_cons_of_ne_nil (digits_ne_nil whole)
  have hc : c.isDigit = true := isDigit_of_mem_digits (n := whole) (hdigits ▸ List.mem_cons_self)
  have hminus : c ≠ '-' := ne_of_isDigit hc rfl
  rw [pointed, hdigits, List.cons_append]
  unfold decimal?
  split
  · next h => exact absurd (List.cons.inj h).1 hminus
  · rfl

/-! ### Fixed-point form -/

/-- The last `k` digits of a number, with zeros in front where it has fewer. -/
def lastDigits : Nat → Nat → List Char
  | 0, _ => []
  | k + 1, n => lastDigits k (n / 10) ++ [(n % 10).digitChar]

@[simp] theorem length_lastDigits (k n : Nat) : (lastDigits k n).length = k := by
  induction k generalizing n with
  | zero => rfl
  | succ k ih => rw [lastDigits, List.length_append, ih, List.length_singleton]

theorem isDigit_of_mem_lastDigits {k n : Nat} {c : Char} (h : c ∈ lastDigits k n) :
    c.isDigit = true := by
  induction k generalizing n with
  | zero => cases h
  | succ k ih =>
    rcases List.mem_append.1 h with h | h
    · exact ih h
    · rw [List.mem_singleton.1 h]
      rw [Nat.isDigit_digitChar, decide_eq_true_eq]
      exact Nat.mod_lt n (by decide)

theorem ofDigitChars_lastDigits (k n : Nat) :
    Nat.ofDigitChars 10 (lastDigits k n) 0 = n % 10 ^ k := by
  induction k generalizing n with
  | zero => simp [lastDigits, Nat.mod_one]
  | succ k ih =>
    have hdigit : (n % 10).digitChar.toNat = 48 + n % 10 :=
      Nat.toNat_digitChar_of_lt_ten (Nat.mod_lt n (by decide))
    have hzero : '0'.toNat = 48 := rfl
    rw [lastDigits, Nat.ofDigitChars_append, ih, Nat.pow_succ', Nat.mod_mul, Nat.ofDigitChars_cons,
      Nat.ofDigitChars_nil, hdigit, hzero]
    omega

theorem zeroPadded_concat (k : Nat) (s : List Char) (c : Char) :
    zeroPadded (k + 1) (s ++ [c]) = zeroPadded k s ++ [c] := by
  rw [zeroPadded, List.length_append, List.length_singleton, Nat.add_sub_add_right, zeroPadded,
    List.append_assoc]

/-- Filling up with zeros shows the last digits after those of the quotient. -/
theorem zeroPadded_digits (k n : Nat) :
    zeroPadded (k + 1) (digits n) = digits (n / 10 ^ k) ++ lastDigits k n := by
  induction k generalizing n with
  | zero =>
    have hlength : 1 - (digits n).length = 0 := Nat.sub_eq_zero_of_le (digitCount_pos n)
    rw [zeroPadded, hlength, List.replicate_zero, List.nil_append, Nat.pow_zero, Nat.div_one,
      lastDigits, List.append_nil]
  | succ k ih =>
    rw [lastDigits, Nat.pow_succ', ← Nat.div_div_eq_div_mul, ← List.append_assoc, ← ih (n / 10)]
    rcases Nat.lt_or_ge n 10 with h | h
    · -- a single digit stands for itself, behind the zero that is its quotient
      have hdigits : digits n = [] ++ [n.digitChar] := Nat.toDigits_of_lt_base h
      have hzeros : zeroPadded (k + 1) [] = zeroPadded (k + 1) (digits 0) := by
        have hzero : digits 0 = ['0'] := rfl
        simp [zeroPadded, hzero, List.replicate_succ']
      rw [hdigits, zeroPadded_concat, Nat.mod_eq_of_lt h, Nat.div_eq_of_lt h, hzeros]
    · rw [← zeroPadded_concat, digits, Nat.toDigits_of_base_le (by decide) h, ← digits]

/-- A number in fixed-point form, with at least one place after the point. -/
theorem fixedPoint_eq {places : Nat} (h : 0 < places) (n : Nat) :
    fixedPoint places n = digits (n / 10 ^ places) ++ '.' :: lastDigits places n := by
  have hlength : (digits (n / 10 ^ places) ++ lastDigits places n).length - places =
      (digits (n / 10 ^ places)).length := by
    rw [List.length_append, length_lastDigits, Nat.add_sub_cancel]
  rw [fixedPoint, if_neg h.ne']
  dsimp only
  rw [zeroPadded_digits, hlength, List.take_left, List.drop_left]

end StakeSnapshot.Number
