/-!
# Rounding a quotient

Rounding to the nearest whole number with halves to even, digits of a number, and text in
fixed-point form.
-/

namespace StakeSnapshot.Number

/-- The whole number nearest to `num / den`; a half goes to the even neighbour. -/
def roundHalfEven (num den : Nat) : Nat :=
  let q := num / den
  let r := num % den
  if 2 * r < den then q
  else if den < 2 * r then q + 1
  else if q % 2 = 0 then q else q + 1

/-- The rounded quotient is at most half a unit away from the exact one. -/
theorem roundHalfEven_near (num : Nat) {den : Nat} (h : 0 < den) :
    2 * num ≤ 2 * (den * roundHalfEven num den) + den ∧
      2 * (den * roundHalfEven num den) ≤ 2 * num + den := by
  have hq := Nat.div_add_mod num den
  have hr := Nat.mod_lt num h
  have hs : den * (num / den + 1) = den * (num / den) + den := Nat.mul_succ _ _
  unfold roundHalfEven
  simp only
  split
  · omega
  · split
    · omega
    · split <;> omega

/-- The decimal digits of a number, without leading zeros except for zero itself. -/
def digits (n : Nat) : List Char := Nat.toDigits 10 n

/-- How many decimal digits a number has. -/
def digitCount (n : Nat) : Nat := (digits n).length

/-- The decimal text of an integer. -/
def intText : Int → List Char
  | .ofNat n => digits n
  | .negSucc n => '-' :: digits (n + 1)

/-- `n` rounded to its first `precision` digits, halves to even; the others become zeros. -/
def significant (precision n : Nat) : Nat :=
  let dropped := digitCount n - precision
  roundHalfEven n (Nat.pow 10 dropped) * Nat.pow 10 dropped

/-- A text with zeros put in front until it has `width` characters. -/
def zeroPadded (width : Nat) (s : List Char) : List Char :=
  List.replicate (width - s.length) '0' ++ s

/-- The number `n / 10 ^ places` with exactly `places` digits after the point. -/
def fixedPoint (places n : Nat) : List Char :=
  if places = 0 then digits n
  else
    let ds := zeroPadded (places + 1) (digits n)
    ds.take (ds.length - places) ++ '.' :: ds.drop (ds.length - places)

end StakeSnapshot.Number
