import Mathlib.Data.Int.Log
import Mathlib.Data.Rat.Floor
import StakeSnapshot.Proofs.Number.Digits
import StakeSnapshot.Proofs.Number.Nearest

/-!
# Rounding in decimal places

Rounding a number to the nearest multiple of a power of ten with halves to even, at a place after the
point (`toPlaces`) or after a count of significant digits (`toSignificant`). On quotients of natural
numbers these are `roundHalfEven` and `significant`, which work on the numerator.
-/

namespace StakeSnapshot.Number

/-! ### To a whole number -/

/-- The whole number nearest to `x`; a half goes to the even neighbour. -/
def halfEven (x : ℚ) : ℤ :=
  if Int.fract x < 1 / 2 then ⌊x⌋
  else if 1 / 2 < Int.fract x then ⌊x⌋ + 1
  else if Even ⌊x⌋ then ⌊x⌋ else ⌊x⌋ + 1

/-- `m` is at most a half away from `x`, and even if it is just a half. -/
@[mk_iff]
structure IsNearest (x : ℚ) (m : ℤ) : Prop where
  near : |x - m| ≤ 1 / 2
  even : |x - m| = 1 / 2 → Even m

theorem IsNearest.unique {x : ℚ} {m n : ℤ} (hm : IsNearest x m) (hn : IsNearest x n) : m = n := by
  by_contra hne
  have hapart : (1 : ℚ) ≤ |(m : ℚ) - n| := by
    exact_mod_cast Int.one_le_abs (sub_ne_zero.2 hne)
  have hsum : |(m : ℚ) - n| ≤ |x - m| + |x - n| := by
    rw [abs_sub_comm x m]
    exact abs_sub_le _ x _
  have hm' := hm.near
  have hn' := hn.near
  -- so both are a half away, and one of two neighbours is odd
  have heven : Even (m - n) := (hm.even (by linarith)).sub (hn.even (by linarith))
  have hone : |m - n| = 1 := by
    have : |(m : ℚ) - n| = 1 := by linarith
    exact_mod_cast this
  rw [← even_abs, hone] at heven
  exact absurd heven (by decide)

theorem isNearest_floor {x : ℚ} (h : Int.fract x ≤ 1 / 2)
    (heven : Int.fract x = 1 / 2 → Even ⌊x⌋) : IsNearest x ⌊x⌋ := by
  have hdistance : |x - ⌊x⌋| = Int.fract x := abs_of_nonneg (Int.fract_nonneg x)
  rw [isNearest_iff, hdistance]
  exact ⟨h, heven⟩

theorem isNearest_floor_add_one {x : ℚ} (h : 1 / 2 ≤ Int.fract x)
    (heven : Int.fract x = 1 / 2 → Even (⌊x⌋ + 1)) : IsNearest x (⌊x⌋ + 1) := by
  have hdistance : |x - (⌊x⌋ + 1 : ℤ)| = 1 - Int.fract x := by
    have hbelow : x - (⌊x⌋ + 1 : ℤ) = -(1 - Int.fract x) := by
      push_cast
      linarith [Int.floor_add_fract x]
    rw [hbelow, abs_neg, abs_of_nonneg (by linarith [Int.fract_lt_one x])]
  rw [isNearest_iff, hdistance]
  exact ⟨by linarith, fun htie => heven (by linarith)⟩

theorem isNearest_halfEven (x : ℚ) : IsNearest x (halfEven x) := by
  unfold halfEven
  split_ifs with hless hmore heven
  · exact isNearest_floor hless.le fun htie => absurd htie hless.ne
  · exact isNearest_floor_add_one hmore.le fun htie => absurd htie hmore.ne'
  · exact isNearest_floor (not_lt.1 hmore) fun _ => heven
  · exact isNearest_floor_add_one (not_lt.1 hless) fun _ => Int.even_add_one.2 heven

theorem halfEven_eq_iff {x : ℚ} {m : ℤ} : halfEven x = m ↔ IsNearest x m :=
  ⟨fun h => h ▸ isNearest_halfEven x, (isNearest_halfEven x).unique⟩

@[simp] theorem halfEven_intCast (m : ℤ) : halfEven m = m :=
  halfEven_eq_iff.2 ⟨by norm_num, fun h => absurd h (by norm_num)⟩

theorem halfEven_neg (x : ℚ) : halfEven (-x) = -halfEven x := by
  obtain ⟨hnear, heven⟩ := isNearest_halfEven x
  have hswap : |-x - (-halfEven x : ℤ)| = |x - halfEven x| := by
    rw [Int.cast_neg, neg_sub_neg, abs_sub_comm]
  rw [halfEven_eq_iff, isNearest_iff, hswap]
  exact ⟨hnear, fun h => (heven h).neg⟩

/-! ### Quotients -/

/-- A quotient that is just between two numbers is rounded to the even one. -/
theorem roundHalfEven_even {num den : Nat}
    (htie : 2 * num = 2 * (den * roundHalfEven num den) + den ∨
      2 * num + den = 2 * (den * roundHalfEven num den)) (hden : 0 < den) :
    roundHalfEven num den % 2 = 0 := by
  have hq := Nat.div_add_mod num den
  have hr := Nat.mod_lt num hden
  have hs : den * (num / den + 1) = den * (num / den) + den := Nat.mul_succ _ _
  revert htie
  unfold roundHalfEven
  dsimp only
  split_ifs <;> omega

theorem isNearest_roundHalfEven (num : Nat) {den : Nat} (hden : 0 < den) :
    IsNearest (num / den) (roundHalfEven num den) := by
  have hden' : (0 : ℚ) < den := by exact_mod_cast hden
  obtain ⟨hlow, hhigh⟩ := roundHalfEven_near num hden
  rw [← Nat.cast_le (α := ℚ)] at hlow hhigh
  push_cast at hlow hhigh
  have hdistance : (num : ℚ) / den - (roundHalfEven num den : ℤ) =
      (num - den * roundHalfEven num den) / den := by
    push_cast
    field_simp
  rw [isNearest_iff, hdistance, abs_div, abs_of_pos hden', div_le_iff₀ hden', div_eq_iff hden'.ne']
  constructor
  · rw [abs_le]
    constructor <;> linarith
  · intro htie
    rw [Int.even_iff]
    refine mod_cast roundHalfEven_even ?_ hden
    rcases eq_or_eq_neg_of_abs_eq htie with h | h
    · left
      have : (2 * num : ℚ) = 2 * (den * roundHalfEven num den) + den := by linarith
      exact_mod_cast this
    · right
      have : (2 * num + den : ℚ) = 2 * (den * roundHalfEven num den) := by linarith
      exact_mod_cast this

/-- Rounding a quotient of natural numbers. -/
theorem halfEven_div (num : Nat) {den : Nat} (hden : 0 < den) :
    halfEven (num / den) = roundHalfEven num den :=
  halfEven_eq_iff.2 (isNearest_roundHalfEven num hden)

theorem roundHalfEven_one (n : Nat) : roundHalfEven n 1 = n :=
  roundHalfEven_eq (by decide) (by omega) (by omega) (by omega)

theorem zero_roundHalfEven {den : Nat} (hden : 0 < den) : roundHalfEven 0 den = 0 :=
  roundHalfEven_eq hden (by omega) (by omega) (by omega)

/-! ### To a multiple of a power of ten -/

/-- The multiple of `10 ^ e` nearest to `x`; half a multiple goes to an even one. -/
def roundedAt (e : ℤ) (x : ℚ) : ℚ := halfEven (x / 10 ^ e) * 10 ^ e

/-- `x` rounded to so many places after the point. -/
def toPlaces (places : Nat) (x : ℚ) : ℚ := roundedAt (-places) x

/-- `x` rounded to so many significant digits. -/
def toSignificant (precision : Nat) (x : ℚ) : ℚ :=
  roundedAt (Int.log 10 |x| + 1 - precision) x

theorem roundedAt_neg (e : ℤ) (x : ℚ) : roundedAt e (-x) = -roundedAt e x := by
  rw [roundedAt, neg_div, halfEven_neg, Int.cast_neg, neg_mul, roundedAt]

theorem toPlaces_neg (places : Nat) (x : ℚ) : toPlaces places (-x) = -toPlaces places x :=
  roundedAt_neg _ x

theorem toSignificant_neg (precision : Nat) (x : ℚ) :
    toSignificant precision (-x) = -toSignificant precision x := by
  rw [toSignificant, abs_neg, roundedAt_neg, toSignificant]

theorem toSignificant_zero (precision : Nat) : toSignificant precision 0 = 0 := by
  simp [toSignificant, roundedAt, halfEven]

/-- Moving the point moves the place. -/
theorem roundedAt_shift (e k : ℤ) (x : ℚ) :
    roundedAt (e + k) (x * 10 ^ k) = roundedAt e x * 10 ^ k := by
  rw [roundedAt, roundedAt, zpow_add₀ (by norm_num), mul_div_mul_right x _ (Binary64.ten_zpow_pos k).ne',
    mul_assoc]

theorem log_shift {x : ℚ} (hx : 0 < x) (k : ℤ) : Int.log 10 (x * 10 ^ k) = Int.log 10 x + k := by
  have hpos : 0 < x * 10 ^ k := mul_pos hx (Binary64.ten_zpow_pos k)
  have hbase : ((10 : Nat) : ℚ) = 10 := by norm_num
  refine le_antisymm ?_ ?_
  · rw [← Int.lt_add_one_iff, ← Int.lt_zpow_iff_log_lt (by norm_num) hpos, hbase, add_right_comm,
      zpow_add₀ (by norm_num)]
    refine mul_lt_mul_of_pos_right ?_ (Binary64.ten_zpow_pos k)
    exact_mod_cast Int.lt_zpow_succ_log_self (b := 10) (by decide) x
  · rw [← Int.zpow_le_iff_le_log (by norm_num) hpos, hbase, zpow_add₀ (by norm_num)]
    refine mul_le_mul_of_nonneg_right ?_ (Binary64.ten_zpow_pos k).le
    exact_mod_cast Int.zpow_log_le_self (b := 10) (by decide) hx

/-- Moving the point keeps the significant digits. -/
theorem toSignificant_shift (precision : Nat) (x : ℚ) (k : ℤ) :
    toSignificant precision (x * 10 ^ k) = toSignificant precision x * 10 ^ k := by
  rcases eq_or_ne x 0 with rfl | hx
  · rw [zero_mul, toSignificant_zero, zero_mul]
  · rw [toSignificant, abs_mul, abs_of_pos (Binary64.ten_zpow_pos k), log_shift (abs_pos.2 hx),
      show Int.log 10 |x| + k + 1 - precision = Int.log 10 |x| + 1 - precision + k by omega,
      roundedAt_shift, toSignificant]

/-- A whole number has nothing to round after the point. -/
theorem roundedAt_natCast (n k : Nat) : roundedAt (-k) (n : ℚ) = n := by
  have hwhole : (n : ℚ) / 10 ^ (-k : ℤ) = ((n * 10 ^ k : ℤ) : ℚ) := by
    rw [zpow_neg, div_inv_eq_mul, zpow_natCast]
    push_cast
    rfl
  rw [roundedAt, hwhole, halfEven_intCast, zpow_neg, zpow_natCast]
  push_cast
  rw [mul_inv_cancel_right₀ (by positivity)]

/-- Rounding a whole number at a place before the point. -/
theorem roundedAt_pow (n k : Nat) :
    roundedAt k (n : ℚ) = (roundHalfEven n (10 ^ k) * 10 ^ k : Nat) := by
  have hquotient := halfEven_div n (show 0 < 10 ^ k by positivity)
  push_cast at hquotient
  rw [roundedAt, zpow_natCast, hquotient]
  push_cast
  rfl

theorem digitCount_eq_log {n : Nat} (hn : 0 < n) : digitCount n = Nat.log 10 n + 1 := by
  have hpos := digitCount_pos n
  rw [Nat.log_eq_of_pow_le_of_lt_pow (m := digitCount n - 1) (pow_digitCount_le hn)]
  · omega
  · rw [Nat.sub_add_cancel hpos]
    exact lt_pow_digitCount n

/-- Keeping the first digits of a whole number. -/
theorem toSignificant_natCast (precision n : Nat) :
    toSignificant precision n = significant precision n := by
  rcases Nat.eq_zero_or_pos n with rfl | hn
  · have hsignificant : significant precision 0 = 0 := by
      rw [significant, Nat.pow_eq, zero_roundHalfEven (by positivity), Nat.zero_mul]
    rw [hsignificant, Nat.cast_zero, toSignificant_zero]
  · rw [toSignificant, Nat.abs_cast, Int.log_natCast, significant]
    have hcount := digitCount_eq_log hn
    rcases Nat.le_total (digitCount n) precision with h | h
    · have hplace : (Nat.log 10 n : ℤ) + 1 - precision = -((precision - digitCount n : Nat) : ℤ) := by
        omega
      rw [hplace, roundedAt_natCast, Nat.sub_eq_zero_of_le h, Nat.pow_eq, Nat.pow_zero, Nat.mul_one,
        roundHalfEven_one]
    · have hplace : (Nat.log 10 n : ℤ) + 1 - precision = ((digitCount n - precision : Nat) : ℤ) := by
        omega
      rw [hplace, roundedAt_pow, Nat.pow_eq]

theorem significant_of_lt {precision n : Nat} (hprecision : 0 < precision)
    (h : n < 10 ^ precision) : significant precision n = n := by
  have hcount := (digitCount_le_iff hprecision).2 h
  rw [significant, Nat.sub_eq_zero_of_le hcount, Nat.pow_eq, Nat.pow_zero, Nat.mul_one,
    roundHalfEven_one]

/-- Keeping the first digits of a number that is written with a point. -/
theorem toSignificant_div_pow (precision n k : Nat) :
    toSignificant precision (n / 10 ^ k) = significant precision n / 10 ^ k := by
  rw [div_eq_mul_inv, ← zpow_natCast, ← zpow_neg, toSignificant_shift, toSignificant_natCast,
    zpow_neg, zpow_natCast, ← div_eq_mul_inv]

/-- Rounding a number that is written with a point at a place behind it. -/
theorem toPlaces_div_pow (places n k : Nat) :
    toPlaces places (n / 10 ^ k) = roundHalfEven (n * 10 ^ places) (10 ^ k) / 10 ^ places := by
  have hscaled : (n : ℚ) / 10 ^ k / 10 ^ (-places : ℤ) =
      ((n * 10 ^ places : Nat) : ℚ) / (10 ^ k : Nat) := by
    rw [zpow_neg, div_inv_eq_mul, zpow_natCast]
    push_cast
    ring
  rw [toPlaces, roundedAt, hscaled, halfEven_div _ (by positivity), zpow_neg, zpow_natCast,
    div_eq_mul_inv]
  rfl

end StakeSnapshot.Number
