import StakeSnapshot.Proofs.Number.Digits
import StakeSnapshot.Proofs.Number.Nearest

/-!
# The shortest decimal

The decimal that is written for a number lies in the interval that is rounded to the number, since
seventeen digits always suffice: the multiples of a unit below the last place are closer together
than the interval is wide. So reading the decimal gives the number back, whatever digits and power of
ten it is spelled with (`ofDecimal_of_rounds`).
-/

namespace StakeSnapshot.Number.Binary64

/-- `y` lies in an interval, whose ends belong to it if it is closed. -/
def Between (low high : ℚ) (closed : Bool) (y : ℚ) : Prop :=
  low ≤ y ∧ y ≤ high ∧ (closed = false → low < y ∧ y < high)

theorem ten_zpow_mul (k : Int) : (10 : ℚ) ^ k * 10 ^ (-k).toNat = 10 ^ k.toNat := by
  rw [← zpow_natCast, ← zpow_natCast, ← zpow_add₀ (by norm_num)]
  congr 1
  omega

/-! ### Multiples of a power of ten -/

section
variable {num low high den : Nat} {closed : Bool} {power : Int}

/-- The factor by which quotients and multiples of a power of ten become whole numbers. -/
def gridScale (den : Nat) (power : Int) : ℚ := den * 10 ^ (-power).toNat

theorem gridScale_pos (hden : 0 < den) : 0 < gridScale den power := by
  have hden' : (0 : ℚ) < den := by exact_mod_cast hden
  unfold gridScale
  positivity

theorem cast_quotient (hden : 0 < den) (a : Nat) :
    ((a * Nat.pow 10 (-power).toNat : Nat) : ℚ) = a / den * gridScale den power := by
  have hden' : (den : ℚ) ≠ 0 := by exact_mod_cast hden.ne'
  rw [gridScale, ← mul_assoc, div_mul_cancel₀ _ hden', Nat.pow_eq]
  push_cast
  rfl

theorem cast_multiple (f : Nat) :
    ((f * (den * Nat.pow 10 power.toNat) : Nat) : ℚ) = f * 10 ^ power * gridScale den power := by
  rw [gridScale, Nat.pow_eq]
  push_cast
  rw [← ten_zpow_mul]
  ring

/-- Whether a multiple lies in the interval, as it is decided in whole numbers. -/
theorem inside_iff (hden : 0 < den) (f : Nat) :
    (if closed then
        low * Nat.pow 10 (-power).toNat ≤ f * (den * Nat.pow 10 power.toNat) ∧
          f * (den * Nat.pow 10 power.toNat) ≤ high * Nat.pow 10 (-power).toNat
      else
        low * Nat.pow 10 (-power).toNat < f * (den * Nat.pow 10 power.toNat) ∧
          f * (den * Nat.pow 10 power.toNat) < high * Nat.pow 10 (-power).toNat) ↔
      Between (low / den) (high / den) closed (f * 10 ^ power) := by
  have hpos : 0 < gridScale den power := gridScale_pos hden
  simp only [← Nat.cast_le (α := ℚ), ← Nat.cast_lt (α := ℚ), cast_quotient hden, cast_multiple,
    mul_le_mul_iff_of_pos_right hpos, mul_lt_mul_iff_of_pos_right hpos, Between]
  cases closed with
  | true => simp
  | false =>
    simp only [Bool.false_eq_true, if_false, true_implies]
    exact ⟨fun h => ⟨h.1.le, h.2.le, h⟩, fun h => h.2.2⟩

/-- A multiple that is found lies in the interval; if there is none, the neighbours of the quotient
lie outside. -/
theorem gridPoint?_cases (low high : Nat) (closed : Bool) (power : Int) (num : Nat)
    (hden : 0 < den) :
    (∃ f, gridPoint? num low high den closed power = some f ∧
      Between (low / den) (high / den) closed (f * 10 ^ power)) ∨
    gridPoint? num low high den closed power = none ∧
      ∃ f : Nat, f * 10 ^ power ≤ (num : ℚ) / den ∧ (num : ℚ) / den < (f + 1) * 10 ^ power ∧
        ¬ Between (low / den) (high / den) closed (f * 10 ^ power) ∧
        ¬ Between (low / den) (high / den) closed ((f + 1) * 10 ^ power) := by
  have hpos : 0 < gridScale den power := gridScale_pos hden
  have hunit : 0 < den * Nat.pow 10 power.toNat := Nat.mul_pos hden (Nat.pow_pos (by decide))
  unfold gridPoint?
  extract_lets up unit inside f
  have hinside : ∀ g, inside g = true ↔ Between (low / den) (high / den) closed (g * 10 ^ power) :=
    fun g => by
      rw [← inside_iff hden]
      cases closed <;> simp [inside, up, unit]
  have hbelow : f * 10 ^ power ≤ (num : ℚ) / den := by
    rw [← mul_le_mul_iff_of_pos_right hpos, ← cast_multiple, ← cast_quotient hden, Nat.cast_le]
    exact Nat.div_mul_le_self _ _
  have habove : (num : ℚ) / den < (f + 1) * 10 ^ power := by
    rw [← mul_lt_mul_iff_of_pos_right hpos, ← Nat.cast_succ, ← cast_multiple, ← cast_quotient hden,
      Nat.cast_lt, Nat.mul_comm f.succ]
    exact Nat.lt_mul_div_succ _ hunit
  have hnext := hinside (f + 1)
  rw [Nat.cast_succ] at hnext
  cases h₁ : inside f with
  | true =>
    cases h₂ : inside (f + 1) with
    | true =>
      -- both neighbours would do, and the nearer one is taken
      left
      dsimp only
      split
      · exact ⟨f, rfl, (hinside f).1 h₁⟩
      · exact ⟨f + 1, rfl, (hinside (f + 1)).1 h₂⟩
    | false => exact .inl ⟨f, rfl, (hinside f).1 h₁⟩
  | false =>
    cases h₂ : inside (f + 1) with
    | true => exact .inl ⟨f + 1, rfl, (hinside (f + 1)).1 h₂⟩
    | false =>
      exact .inr ⟨rfl, f, hbelow, habove, by simp [← hinside, h₁], by simp [← hnext, h₂]⟩

end

/-! ### Powers of ten next to a quotient -/

/-- The power of ten just above a quotient is at most ten times as large. -/
theorem decimalMagnitude_le {num den : Nat} (hnum : 0 < num) (hden : 0 < den) :
    (10 : ℚ) ^ (decimalMagnitude num den - 1) ≤ num / den := by
  have hnum' : (0 : ℚ) < num := by exact_mod_cast hnum
  have hden' : (0 : ℚ) < den := by exact_mod_cast hden
  rw [le_div_iff₀ hden']
  unfold decimalMagnitude
  split
  · next hle =>
    have hq := pow_digitCount_le (Nat.div_pos hle hden)
    have hcount := digitCount_pos (num / den)
    have hmul := (Nat.mul_le_mul_right den hq).trans (Nat.div_mul_le_self num den)
    rw [show (digitCount (num / den) : Int) - 1 = ((digitCount (num / den) - 1 : Nat) : Int) by omega,
      zpow_natCast]
    exact_mod_cast hmul
  · next hlt =>
    extract_lets t
    have hcount : 0 < t := digitCount_pos (den / num)
    split
    · next hle =>
      rw [show (2 - t - 1 : Int) = -((t - 1 : Nat) : Int) by omega, zpow_neg, zpow_natCast,
        inv_mul_le_iff₀ (by positivity), mul_comm]
      rw [Nat.pow_eq] at hle
      exact_mod_cast hle
    · have hq : den < num * 10 ^ t := by
        have := Nat.lt_mul_of_div_lt (lt_pow_digitCount (den / num)) hnum
        rwa [Nat.mul_comm] at this
      rw [show (1 - t - 1 : Int) = -((t : Nat) : Int) by omega, zpow_neg, zpow_natCast,
        inv_mul_le_iff₀ (by positivity), mul_comm]
      exact_mod_cast hq.le

/-! ### Seventeen digits -/

theorem between_of_lt {low high y : ℚ} (closed : Bool) (hlow : low < y) (hhigh : y < high) :
    Between low high closed y :=
  ⟨hlow.le, hhigh.le, fun _ => ⟨hlow, hhigh⟩⟩

/-- Multiples of a unit that is small against the last place cannot miss the interval. -/
theorem between_or_between {m : Nat} {e : Int} {unit : ℚ} {f : Nat} (closed : Bool)
    (hcan : Canonical m e) (hbelow : f * unit ≤ 4 * m * 2 ^ (e - 2))
    (habove : 4 * m * 2 ^ (e - 2) < (f + 1) * unit)
    (hunit : unit * 10 ^ 16 ≤ 4 * m * 2 ^ (e - 2)) :
    Between ((4 * m - lowGap m e) * 2 ^ (e - 2)) ((4 * m + 2) * 2 ^ (e - 2)) closed (f * unit) ∨
      Between ((4 * m - lowGap m e) * 2 ^ (e - 2)) ((4 * m + 2) * 2 ^ (e - 2)) closed
        ((f + 1) * unit) := by
  have hpos := two_zpow_pos (e - 2)
  generalize (2 : ℚ) ^ (e - 2) = quarter at *
  unfold lowGap
  split
  -- below a power of two the interval is half as wide, so only the multiple above is sure
  · next hpower =>
    have hm : (m : ℚ) = 2 ^ 52 := by exact_mod_cast hpower.1
    have hsmall : unit < 2 * quarter := by
      rw [hm] at hunit
      linarith
    right
    refine between_of_lt closed ?_ ?_
    · push_cast
      linarith
    · linarith
  · have hm : (m : ℚ) < 2 ^ 53 := by exact_mod_cast hcan.lt
    have hsmall : unit < 4 * quarter := by
      have := mul_lt_mul_of_pos_right hm hpos
      linarith
    push_cast
    rcases le_or_gt (4 * m * quarter - f * unit) ((f + 1) * unit - 4 * m * quarter) with h | h
    · left
      refine between_of_lt closed ?_ ?_
      · linarith
      · linarith
    · right
      refine between_of_lt closed ?_ ?_
      · linarith
      · linarith

/-- If some multiple of the last unit that is tried lies in the interval, a multiple is found. -/
theorem shortestFrom_between {num low high den : Nat} {closed : Bool} {magnitude : Int}
    (hden : 0 < den) {fuel count : Nat} (hfuel : 0 < fuel)
    (hlast : gridPoint? num low high den closed (magnitude - (count + fuel - 1 : Nat)) ≠ none) :
    ∃ f power, shortestFrom num low high den closed magnitude fuel count = (f, power) ∧
      Between (low / den) (high / den) closed (f * 10 ^ power) := by
  induction fuel generalizing count with
  | zero => exact absurd hfuel (Nat.lt_irrefl 0)
  | succ fuel ih =>
    unfold shortestFrom
    rcases gridPoint?_cases low high closed (magnitude - count) num hden with
      ⟨f, hf, hbetween⟩ | ⟨hnone, -⟩
    · rw [hf]
      exact ⟨f, _, rfl, hbetween⟩
    · rw [hnone]
      rcases Nat.eq_zero_or_pos fuel with rfl | hmore
      · exact absurd hnone hlast
      · exact ih hmore (by rwa [show count + 1 + fuel - 1 = count + (fuel + 1) - 1 by omega])

/-- Seventeen digits are enough for some decimal that is rounded to the number. -/
theorem shortestFrom_rounds {m num low high den : Nat} {e : Int} (hcan : Canonical m e)
    (hnum : 0 < num) (hden : 0 < den) (hmid : (num : ℚ) / den = 4 * m * 2 ^ (e - 2))
    (hlow : (low : ℚ) / den = (4 * m - lowGap m e) * 2 ^ (e - 2))
    (hhigh : (high : ℚ) / den = (4 * m + 2) * 2 ^ (e - 2)) :
    ∃ f power, shortestFrom num low high den (m % 2 = 0) (decimalMagnitude num den) 17 1 =
      (f, power) ∧ Rounds m e (f * 10 ^ power) := by
  have hlast : gridPoint? num low high den (m % 2 = 0)
      (decimalMagnitude num den - (1 + 17 - 1 : Nat)) ≠ none := by
    intro hnone
    rcases gridPoint?_cases low high (m % 2 = 0) (decimalMagnitude num den - (1 + 17 - 1 : Nat)) num
        hden with
      ⟨f, hf, -⟩ | ⟨-, f, hbelow, habove, hno, hno'⟩
    · rw [hnone] at hf
      cases hf
    · have hunit := decimalMagnitude_le hnum hden
      rw [hmid] at hunit hbelow habove
      rw [hlow, hhigh] at hno hno'
      refine (between_or_between _ hcan hbelow habove ?_).elim hno hno'
      rw [← zpow_natCast, ← zpow_add₀ (by norm_num)]
      exact (zpow_le_zpow_right₀ (by norm_num) (by omega)).trans hunit
  obtain ⟨f, power, hf, hbetween⟩ := shortestFrom_between hden (by decide) hlast
  rw [hlow, hhigh] at hbetween
  exact ⟨f, power, hf, hbetween.1, hbetween.2.1, fun hodd => hbetween.2.2 (by simp [hodd])⟩

theorem ratio_eq (a : Nat) (k : Int) : ratio a k = (a * Nat.pow 2 k.toNat, Nat.pow 2 (-k).toNat) := by
  unfold ratio scaled
  split
  · rw [show (-k).toNat = 0 by omega]
  · rw [show k.toNat = 0 by omega, Nat.one_mul]
    exact Prod.ext (Nat.mul_one a).symm rfl

theorem cast_ratio (a : Nat) (k : Int) :
    ((a * Nat.pow 2 k.toNat : Nat) : ℚ) / (Nat.pow 2 (-k).toNat : Nat) = a * 2 ^ k := by
  have h := scaled_eq a 1 k
  rw [← ratio, ratio_eq] at h
  rw [h, Nat.cast_one, div_one]

/-- The shortest decimal is rounded to the number it is written for. -/
theorem rounds_shortest {m : Nat} {e : Int} (hm : 0 < m) (hcan : Canonical m e) :
    Rounds m e ((shortest m e).1 * 10 ^ (shortest m e).2) := by
  have hden : 0 < Nat.pow 2 (-(e - 2)).toNat := Nat.pow_pos (by decide)
  have hnum : 0 < 4 * m * Nat.pow 2 (e - 2).toNat :=
    Nat.mul_pos (by omega) (Nat.pow_pos (by decide))
  have hgap : lowGap m e ≤ 4 * m := by
    unfold lowGap
    split <;> omega
  obtain ⟨f, power, hf, hrounds⟩ := shortestFrom_rounds hcan hnum hden
    ((cast_ratio (4 * m) (e - 2)).trans (by push_cast; rfl))
    ((cast_ratio (4 * m - lowGap m e) (e - 2)).trans (by rw [Nat.cast_sub hgap]; push_cast; rfl))
    ((cast_ratio (4 * m + 2) (e - 2)).trans (by push_cast; rfl))
  have hshortest : shortest m e = (f, power) := by
    unfold shortest
    simp only [ratio_eq]
    exact hf
  rw [hshortest]
  exact hrounds

/-! ### Reading a decimal -/

/-- A number that is rounded to one of 64 bits is neither tiny nor huge. -/
theorem Rounds.bounds {m : Nat} {e : Int} {x : ℚ} (hm : 0 < m) (hcan : Canonical m e)
    (h : Rounds m e x) : (10 : ℚ) ^ (-400 : Int) ≤ x ∧ x < 10 ^ (400 : Int) := by
  have hgap := lowGap_le m e
  have hpos : (1 : ℚ) ≤ m := by exact_mod_cast hm
  have hlt : (m : ℚ) + 1 ≤ 2 ^ 53 := by exact_mod_cast hcan.lt
  have hleast : (2 : ℚ) ^ (-1076 : Int) ≤ 2 ^ (e - 2) :=
    zpow_le_zpow_right₀ (by norm_num) (by have := hcan.ge; omega)
  have hgreatest : (2 : ℚ) ^ (e - 2) ≤ 2 ^ (969 : Int) :=
    zpow_le_zpow_right₀ (by norm_num) (by have := hcan.le; omega)
  have hquarter := two_zpow_pos (e - 2)
  constructor
  · have htiny : (2 : ℚ) ^ 1076 ≤ 10 ^ 400 := by
      exact_mod_cast (by decide +kernel : 2 ^ 1076 ≤ 10 ^ 400)
    calc (10 : ℚ) ^ (-400 : Int) ≤ 2 ^ (-1076 : Int) := inv_anti₀ (by positivity) htiny
      _ ≤ 2 ^ (e - 2) := hleast
      _ ≤ (4 * m - lowGap m e) * 2 ^ (e - 2) := le_mul_of_one_le_left hquarter.le (by linarith)
      _ ≤ x := h.1
  · have hhuge : (2 : ℚ) ^ 55 * 2 ^ 969 < 10 ^ 400 := by
      exact_mod_cast (by decide +kernel : 2 ^ 55 * 2 ^ 969 < 10 ^ 400)
    calc x ≤ (4 * m + 2) * 2 ^ (e - 2) := h.2.1
      _ ≤ 2 ^ 55 * 2 ^ (e - 2) := mul_le_mul_of_nonneg_right (by linarith) hquarter.le
      _ ≤ 2 ^ 55 * 2 ^ (969 : Int) := mul_le_mul_of_nonneg_left hgreatest (by norm_num)
      _ < 10 ^ (400 : Int) := hhuge

/-- A decimal is between powers of ten that its digits tell. -/
theorem decimal_bounds {n : Nat} (hn : 0 < n) (k : Int) :
    (10 : ℚ) ^ (digitCount n + k - 1) ≤ n * 10 ^ k ∧ (n : ℚ) * 10 ^ k < 10 ^ (digitCount n + k) := by
  have hcount := digitCount_pos n
  constructor
  · rw [show (digitCount n + k - 1 : Int) = (digitCount n - 1 : Nat) + k by omega,
      zpow_add₀ (by norm_num), zpow_natCast]
    exact mul_le_mul_of_nonneg_right (by exact_mod_cast pow_digitCount_le hn) (ten_zpow_pos k).le
  · rw [zpow_add₀ (by norm_num), zpow_natCast]
    exact mul_lt_mul_of_pos_right (by exact_mod_cast lt_pow_digitCount n) (ten_zpow_pos k)

/-- A decimal in the interval of a number is read as that number. -/
theorem ofDecimal_of_rounds (negative : Bool) {m n : Nat} {e k : Int} (hm : 0 < m)
    (hcan : Canonical m e) (h : Rounds m e (n * 10 ^ k)) :
    ofDecimal negative n k = .finite negative m e := by
  obtain ⟨htiny, hhuge⟩ := h.bounds hm hcan
  have hn : 0 < n := by
    rw [Nat.pos_iff_ne_zero]
    rintro rfl
    rw [Nat.cast_zero, zero_mul] at htiny
    exact absurd htiny (not_le.2 (ten_zpow_pos _))
  obtain ⟨hlow, hhigh⟩ := decimal_bounds hn k
  have hleast : -400 < digitCount n + k :=
    (zpow_lt_zpow_iff_right₀ (by norm_num : (1 : ℚ) < 10)).1 (htiny.trans_lt hhigh)
  have hgreatest : digitCount n + k - 1 < 400 :=
    (zpow_lt_zpow_iff_right₀ (by norm_num : (1 : ℚ) < 10)).1 (hlow.trans_lt hhuge)
  unfold ofDecimal
  dsimp only
  rw [if_neg (by omega), if_neg (by omega)]
  split
  · next hk =>
    refine ofRatio_of_rounds negative hm hcan Nat.one_pos ?_
    obtain ⟨j, rfl⟩ := Int.eq_ofNat_of_zero_le hk
    rw [Int.toNat_natCast, Nat.cast_one, div_one, Nat.pow_eq]
    push_cast
    rwa [zpow_natCast] at h
  · next hk =>
    refine ofRatio_of_rounds negative hm hcan (Nat.pow_pos (by decide)) ?_
    obtain ⟨j, hj⟩ := Int.eq_ofNat_of_zero_le (show 0 ≤ -k by omega)
    obtain rfl : k = -(j : Int) := by omega
    rw [hj, Int.toNat_natCast, Nat.pow_eq]
    push_cast
    rwa [zpow_neg, zpow_natCast, ← div_eq_mul_inv] at h

theorem isCanonical_ofDecimal (negative : Bool) (n : Nat) (k : Int) :
    IsCanonical (ofDecimal negative n k) := by
  unfold ofDecimal
  dsimp only
  split
  · exact isCanonical_zero negative
  · split
    · trivial
    · split
      · exact isCanonical_ofRatio negative _ Nat.one_pos
      · exact isCanonical_ofRatio negative _ (Nat.pow_pos (by decide))

end StakeSnapshot.Number.Binary64
