import StakeSnapshot.Number.Binary64
import Mathlib.Algebra.Order.Field.Rat
import Mathlib.Data.Rat.Cast.Order
import Mathlib.Tactic.Linarith
import Mathlib.Tactic.Positivity
import Mathlib.Tactic.FieldSimp
import Mathlib.Tactic.Ring

/-!
# The nearest binary number

`Rounds m e x` says that `x` lies in the interval of numbers whose nearest 64-bit number is
`m * 2 ^ e`. `ofRatio_of_rounds` is the one fact about rounding that reading a number back needs: a
quotient in that interval is rounded to that number, however it is written.
-/

namespace StakeSnapshot.Number

/-- A quotient at most half a unit away from `m` is rounded to `m`; a half needs an even `m`. -/
theorem roundHalfEven_eq {num den m : Nat} (hden : 0 < den)
    (hlow : 2 * (den * m) ≤ 2 * num + den) (hhigh : 2 * num ≤ 2 * (den * m) + den)
    (htie : m % 2 = 1 → 2 * (den * m) < 2 * num + den ∧ 2 * num < 2 * (den * m) + den) :
    roundHalfEven num den = m := by
  have hdiv := Nat.div_add_mod num den
  have hmod := Nat.mod_lt num hden
  -- a number at most half a unit away is the quotient or the next one
  have hm : m = num / den ∨ m = num / den + 1 := by
    rcases Nat.lt_trichotomy m (num / den) with h | h | h
    · have := Nat.mul_le_mul_left den (Nat.succ_le_of_lt h)
      rw [Nat.mul_succ] at this
      exfalso
      omega
    · exact .inl h
    · refine .inr (Nat.le_antisymm ?_ h)
      by_contra hmore
      have := Nat.mul_le_mul_left den (Nat.succ_le_of_lt (Nat.lt_of_not_le hmore))
      rw [Nat.mul_succ, Nat.mul_succ] at this
      omega
  unfold roundHalfEven
  dsimp only
  rcases hm with rfl | rfl
  · split
    · rfl
    · split
      · omega
      · rw [if_pos]
        omega
  · rw [Nat.mul_succ] at hlow hhigh htie
    split
    · omega
    · split
      · rfl
      · rw [if_neg]
        omega

theorem roundHalfEven_le {num den k : Nat} (hden : 0 < den) (h : num ≤ den * k) :
    roundHalfEven num den ≤ k := by
  have hnear := (roundHalfEven_near num hden).2
  by_contra hmore
  have := Nat.mul_le_mul_left den (Nat.succ_le_of_lt (Nat.lt_of_not_le hmore))
  rw [Nat.mul_succ] at this
  omega

theorem le_roundHalfEven {num den k : Nat} (hden : 0 < den) (h : den * k ≤ num) :
    k ≤ roundHalfEven num den := by
  have hnear := (roundHalfEven_near num hden).1
  by_contra hless
  have := Nat.mul_le_mul_left den (Nat.succ_le_of_lt (Nat.lt_of_not_le hless))
  rw [Nat.mul_succ] at this
  omega

namespace Binary64

/-- The fields of a finite number as they are kept. -/
structure Canonical (m : Nat) (e : Int) : Prop where
  lt : m < 2 ^ 53
  ge : -1074 ≤ e
  le : e ≤ 971
  full : 2 ^ 52 ≤ m ∨ e = -1074

/-- The distance from a number down to the next one, in halves of its last place: half as much at
a power of two. -/
def lowGap (m : Nat) (e : Int) : Nat := if m = Nat.pow 2 52 ∧ -1074 < e then 1 else 2

/-- `x` is rounded to `m * 2 ^ e`. -/
def Rounds (m : Nat) (e : Int) (x : ℚ) : Prop :=
  (4 * m - lowGap m e) * 2 ^ (e - 2) ≤ x ∧ x ≤ (4 * m + 2) * 2 ^ (e - 2) ∧
    (m % 2 = 1 → (4 * m - lowGap m e) * 2 ^ (e - 2) < x ∧ x < (4 * m + 2) * (2 : ℚ) ^ (e - 2))

theorem two_zpow_pos (k : Int) : (0 : ℚ) < 2 ^ k := zpow_pos (by norm_num) k

theorem ten_zpow_pos (k : Int) : (0 : ℚ) < 10 ^ k := zpow_pos (by norm_num) k

theorem scaled_snd_pos (num : Nat) {den : Nat} (h : 0 < den) (k : Int) :
    0 < (scaled num den k).2 := by
  unfold scaled
  split
  · exact h
  · exact Nat.mul_pos h (Nat.pow_pos (by decide))

/-- A scaled quotient as a number. -/
theorem scaled_eq (num den : Nat) (k : Int) :
    ((scaled num den k).1 : ℚ) / (scaled num den k).2 = num / den * 2 ^ k := by
  unfold scaled
  split
  · next h =>
    obtain ⟨n, rfl⟩ := Int.eq_ofNat_of_zero_le h
    rw [Int.toNat_natCast, zpow_natCast, Nat.pow_eq]
    push_cast
    ring
  · next h =>
    obtain ⟨n, hn⟩ := Int.eq_ofNat_of_zero_le (show 0 ≤ -k by omega)
    obtain rfl : k = -(n : Int) := by omega
    rw [neg_neg, Int.toNat_natCast, zpow_neg, zpow_natCast, Nat.pow_eq]
    push_cast
    rw [div_mul_eq_div_div, div_eq_mul_inv _ ((2 : ℚ) ^ n)]

/-- A number between powers of two, from its binary logarithms. -/
theorem log2_bounds {n : Nat} (h : 0 < n) :
    (2 : ℚ) ^ (n.log2 : Int) ≤ n ∧ (n : ℚ) < 2 ^ ((n.log2 : Int) + 1) := by
  constructor
  · rw [zpow_natCast]
    exact_mod_cast Nat.log2_self_le h.ne'
  · rw [← Nat.cast_succ, zpow_natCast]
    exact_mod_cast Nat.lt_log2_self

/-- The last place has 52 binary places before it, unless it is the least one. -/
theorem lastPlace_bounds {num den : Nat} (hnum : 0 < num) (hden : 0 < den) :
    ∃ E : Int, lastPlace num den = max E (-1074) ∧ (2 : ℚ) ^ (E + 52) ≤ num / den ∧
      (num : ℚ) / den < 2 ^ (E + 53) := by
  obtain ⟨hlow, hhigh⟩ := log2_bounds hnum
  obtain ⟨hlow', hhigh'⟩ := log2_bounds hden
  have hden' : (0 : ℚ) < den := by exact_mod_cast hden
  unfold lastPlace
  dsimp only
  generalize hguess : (num.log2 : Int) - den.log2 - 52 = guess
  -- the guess is right or one too large
  have habove : (2 : ℚ) ^ (guess + 51) < num / den := by
    rw [lt_div_iff₀ hden']
    calc (2 : ℚ) ^ (guess + 51) * den
        < 2 ^ (guess + 51) * 2 ^ ((den.log2 : Int) + 1) :=
          mul_lt_mul_of_pos_left hhigh' (two_zpow_pos _)
      _ = 2 ^ (num.log2 : Int) := by
        rw [← zpow_add₀ (by norm_num)]
        congr 1
        omega
      _ ≤ num := hlow
  have hbelow : (num : ℚ) / den < 2 ^ (guess + 53) := by
    rw [div_lt_iff₀ hden']
    calc (num : ℚ) < 2 ^ ((num.log2 : Int) + 1) := hhigh
      _ = 2 ^ (guess + 53) * 2 ^ (den.log2 : Int) := by
        rw [← zpow_add₀ (by norm_num)]
        congr 1
        omega
      _ ≤ 2 ^ (guess + 53) * den := mul_le_mul_of_nonneg_left hlow' (two_zpow_pos _).le
  have hpos : (0 : ℚ) < (scaled num den (-guess)).2 := by
    exact_mod_cast scaled_snd_pos num hden (-guess)
  have hcompare : (scaled num den (-guess)).1 < (scaled num den (-guess)).2 * Nat.pow 2 52 ↔
      (num : ℚ) / den < 2 ^ (guess + 52) := by
    rw [Nat.pow_eq, ← Nat.cast_lt (α := ℚ)]
    push_cast
    rw [mul_comm, ← div_lt_iff₀ hpos, scaled_eq, zpow_neg, ← div_eq_mul_inv,
      div_lt_iff₀ (two_zpow_pos guess), add_comm, zpow_add₀ (by norm_num)]
    norm_num
  by_cases h : (scaled num den (-guess)).1 < (scaled num den (-guess)).2 * Nat.pow 2 52
  · refine ⟨guess - 1, by rw [if_pos h], ?_, ?_⟩
    · rw [show guess - 1 + 52 = guess + 51 by omega]
      exact habove.le
    · rw [show guess - 1 + 53 = guess + 52 by omega]
      exact hcompare.1 h
  · exact ⟨guess, by rw [if_neg h], not_lt.1 (mt hcompare.2 h), hbelow⟩

theorem lowGap_le (m : Nat) (e : Int) : (lowGap m e : ℚ) ≤ 2 := by
  unfold lowGap
  split <;> norm_num

/-- The bounds of the interval in units of a quarter of the last place. -/
theorem rounds_iff {m : Nat} {e : Int} {x : ℚ} :
    Rounds m e x ↔ (4 * m - lowGap m e : ℚ) ≤ 4 * (x * 2 ^ (-e)) ∧ 4 * (x * 2 ^ (-e)) ≤ 4 * m + 2 ∧
      (m % 2 = 1 → (4 * m - lowGap m e : ℚ) < 4 * (x * 2 ^ (-e)) ∧
        4 * (x * 2 ^ (-e)) < 4 * m + 2) := by
  have hpos := two_zpow_pos (e - 2)
  have hx : x = 4 * (x * 2 ^ (-e)) * 2 ^ (e - 2) := by
    rw [zpow_sub₀ (by norm_num), zpow_neg]
    field_simp
    norm_num
  unfold Rounds
  nth_rewrite 1 2 3 4 [hx]
  simp only [mul_le_mul_iff_of_pos_right hpos, mul_lt_mul_iff_of_pos_right hpos]

/-- Rounding to a whole number, for the quotient as a number. -/
theorem roundHalfEven_of_ratio {a b m : Nat} {y : ℚ} (hb : 0 < b) (hy : (a : ℚ) / b = y)
    (hlow : 4 * m - 2 ≤ 4 * y) (hhigh : 4 * y ≤ 4 * m + 2)
    (htie : m % 2 = 1 → 4 * m - 2 < 4 * y ∧ 4 * y < 4 * (m : ℚ) + 2) :
    roundHalfEven a b = m := by
  have hb' : (0 : ℚ) < b := by exact_mod_cast hb
  have ha : (a : ℚ) = y * b := by rw [← hy, div_mul_cancel₀ _ hb'.ne']
  have hlow' : (2 * (b * m) : ℚ) ≤ 2 * a + b := by
    rw [ha]
    nlinarith
  have hhigh' : (2 * a : ℚ) ≤ 2 * (b * m) + b := by
    rw [ha]
    nlinarith
  refine roundHalfEven_eq hb (by exact_mod_cast hlow') (by exact_mod_cast hhigh') fun hodd => ?_
  obtain ⟨hl, hh⟩ := htie hodd
  have hl' : (2 * (b * m) : ℚ) < 2 * a + b := by
    rw [ha]
    nlinarith
  have hh' : (2 * a : ℚ) < 2 * (b * m) + b := by
    rw [ha]
    nlinarith
  exact ⟨by exact_mod_cast hl', by exact_mod_cast hh'⟩

theorem carried_of_canonical (negative : Bool) {m : Nat} {e : Int} (h : Canonical m e) :
    carried negative m e = .finite negative m e := by
  have hm : m ≠ Nat.pow 2 53 := h.lt.ne
  have he : ¬ 971 < e := not_lt.2 h.le
  rw [carried, if_neg hm, if_neg he]

/-- A power of two below which a number is found in the place before the last. -/
theorem eq_of_lastPlace_ne {m : Nat} {e E : Int} {x : ℚ} (hcan : Canonical m e)
    (h : Rounds m e x) (hlow : (2 : ℚ) ^ (E + 52) ≤ x) (hhigh : x < 2 ^ (E + 53))
    (hne : e ≠ max E (-1074)) : m = 2 ^ 52 ∧ -1074 < e ∧ E = e - 1 := by
  obtain ⟨hl, hh, -⟩ := rounds_iff.1 h
  have hgap := lowGap_le m e
  have hm : (m : ℚ) ≤ 2 ^ 53 - 1 := by
    have := hcan.lt
    rw [le_sub_iff_add_le]
    exact_mod_cast this
  -- a power of two below or above `x`, in units of the last place
  have habove : ∀ k : Nat, (k : Int) ≤ E + 52 - e → (2 : ℚ) ^ k ≤ x * 2 ^ (-e) := fun k hk => by
    rw [zpow_neg, le_mul_inv_iff₀ (two_zpow_pos e), ← zpow_natCast, ← zpow_add₀ (by norm_num)]
    exact (zpow_le_zpow_right₀ (by norm_num) (by omega)).trans hlow
  have hbelow : ∀ k : Nat, E + 53 - e ≤ k → x * 2 ^ (-e) < (2 : ℚ) ^ k := fun k hk => by
    rw [zpow_neg, mul_inv_lt_iff₀ (two_zpow_pos e), ← zpow_natCast, ← zpow_add₀ (by norm_num)]
    exact hhigh.trans_le (zpow_le_zpow_right₀ (by norm_num) (by omega))
  have hE : E ≤ e - 1 := by
    by_contra hmore
    rcases Int.lt_or_le e E with hlt | hle
    · linarith [habove 53 (by omega)]
    · have := hcan.ge
      omega
  have hleast : -1074 < e := by
    have := hcan.ge
    omega
  have hfull : (2 : ℚ) ^ 52 ≤ m := by exact_mod_cast hcan.full.resolve_right (by omega)
  have hpower : m = 2 ^ 52 := by
    refine Nat.le_antisymm ?_ (by exact_mod_cast hfull)
    by_contra hmore
    have hmore : (2 : ℚ) ^ 52 + 1 ≤ m := by exact_mod_cast Nat.lt_of_not_le hmore
    linarith [hbelow 52 (by omega)]
  refine ⟨hpower, hleast, ?_⟩
  by_contra hless
  linarith [hbelow 51 (by omega)]

/-- A quotient in the interval of a number is rounded to it. -/
theorem ofRatio_of_rounds (negative : Bool) {m num den : Nat} {e : Int} (hm : 0 < m)
    (hcan : Canonical m e) (hden : 0 < den) (h : Rounds m e (num / den)) :
    ofRatio negative num den = .finite negative m e := by
  have hgap := lowGap_le m e
  have hm' : (1 : ℚ) ≤ m := by exact_mod_cast hm
  have hnum : 0 < num := by
    rw [Nat.pos_iff_ne_zero]
    rintro rfl
    have hlow := h.1
    rw [Nat.cast_zero, zero_div] at hlow
    have := mul_pos (show (0 : ℚ) < 4 * m - lowGap m e by linarith) (two_zpow_pos (e - 2))
    linarith
  obtain ⟨E, hplace, hlow, hhigh⟩ := lastPlace_bounds hnum hden
  rw [ofRatio, if_neg hnum.ne']
  dsimp only
  rw [hplace]
  have hpos := scaled_snd_pos num hden (-max E (-1074))
  have hratio := scaled_eq num den (-max E (-1074))
  obtain ⟨hl, hh, htie⟩ := rounds_iff.1 h
  -- the place is that of the number, or one less just below a power of two, where rounding carries
  by_cases he : e = max E (-1074)
  · rw [← he] at hratio hpos ⊢
    rw [roundHalfEven_of_ratio hpos hratio (by linarith) hh
      (fun hodd => ⟨by linarith [(htie hodd).1], (htie hodd).2⟩)]
    exact carried_of_canonical negative hcan
  · obtain ⟨rfl, hleast, rfl⟩ := eq_of_lastPlace_ne hcan h hlow hhigh he
    have hgap : lowGap (2 ^ 52) e = 1 := if_pos ⟨rfl, hleast⟩
    rw [max_eq_left (by omega)] at hratio hpos ⊢
    have hdouble : (num / den * 2 ^ (-(e - 1)) : ℚ) = 2 * (num / den * 2 ^ (-e)) := by
      rw [neg_sub, sub_eq_add_neg, zpow_add₀ (by norm_num)]
      ring
    have hsmall : (num / den * 2 ^ (-e) : ℚ) < 2 ^ 52 := by
      rw [zpow_neg, mul_inv_lt_iff₀ (two_zpow_pos e), ← zpow_natCast, ← zpow_add₀ (by norm_num)]
      exact hhigh.trans_eq (by congr 1; omega)
    rw [hdouble] at hratio
    rw [hgap] at hl
    push_cast at hl
    rw [roundHalfEven_of_ratio (m := 2 ^ 53) hpos hratio
      (by push_cast; linarith) (by push_cast; linarith) (fun hodd => absurd hodd (by decide))]
    have hle := hcan.le
    have hnext : ¬ 971 < e - 1 + 1 := by omega
    rw [carried, if_pos Nat.pow_eq.symm, if_neg hnext, sub_add_cancel]
    rfl

/-! ### What rounding gives -/

/-- Numbers of which the parts are kept as `Canonical` says. -/
def IsCanonical : Binary64 → Prop
  | .finite _ m e => Canonical m e
  | .infinite _ => True
  | .nan => True

theorem isCanonical_zero (negative : Bool) : IsCanonical (.finite negative 0 (-1074)) :=
  ⟨by norm_num, by omega, by omega, .inr rfl⟩

theorem isCanonical_carried (negative : Bool) {m : Nat} {e : Int} (hm : m ≤ 2 ^ 53)
    (he : -1074 ≤ e) (hfull : 2 ^ 52 ≤ m ∨ e = -1074) : IsCanonical (carried negative m e) := by
  unfold carried
  split
  · split
    · trivial
    · exact ⟨by norm_num, by omega, by omega, .inl (Nat.le_of_eq Nat.pow_eq.symm)⟩
  · next hne =>
    split
    · trivial
    · exact ⟨Nat.lt_of_le_of_ne hm hne, he, by omega, hfull⟩

theorem isCanonical_ofRatio (negative : Bool) (num : Nat) {den : Nat} (hden : 0 < den) :
    IsCanonical (ofRatio negative num den) := by
  rw [ofRatio]
  split
  · exact isCanonical_zero negative
  · next hnum =>
    obtain ⟨E, hplace, hlow, hhigh⟩ := lastPlace_bounds (Nat.pos_of_ne_zero hnum) hden
    dsimp only
    rw [hplace]
    have hpos := scaled_snd_pos num hden (-max E (-1074))
    have hpos' : (0 : ℚ) < (scaled num den (-max E (-1074))).2 := by exact_mod_cast hpos
    have hratio := scaled_eq num den (-max E (-1074))
    rw [div_eq_iff hpos'.ne'] at hratio
    refine isCanonical_carried negative (roundHalfEven_le hpos ?_) (le_max_right _ _) ?_
    · have hle : (num / den * 2 ^ (-max E (-1074)) : ℚ) ≤ 2 ^ 53 := by
        rw [zpow_neg, mul_inv_le_iff₀ (two_zpow_pos _), ← zpow_natCast, ← zpow_add₀ (by norm_num)]
        have hmax := le_max_left E (-1074)
        exact hhigh.le.trans (zpow_le_zpow_right₀ (by norm_num) (by omega))
      rw [← Nat.cast_le (α := ℚ), hratio]
      push_cast
      rw [mul_comm]
      exact mul_le_mul_of_nonneg_left hle hpos'.le
    -- a place above the least one has a full significand, at the least one any will do
    · rcases le_total (-1074) E with hE | hE
      · left
        have hle : (2 : ℚ) ^ 52 ≤ num / den * 2 ^ (-max E (-1074)) := by
          rw [max_eq_left hE, zpow_neg, le_mul_inv_iff₀ (two_zpow_pos _), ← zpow_natCast,
            ← zpow_add₀ (by norm_num)]
          exact (zpow_le_zpow_right₀ (by norm_num) (by omega)).trans hlow
        refine le_roundHalfEven hpos ?_
        rw [← Nat.cast_le (α := ℚ), hratio]
        push_cast
        rw [mul_comm]
        exact mul_le_mul_of_nonneg_right hle hpos'.le
      · exact .inr (max_eq_right hE)

theorem carried_ne_infinite (negative sign : Bool) (m : Nat) {e : Int} (he : e + 1 ≤ 971) :
    carried negative m e ≠ .infinite sign := by
  unfold carried
  split
  · rw [if_neg (by omega)]
    rintro ⟨⟩
  · rw [if_neg (by omega)]
    rintro ⟨⟩

/-- A quotient below a power of two that is a number is not rounded to infinity. -/
theorem ofRatio_ne_infinite (negative sign : Bool) {num den k : Nat} (hden : 0 < den)
    (hk : k ≤ 1023) (h : num < den * 2 ^ k) : ofRatio negative num den ≠ .infinite sign := by
  rw [ofRatio]
  split
  · rintro ⟨⟩
  · next hnum =>
    obtain ⟨E, hplace, hlow, -⟩ := lastPlace_bounds (Nat.pos_of_ne_zero hnum) hden
    have hden' : (0 : ℚ) < den := by exact_mod_cast hden
    have hquotient : (num : ℚ) / den < 2 ^ (k : Int) := by
      rw [div_lt_iff₀ hden', mul_comm]
      exact_mod_cast h
    have hE : E + 52 < k := (zpow_lt_zpow_iff_right₀ (by norm_num)).1 (hlow.trans_lt hquotient)
    exact carried_ne_infinite negative sign _ (by omega)

end Binary64

end StakeSnapshot.Number
