import Mathlib.Algebra.Order.Floor.Semifield
import Mathlib.Data.List.DropRight
import StakeSnapshot.Proofs.Number.Decimal
import StakeSnapshot.Proofs.Number.HalfEven
import StakeSnapshot.Report.Amount

/-!
# Amounts read back

The text of an amount is read as the amount in coins, rounded to 28 significant digits and to the wanted
places then (`amounts_read_back`). Digits are lost in the two roundings only: what is left out at the end
of the text are zeros of the fraction, and the point if no digit is behind it (`amountDigits_eq`).
-/

namespace StakeSnapshot.Report
open Number

/-- `s` is the sign of `n`, the whole part of `x` and the digits of a fraction, and it is read as `x`. -/
structure Denotes (n : Int) (x : ℚ) (fraction s : List Char) : Prop where
  reads : decimal? s = some x
  text : s = signed n (pointed ⌊|x|⌋₊ fraction)
  digits : ∀ c ∈ fraction, c.isDigit = true

/-! ### The end of a text -/

theorem trimEnd_concat (c d : Char) (s : List Char) :
    trimEnd c (s ++ [d]) = if d == c then trimEnd c s else s ++ [d] :=
  List.rdropWhile_concat (· == c) s d

theorem isPrefix_trimEnd (c : Char) (s : List Char) : trimEnd c s <+: s :=
  List.rdropWhile_prefix (· == c) s

theorem getLast?_trimEnd (c : Char) (s : List Char) : (trimEnd c s).getLast? ≠ some c := by
  induction s using List.reverseRecOn with
  | nil => simp [trimEnd]
  | append_singleton s d ih =>
    rw [trimEnd_concat]
    split
    · exact ih
    · next hne =>
      rw [List.getLast?_concat]
      rintro ⟨⟩
      exact hne (beq_self_eq_true c)

/-- Nothing is left out before another character. -/
theorem trimEnd_append_cons {c d : Char} (h : d ≠ c) (s t : List Char) :
    trimEnd c (s ++ d :: t) = s ++ d :: trimEnd c t := by
  induction t using List.reverseRecOn with
  | nil => rw [trimEnd_concat, if_neg (mt beq_iff_eq.1 h)]; rfl
  | append_singleton t e ih =>
    rw [← List.cons_append, ← List.append_assoc, trimEnd_concat, ih, trimEnd_concat]
    split <;> simp

theorem trimEnd_eq_self {c : Char} {s : List Char} (h : s.getLast? ≠ some c) : trimEnd c s = s := by
  induction s using List.reverseRecOn with
  | nil => rfl
  | append_singleton s d _ =>
    rw [List.getLast?_concat, ne_eq, Option.some.injEq] at h
    rw [trimEnd_concat, if_neg (mt beq_iff_eq.1 h)]

/-- Zeros at the end of a fraction do not count. -/
theorem fractionValue_trimEnd (ds : List Char) : fractionValue (trimEnd '0' ds) = fractionValue ds := by
  induction ds using List.reverseRecOn with
  | nil => rfl
  | append_singleton ds d ih =>
    rw [trimEnd_concat]
    split
    · next h =>
      obtain rfl := beq_iff_eq.1 h
      rw [ih]
      simp only [fractionValue, Nat.ofDigitChars_append, Nat.ofDigitChars_cons, Nat.ofDigitChars_nil,
        List.length_append, List.length_singleton, Nat.sub_self, Nat.add_zero, pow_succ]
      push_cast
      field_simp
    · rfl

/-! ### The text of a number -/

theorem decimal?_signed (n : Int) (whole : Nat) {fraction : List Char}
    (h : ∀ c ∈ fraction, c.isDigit = true) :
    decimal? (signed n (pointed whole fraction)) =
      some (if n < 0 then -(whole + fractionValue fraction) else whole + fractionValue fraction) := by
  unfold signed
  split
  · rw [decimal?, magnitude?_pointed whole h, Option.map_some]
  · rw [decimal?_pointed, magnitude?_pointed whole h]

/-- The digits of a quotient by a power of ten and of its remainder show the quotient. -/
theorem denotes_pointed (n : Int) {places m : Nat} {x : ℚ} {fraction : List Char}
    (hx : x = if n < 0 then -(m / 10 ^ places : ℚ) else m / 10 ^ places)
    (hdigits : ∀ c ∈ fraction, c.isDigit = true)
    (hvalue : fractionValue fraction = fractionValue (lastDigits places m)) :
    Denotes n x fraction (signed n (pointed (m / 10 ^ places) fraction)) := by
  have hparts : (m / 10 ^ places : Nat) + fractionValue fraction = (m : ℚ) / 10 ^ places := by
    rw [hvalue, fractionValue, ofDigitChars_lastDigits, length_lastDigits, eq_div_iff (by positivity),
      add_mul, div_mul_cancel₀ _ (by positivity)]
    have := Nat.div_add_mod' m (10 ^ places)
    exact_mod_cast this
  have hnonneg : (0 : ℚ) ≤ m / 10 ^ places := by positivity
  have habs : |x| = m / 10 ^ places := by
    rw [hx]
    split
    · rw [abs_neg, abs_of_nonneg hnonneg]
    · exact abs_of_nonneg hnonneg
  have hwhole : ⌊|x|⌋₊ = m / 10 ^ places := by
    rw [habs]
    exact_mod_cast Nat.floor_div_eq_div (K := ℚ) m (10 ^ places)
  exact {
    reads := by rw [decimal?_signed n _ hdigits, hparts, hx]
    text := by rw [hwhole]
    digits := hdigits }

theorem signed_eq (n : Int) (s : List Char) : signed n s = (if n < 0 then ['-'] else []) ++ s := by
  unfold signed
  split <;> rfl

theorem getLast?_append_ne_point {s : List Char} (hne : s ≠ []) (hs : ∀ c ∈ s, c.isDigit = true)
    (t : List Char) : (t ++ s).getLast? ≠ some '.' := by
  rw [List.getLast?_append_of_ne_nil t hne]
  exact fun h => point_notMem hs (List.mem_of_getLast? h)

/-! ### Amounts in coins -/

/-- An amount in units of its last place. -/
def roundedUnits (places n : Nat) : Nat :=
  roundHalfEven (significant precision n * Nat.pow 10 places) (Nat.pow 10 scaleDigits)

/-- The two roundings of an amount in coins. -/
theorem toPlaces_toSignificant (places n : Nat) :
    toPlaces places (toSignificant precision (n / 10 ^ 18)) =
      roundedUnits places n / 10 ^ places := by
  rw [toSignificant_div_pow, toPlaces_div_pow]
  rfl

theorem scaledText_eq {places : Nat} (h : 0 < places) (n : Nat) :
    scaledText places n = digits (roundedUnits places n / 10 ^ places) ++
      '.' :: lastDigits places (roundedUnits places n) :=
  fixedPoint_eq h _

/-- The digits of an amount behind the point, without the zeros at their end. -/
def shownFraction (places n : Nat) : List Char :=
  trimEnd '0' (lastDigits places (roundedUnits places n))

theorem isDigit_of_mem_shownFraction {places n : Nat} {c : Char} (h : c ∈ shownFraction places n) :
    c.isDigit = true :=
  isDigit_of_mem_lastDigits ((isPrefix_trimEnd '0' _).subset h)

theorem length_shownFraction_le (places n : Nat) : (shownFraction places n).length ≤ places := by
  have hprefix := (isPrefix_trimEnd '0' (lastDigits places (roundedUnits places n))).length_le
  rwa [length_lastDigits] at hprefix

/-- Of an amount its sign is left, the whole part and the fraction without the zeros at its end. -/
theorem amountDigits_eq {places : Nat} (h : 0 < places) (n : Int) :
    amountDigits places n = signed n (pointed (roundedUnits places n.natAbs / 10 ^ places)
      (shownFraction places n.natAbs)) := by
  have hpoint : '.' ≠ '0' := by decide
  have hwhole := getLast?_append_ne_point (digits_ne_nil (roundedUnits places n.natAbs / 10 ^ places))
    (fun _ hc => isDigit_of_mem_digits hc) (if n < 0 then ['-'] else [])
  rw [amountDigits, scaledText_eq h, signed_eq, signed_eq, ← List.append_assoc,
    trimEnd_append_cons hpoint, ← shownFraction, pointed, ← List.append_assoc]
  by_cases hnil : shownFraction places n.natAbs = []
  · rw [if_pos hnil, hnil, trimEnd_concat, if_pos (beq_self_eq_true '.'), trimEnd_eq_self hwhole,
      List.append_nil]
  · rw [if_neg hnil, List.append_cons]
    exact trimEnd_eq_self
      (getLast?_append_ne_point hnil (fun _ hc => isDigit_of_mem_shownFraction hc) _)

/-- An odd function of an integer, from its values at natural numbers. -/
theorem eq_of_natAbs {f : ℚ → ℚ} (hodd : ∀ x, f (-x) = -f x) (n : Int) :
    f n = if n < 0 then -f n.natAbs else f n.natAbs := by
  split
  · next h => rw [← hodd, ← Int.cast_natCast, Int.ofNat_natAbs_of_nonpos h.le, Int.cast_neg, neg_neg]
  · next h => rw [← Int.cast_natCast, Int.natAbs_of_nonneg (not_lt.1 h)]

/-- Up to 28 digits nothing is lost by keeping 28. -/
theorem toSignificant_of_lt {n : Int} (h : |n| < 10 ^ 28) :
    toSignificant precision (n / 10 ^ 18) = n / 10 ^ 18 := by
  have hnat : n.natAbs < 10 ^ precision := by
    rw [Int.abs_eq_natAbs] at h
    exact_mod_cast h
  have hzero := eq_of_natAbs (f := fun x => toSignificant precision (x / 10 ^ 18) - x / 10 ^ 18)
    (fun x => by rw [neg_div, toSignificant_neg]; ring) n
  rw [toSignificant_div_pow, significant_of_lt (by decide) hnat, sub_self, neg_zero, ite_self] at hzero
  exact sub_eq_zero.1 hzero

theorem denotes_amountDigits {places : Nat} (h : 0 < places) (n : Int) :
    Denotes n (toPlaces places (toSignificant precision (n / 10 ^ 18)))
      (shownFraction places n.natAbs) (amountDigits places n) := by
  have hx := eq_of_natAbs
    (f := fun x => toPlaces places (toSignificant precision (x / 10 ^ 18)))
    (fun x => by rw [neg_div, toSignificant_neg, toPlaces_neg]) n
  rw [toPlaces_toSignificant] at hx
  rw [amountDigits_eq h]
  exact denotes_pointed n hx (fun _ hc => isDigit_of_mem_shownFraction hc) (fractionValue_trimEnd _)

/-- The first rounding makes a half of what is just below one. -/
example : amountDigits 1 10000000000349999999999999999 = "10000000000.4".toList := by decide

/-- A percentage has both digits behind the point, zeros included. -/
theorem denotes_percentage {n : Int} (h : |n| < 10 ^ 26) :
    Denotes n (toPlaces 2 (n / 10 ^ 16)) (lastDigits 2 (roundedUnits 2 (n.natAbs * 100)))
      (signed n (scaledText 2 (n.natAbs * 100))) := by
  have hnat : n.natAbs * 100 < 10 ^ precision := by
    rw [Int.abs_eq_natAbs] at h
    have : n.natAbs < 10 ^ 26 := by exact_mod_cast h
    unfold precision
    omega
  have hhundredths : ((n.natAbs * 100 : Nat) : ℚ) / 10 ^ 18 = n.natAbs / 10 ^ 16 := by
    push_cast
    ring
  have hvalue := toPlaces_toSignificant 2 (n.natAbs * 100)
  rw [toSignificant_div_pow, significant_of_lt (by decide) hnat, hhundredths] at hvalue
  have hx := eq_of_natAbs (f := fun x => toPlaces 2 (x / 10 ^ 16))
    (fun x => by rw [neg_div, toPlaces_neg]) n
  rw [hvalue] at hx
  have hne : lastDigits 2 (roundedUnits 2 (n.natAbs * 100)) ≠ [] :=
    List.ne_nil_of_length_pos (by rw [length_lastDigits]; decide)
  have hdenotes := denotes_pointed n hx (fun _ hc => isDigit_of_mem_lastDigits hc) rfl
  rwa [pointed, if_neg hne, ← scaledText_eq (by decide)] at hdenotes

/-! ### Where there is a text -/

theorem isInRange_iff (scale n : Nat) :
    isInRange scale n = true ↔ significant precision n < 10 ^ (wholeLimit + scale) := by
  have hpositive : 0 < wholeLimit + scale := Nat.add_pos_left (by decide) scale
  rw [isInRange, decide_eq_true_iff, digitCount_le_iff hpositive]

theorem hasFormat_iff (places n : Int) :
    hasFormat places n = true ↔
      places < 10 ^ 18 ∧ (n = 0 ∨ wholeDigits n.natAbs + places ≤ 10 ^ 18) := by
  rw [hasFormat, Bool.and_eq_true, Bool.or_eq_true, decide_eq_true_iff, beq_iff_eq,
    decide_eq_true_iff]
  exact Iff.rfl

/-- The hundredfold of a fraction of up to 26 digits is in range. -/
theorem isInRange_hundredfold {n : Int} (h : |n| < 10 ^ 26) :
    isInRange 0 (n.natAbs * 100) = true := by
  have hnat : n.natAbs * 100 < 10 ^ precision := by
    rw [Int.abs_eq_natAbs] at h
    have : n.natAbs < 10 ^ 26 := by exact_mod_cast h
    unfold precision
    omega
  rw [isInRange_iff, significant_of_lt (by decide) hnat]
  exact hnat.trans (Nat.pow_lt_pow_right (by decide) (by decide))

/-- There is an amount exactly if its quotient is in range and there is a format for it. -/
theorem exists_amount_iff (unit : String) {places : Int} (h : 0 ≤ places) (n : Int) :
    (∃ text, amount unit places n = .ok text) ↔
      isInRange scaleDigits n.natAbs = true ∧ hasFormat places n = true := by
  unfold amount
  cases isInRange scaleDigits n.natAbs <;> cases hasFormat places n <;> simp [not_lt.2 h]

theorem amount_eq (unit : String) {places : Nat} {n : Int}
    (hrange : isInRange scaleDigits n.natAbs = true) (hformat : hasFormat places n = true) :
    amount unit places n = .ok (amountText unit places n) := by
  have hnonneg : ¬ (places : Int) < 0 := by omega
  rw [amount, hrange, hformat, Int.toNat_natCast, if_neg (by decide), if_neg hnonneg,
    if_neg (by decide)]

theorem amount_of_large (unit : String) (places : Int) {n : Nat}
    (h : isInRange scaleDigits n = false) : amount unit places n = .error .amountRange := by
  rw [amount, Int.natAbs_natCast, h]
  rfl

theorem roundHalfEven_mul_self (n : Nat) {den : Nat} (h : 0 < den) :
    roundHalfEven (n * den) den = n := by
  rw [roundHalfEven, Nat.mul_div_cancel n h, Nat.mul_mod_left, if_pos (by omega)]

/-- Nothing is lost of a large power of ten. -/
theorem significant_pow {k : Nat} (h : precision ≤ k + 1) : significant precision (10 ^ k) = 10 ^ k := by
  have hcount : digitCount (10 ^ k) = k + 1 := by
    have hle := (digitCount_le_iff (Nat.succ_pos k)).2 (Nat.pow_lt_pow_right (by decide : 1 < 10)
      (Nat.lt_succ_self k))
    rcases Nat.eq_zero_or_pos k with rfl | hk
    · decide
    · have := mt (digitCount_le_iff hk).1 (lt_irrefl (10 ^ k))
      omega
  have hsplit : 10 ^ k = 10 ^ (precision - 1) * 10 ^ (k + 1 - precision) := by
    rw [← pow_add]
    congr 1
    have : 0 < precision := by decide
    omega
  rw [significant, hcount]
  simp only [Nat.pow_eq]
  conv_lhs => rw [hsplit]
  rw [roundHalfEven_mul_self _ (by positivity), ← hsplit]

/-- The text of an amount is its sign, its whole part and at most `places` digits of the fraction, the
last of them not a zero. It is read as the amount in coins, rounded to 28 significant digits and to the
places then; amounts of up to 28 digits are only rounded once. There is a text as long as the rounded
amount has at most a million digits in front of the point, and with the places not more than a format
allows; otherwise there is a fault. The text of a fraction is the percentage rounded to two places, with
both of its digits. -/
theorem amounts_read_back :
    (∀ (unit : String) (places : Nat) (n : Int), 1 ≤ places →
      significant precision n.natAbs < 10 ^ (wholeLimit + scaleDigits) →
      (places : Int) < 10 ^ 18 ∧ (n = 0 ∨ (wholeDigits n.natAbs + places : Int) ≤ 10 ^ 18) →
      ∃ text fraction, amount unit places n = .ok (String.ofList text ++ " " ++ unit) ∧
        Denotes n (toPlaces places (toSignificant 28 (n / 10 ^ 18))) fraction text ∧
        (|n| < 10 ^ 28 → Denotes n (toPlaces places (n / 10 ^ 18)) fraction text) ∧
        fraction.length ≤ places ∧ fraction.getLast? ≠ some '0') ∧
    (∀ (unit : String) (places n : Int), 0 ≤ places →
      ¬ (significant precision n.natAbs < 10 ^ (wholeLimit + scaleDigits) ∧
        places < 10 ^ 18 ∧ (n = 0 ∨ wholeDigits n.natAbs + places ≤ 10 ^ 18)) →
      ∃ fault, amount unit places n = .error fault) ∧
    (∀ n : Int, |n| < 10 ^ 26 → ∃ text fraction,
      percentage n = .ok (String.ofList (text ++ ['%'])) ∧
      Denotes n (toPlaces 2 (n / 10 ^ 16)) fraction text ∧ fraction.length = 2) := by
  refine ⟨fun unit places n hplaces hrange hformat => ?_, fun unit places n hplaces hnot => ?_,
    fun n h => ?_⟩
  · have hdenotes := denotes_amountDigits hplaces n
    refine ⟨amountDigits places n, shownFraction places n.natAbs, ?_, hdenotes, fun h => ?_,
      length_shownFraction_le places _, getLast?_trimEnd '0' _⟩
    · exact amount_eq unit ((isInRange_iff _ _).2 hrange) ((hasFormat_iff _ _).2 hformat)
    · rwa [toSignificant_of_lt h] at hdenotes
  -- an amount with a text is in range and has a format
  · cases hamount : amount unit places n with
    | error fault => exact ⟨fault, rfl⟩
    | ok text =>
      obtain ⟨hrange, hformat⟩ := (exists_amount_iff unit hplaces n).1 ⟨text, hamount⟩
      exact absurd ⟨(isInRange_iff _ _).1 hrange, (hasFormat_iff _ _).1 hformat⟩ hnot
  · refine ⟨_, _, ?_, denotes_percentage h, length_lastDigits 2 _⟩
    rw [percentage, if_pos (isInRange_hundredfold h), percentageText]

theorem amounts_read_back_atFourPlaces :
    (∃ text fraction, amount stakeUnit 4 (-16 * 10 ^ 17) =
        .ok (String.ofList text ++ " " ++ stakeUnit) ∧
      Denotes (-16 * 10 ^ 17) (toPlaces 4 ((-16 * 10 ^ 17 : Int) / 10 ^ 18)) fraction text ∧
      fraction.length ≤ 4 ∧ fraction.getLast? ≠ some '0') ∧
    amount stakeUnit 4 (-16 * 10 ^ 17) = .ok "-1.6 RPL" ∧
    (∃ fault, amount stakeUnit (10 ^ 18) 1 = .error fault) ∧
    (∃ text fraction, percentage (10 ^ 17) = .ok (String.ofList (text ++ ['%'])) ∧
      Denotes (10 ^ 17) (toPlaces 2 ((10 ^ 17 : Int) / 10 ^ 16)) fraction text ∧
      fraction.length = 2) ∧
    percentage (10 ^ 17) = .ok "10.00%" := by
  obtain ⟨hamount, hlimit, hpercentage⟩ := amounts_read_back
  have hrange : significant precision (-16 * 10 ^ 17 : Int).natAbs < 10 ^ (wholeLimit + scaleDigits) :=
    (isInRange_iff scaleDigits _).1 (by decide)
  obtain ⟨text, fraction, htext, -, hdenotes, hfraction⟩ :=
    hamount stakeUnit 4 (-16 * 10 ^ 17) (by decide) hrange (by decide)
  have hhuge : ∃ fault, amount stakeUnit (10 ^ 18) 1 = .error fault :=
    hlimit stakeUnit (10 ^ 18) 1 (by decide) fun h => absurd h.2.1 (lt_irrefl _)
  exact ⟨⟨text, fraction, htext, hdenotes (by decide), hfraction⟩, by decide, hhuge,
    hpercentage (10 ^ 17) (by decide), by decide⟩

/-- There is no text with as many places as the limit, none of an amount with two digits in front of the
point and all but one of these places, and none of an amount of too many digits. -/
theorem amount_without_text :
    amount stakeUnit (10 ^ 18) 1 = .error .hugePlaces ∧
    amount stakeUnit (10 ^ 18 - 1) (10 ^ 19) = .error .hugePlaces ∧
    amount stakeUnit 4 (10 ^ (wholeLimit + scaleDigits) : Nat) = .error .amountRange ∧
    ¬ ∀ (unit : String) (places : Nat) (n : Int), 1 ≤ places → |n| < 10 ^ 28 →
      ∃ text, amount unit places n = .ok (String.ofList text ++ " " ++ unit) ∧
        decimal? text = some (toPlaces places (n / 10 ^ 18)) := by
  have hfault : amount stakeUnit (10 ^ 18) 1 = .error .hugePlaces := by decide
  have hlarge : isInRange scaleDigits (10 ^ (wholeLimit + scaleDigits)) = false := by
    refine Bool.eq_false_iff.2 fun h => ?_
    have hless := (isInRange_iff _ _).1 h
    rw [significant_pow (by decide)] at hless
    exact lt_irrefl _ hless
  refine ⟨hfault, by decide, ?_, fun h => ?_⟩
  · exact amount_of_large stakeUnit 4 hlarge
  · obtain ⟨text, htext, -⟩ := h stakeUnit (10 ^ 18) 1 (by decide) (by decide)
    exact absurd (hfault.symm.trans htext) (by rintro ⟨⟩)

end StakeSnapshot.Report
