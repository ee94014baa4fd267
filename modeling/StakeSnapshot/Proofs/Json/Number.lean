import StakeSnapshot.Json.Reader
import StakeSnapshot.Json.Writer
import StakeSnapshot.Proofs.Number.Shortest
import Mathlib.Data.List.TakeDrop
import Mathlib.Data.List.TakeWhile

/-!
# Numbers in JSON

What is written for a number is read back, as long as what follows cannot go on with it
(`Ends`): nothing does that in a list or a record.
-/

namespace StakeSnapshot.Json
open Number

/-! ### Runs of digits -/

theorem isDigit_eq (c : Char) : isDigit c = c.isDigit := by
  unfold isDigit Char.isDigit
  rfl

/-- A text that does not go on with a number. -/
def Ends (rest : List Char) : Prop :=
  ∀ c ∈ rest.head?, isDigit c = false ∧ c ≠ '.' ∧ c ≠ 'e' ∧ c ≠ 'E'

theorem ends_nil : Ends [] := by
  rintro c ⟨⟩

theorem span_digits {ds rest : List Char} (hds : ∀ c ∈ ds, isDigit c = true)
    (hrest : ∀ c ∈ rest.head?, isDigit c = false) : (ds ++ rest).span isDigit = (ds, rest) := by
  rw [List.span_eq_takeWhile_dropWhile]
  induction ds with
  | nil =>
    cases rest with
    | nil => rfl
    | cons c rest => simp [hrest c rfl]
  | cons c ds ih =>
    have hc := hds c List.mem_cons_self
    have := ih fun d hd => hds d (List.mem_cons_of_mem c hd)
    simp_all

theorem ofDigits_eq (s : List Char) : ofDigits s = Nat.ofDigitChars 10 s 0 :=
  Nat.ofDigitChars_eq_foldl.symm

@[simp] theorem ofDigits_digits (n : Nat) : ofDigits (digits n) = n := by
  rw [ofDigits_eq]
  exact Nat.ofDigitChars_ten_toDigits

theorem ofDigits_append (s t : List Char) :
    ofDigits (s ++ t) = ofDigits s * 10 ^ t.length + ofDigits t := by
  rw [ofDigits_eq, ofDigits_eq, ofDigits_eq, Nat.ofDigitChars_append,
    Nat.ofDigitChars_eq_ofDigitChars_zero, Nat.mul_comm]

theorem ofDigits_replicate_zero (n : Nat) : ofDigits (List.replicate n '0') = 0 := by
  rw [ofDigits_eq, Nat.ofDigitChars_replicate_zero, Nat.mul_zero]

/-! ### The parts of a number -/

theorem wholeDigits?_zero (rest : List Char) : wholeDigits? ('0' :: rest) = some (['0'], rest) := rfl

theorem wholeDigits?_cons {c : Char} {ds rest : List Char} (hc : c ≠ '0')
    (hds : ∀ d ∈ c :: ds, isDigit d = true) (hrest : ∀ c ∈ rest.head?, isDigit c = false) :
    wholeDigits? (c :: ds ++ rest) = some (c :: ds, rest) := by
  have hspan := span_digits hds hrest
  rw [List.cons_append] at hspan ⊢
  unfold wholeDigits?
  split
  · next h => exact absurd (List.cons.inj h).1 hc
  · next h =>
    obtain ⟨rfl, rfl⟩ := List.cons.inj h
    rw [if_pos (hds _ List.mem_cons_self), hspan]
  · next h => cases h

theorem fractionDigits_of_ends {rest : List Char} (h : ∀ c ∈ rest.head?, c ≠ '.') :
    fractionDigits rest = (none, rest) := by
  unfold fractionDigits
  split
  · exact absurd rfl (h '.' rfl)
  · rfl

theorem fractionDigits_point {ds rest : List Char} (hne : ds ≠ [])
    (hds : ∀ d ∈ ds, isDigit d = true) (hrest : ∀ c ∈ rest.head?, isDigit c = false) :
    fractionDigits ('.' :: (ds ++ rest)) = (some ds, rest) := by
  rw [fractionDigits, span_digits hds hrest]
  cases ds with
  | nil => exact absurd rfl hne
  | cons d ds => rfl

theorem powerOfTen_of_ends {rest : List Char} (h : ∀ c ∈ rest.head?, c ≠ 'e' ∧ c ≠ 'E') :
    powerOfTen rest = (none, rest) := by
  unfold powerOfTen
  cases rest with
  | nil => rfl
  | cons c rest =>
    obtain ⟨he, hE⟩ := h c rfl
    simp [he, hE]

/-- A power of ten is read as it is written. -/
theorem powerOfTen_powerText (power : Int) {rest : List Char}
    (hrest : ∀ c ∈ rest.head?, isDigit c = false) :
    powerOfTen (Binary64.powerText power ++ rest) = (some power, rest) := by
  have hds : ∀ d ∈ zeroPadded 2 (digits power.natAbs), isDigit d = true := by
    intro d hd
    rcases List.mem_append.1 hd with hd | hd
    · rw [List.eq_of_mem_replicate hd]
      rfl
    · rw [isDigit_eq]
      exact isDigit_of_mem_digits hd
  have hvalue : ofDigits (zeroPadded 2 (digits power.natAbs)) = power.natAbs := by
    rw [zeroPadded, ofDigits_append, ofDigits_replicate_zero, Nat.zero_mul, Nat.zero_add,
      ofDigits_digits]
  have hne : (zeroPadded 2 (digits power.natAbs)).isEmpty = false := by
    simp [zeroPadded, digits_ne_nil]
  have hspan := span_digits hds hrest
  rw [Binary64.powerText, List.cons_append, List.cons_append, powerOfTen, if_pos (.inl rfl)]
  rcases Int.lt_or_le power 0 with h | h
  · rw [if_pos h, splitSign]
    dsimp only
    rw [hspan]
    simp only [hne, hvalue]
    rw [if_neg Bool.false_ne_true, if_pos trivial, Int.ofNat_natAbs_of_nonpos h.le, Int.neg_neg]
  · rw [if_neg (by omega), splitSign]
    dsimp only
    rw [hspan]
    simp only [hne, hvalue]
    rw [if_neg Bool.false_ne_true, if_neg Bool.false_ne_true, Int.natAbs_of_nonneg h]

theorem readNumber_signed (negative : Bool) {s : List Char} (hsign : s.head? ≠ some '-') :
    readNumber (Binary64.signText negative ++ s) =
      match wholeDigits? s with
      | none => .error (.malformed .value (Binary64.signText negative ++ s).length)
      | some (whole, rest) =>
        let (fraction, rest) := fractionDigits rest
        let (power, rest) := powerOfTen rest
        if fraction.isNone && power.isNone then
          if maxDigits < whole.length then .error (.integerTooLong whole.length)
          else .ok (.int (if negative then -(ofDigits whole : Int) else ofDigits whole), rest)
        else
          .ok (.float (Binary64.ofDecimal negative (ofDigits (whole ++ fraction.getD []))
            (power.getD 0 - (fraction.getD []).length)), rest) := by
  cases negative with
  | true => rfl
  | false =>
    change readNumber s = _
    unfold readNumber
    split
    next hsplit =>
    split at hsplit
    · exact absurd rfl hsign
    · cases hsplit
      rfl

/-- A number is read by its parts: digits, and a fraction or a power of ten. -/
theorem readNumber_float (negative : Bool) {s whole more last rest : List Char}
    {fraction : Option (List Char)} {power : Option Int} (hsign : s.head? ≠ some '-')
    (hwhole : wholeDigits? s = some (whole, more)) (hfraction : fractionDigits more = (fraction, last))
    (hpower : powerOfTen last = (power, rest)) (hsome : fraction.isSome ∨ power.isSome) :
    readNumber (Binary64.signText negative ++ s) = .ok (.float (Binary64.ofDecimal negative
      (ofDigits (whole ++ fraction.getD [])) (power.getD 0 - (fraction.getD []).length)), rest) := by
  have hnone : (fraction.isNone && power.isNone) = false := by
    rcases hsome with h | h <;> simp [Option.isNone_eq_false_iff.2 h]
  rw [readNumber_signed negative hsign, hwhole]
  simp only [hfraction, hpower, hnone]
  rfl

theorem readNumber_int (negative : Bool) {s whole rest : List Char} (hsign : s.head? ≠ some '-')
    (hwhole : wholeDigits? s = some (whole, rest)) (hends : Ends rest)
    (hlength : whole.length ≤ maxDigits) :
    readNumber (Binary64.signText negative ++ s) =
      .ok (.int (if negative then -(ofDigits whole : Int) else ofDigits whole), rest) := by
  rw [readNumber_signed negative hsign, hwhole]
  simp only [fractionDigits_of_ends fun c hc => (hends c hc).2.1,
    powerOfTen_of_ends fun c hc => (hends c hc).2.2]
  exact if_neg (Nat.not_lt.2 hlength)

/-! ### Decimals -/

/-- The digits of a positive number up to the zeros at its end. They do not start with a zero, and
the zeros count as powers of ten. -/
theorem exists_significant {n : Nat} (hn : 0 < n) :
    ∃ c ds z, ((digits n).reverse.dropWhile (· == '0')).reverse = c :: ds ∧ c ≠ '0' ∧
      (∀ d ∈ c :: ds, isDigit d = true) ∧ digitCount n = ds.length + 1 + z ∧
      n = ofDigits (c :: ds) * 10 ^ z := by
  generalize hlead : ((digits n).reverse.dropWhile (· == '0')).reverse = lead
  have hzeros : (digits n).reverse.takeWhile (· == '0') =
      List.replicate ((digits n).reverse.takeWhile (· == '0')).length '0' :=
    List.eq_replicate_of_mem fun c hc => by simpa using List.mem_takeWhile_imp hc
  generalize ((digits n).reverse.takeWhile (· == '0')).length = z at hzeros
  have hdigits : digits n = lead ++ List.replicate z '0' := by
    rw [← List.reverse_replicate, ← hzeros, ← hlead, ← List.reverse_append,
      List.takeWhile_append_dropWhile, List.reverse_reverse]
  obtain ⟨c, cs, hcons, hc⟩ := exists_digits_eq_cons hn
  cases lead with
  | nil =>
    rw [hdigits, List.nil_append] at hcons
    exact absurd (List.eq_of_mem_replicate (hcons ▸ List.mem_cons_self)) hc
  | cons d ds =>
    rw [hcons, List.cons_append] at hdigits
    obtain rfl : c = d := (List.cons.inj hdigits).1
    rw [← List.cons_append, ← hcons] at hdigits
    refine ⟨c, ds, z, rfl, hc, fun d hd => ?_, ?_, ?_⟩
    · rw [isDigit_eq]
      exact isDigit_of_mem_digits (hdigits ▸ List.mem_append_left _ hd)
    · rw [digitCount, hdigits, List.length_append, List.length_replicate, List.length_cons]
    · rw [← ofDigits_digits n, hdigits, ofDigits_append, ofDigits_replicate_zero,
        List.length_replicate, Nat.add_zero]

/-- A text starts with a decimal of the given value. -/
def ReadsAs (s rest : List Char) (x : ℚ) : Prop :=
  (∃ c t, s = c :: t ∧ isDigit c = true) ∧ ∃ (n : Nat) (k : Int), n * 10 ^ k = x ∧
    ∀ negative, readNumber (Binary64.signText negative ++ s) =
      .ok (.float (Binary64.ofDecimal negative n k), rest)

theorem readsAs_of_parts {c : Char} {t whole more last rest : List Char}
    {fraction : Option (List Char)} {power : Option Int} {x : ℚ} (hc : isDigit c = true)
    (hwhole : wholeDigits? (c :: t) = some (whole, more))
    (hfraction : fractionDigits more = (fraction, last)) (hpower : powerOfTen last = (power, rest))
    (hsome : fraction.isSome ∨ power.isSome)
    (hx : ofDigits (whole ++ fraction.getD []) *
      10 ^ (power.getD 0 - (fraction.getD []).length : Int) = x) :
    ReadsAs (c :: t) rest x := by
  refine ⟨⟨c, t, rfl, hc⟩, _, _, hx, fun negative => ?_⟩
  refine readNumber_float negative ?_ hwhole hfraction hpower hsome
  rintro h
  cases h
  exact absurd hc (by decide)

section
variable {c : Char} {ds rest : List Char} (hc : c ≠ '0') (hds : ∀ d ∈ c :: ds, isDigit d = true)
  (hrest : Ends rest)
include hds hrest

/-- A decimal below one. -/
theorem readsAs_small (j : Nat) :
    ReadsAs ("0.".toList ++ List.replicate j '0' ++ (c :: ds) ++ rest) rest
      (ofDigits (c :: ds) * 10 ^ (-(j + (ds.length + 1)) : Int)) := by
  have hzeros : ∀ d ∈ List.replicate j '0' ++ c :: ds, isDigit d = true := fun d hd =>
    (List.mem_append.1 hd).elim (fun h => by rw [List.eq_of_mem_replicate h]; rfl) (hds d)
  have hsplit : "0.".toList ++ List.replicate j '0' ++ (c :: ds) ++ rest =
      '0' :: '.' :: ((List.replicate j '0' ++ c :: ds) ++ rest) := by
    simp
  rw [hsplit]
  refine readsAs_of_parts rfl (wholeDigits?_zero _)
    (fractionDigits_point (by simp) hzeros fun d hd => (hrest d hd).1)
    (powerOfTen_of_ends fun d hd => (hrest d hd).2.2) (.inl rfl) ?_
  have hvalue : ofDigits (['0'] ++ (List.replicate j '0' ++ c :: ds)) = ofDigits (c :: ds) := by
    rw [ofDigits_append, ofDigits_append, ofDigits_replicate_zero]
    simp [ofDigits]
  rw [Option.getD_some, Option.getD_none, hvalue]
  congr 2
  simp

include hc

/-- A decimal with digits on both sides of the point. -/
theorem readsAs_mixed {fs : List Char} (hne : fs ≠ []) (hfs : ∀ d ∈ fs, isDigit d = true) :
    ReadsAs ((c :: ds) ++ '.' :: fs ++ rest) rest
      (ofDigits (c :: ds ++ fs) * 10 ^ (-fs.length : Int)) := by
  rw [List.append_assoc]
  refine readsAs_of_parts (hds c List.mem_cons_self)
    (wholeDigits?_cons hc hds fun d hd => by cases hd; rfl)
    (fractionDigits_point hne hfs fun d hd => (hrest d hd).1)
    (powerOfTen_of_ends fun d hd => (hrest d hd).2.2) (.inl rfl) ?_
  rw [Option.getD_some, Option.getD_none, zero_sub]

/-- A decimal whose point stands after `j + 1` digits. -/
theorem readsAs_positional (j : Nat) :
    ReadsAs ((c :: ds).take (j + 1) ++
        List.replicate (j + 1 - ((c :: ds).take (j + 1)).length) '0' ++
        '.' :: (if ((c :: ds).drop (j + 1)).isEmpty then ['0'] else (c :: ds).drop (j + 1)) ++ rest)
      rest (ofDigits (c :: ds) * 10 ^ (j - ds.length : Int)) := by
  rw [List.take_succ_cons, List.drop_succ_cons, List.length_cons, List.length_take]
  -- the point stands among the digits, or zeros fill the places up to it
  rcases Nat.lt_or_ge j ds.length with hlt | hge
  · have hne : ds.drop j ≠ [] := by simpa using hlt
    have htake : ∀ d ∈ c :: ds.take j, isDigit d = true := fun d hd =>
      hds d (List.mem_of_mem_take (i := j + 1) hd)
    have hsame := readsAs_mixed hc htake hrest hne
      (fun d hd => hds d (List.mem_cons_of_mem c (List.mem_of_mem_drop hd)))
    rw [show c :: ds.take j ++ ds.drop j = c :: ds by simp, List.length_drop] at hsame
    rw [Nat.min_eq_left hlt.le, Nat.sub_self, List.replicate_zero, List.append_nil,
      if_neg (by simpa using hlt)]
    rwa [show (-(ds.length - j : Nat) : Int) = j - ds.length by omega] at hsame
  · have hmore : ∀ d ∈ c :: (ds ++ List.replicate (j - ds.length) '0'), isDigit d = true :=
      fun d hd => by
        rw [← List.cons_append] at hd
        exact (List.mem_append.1 hd).elim (hds d) fun h => by rw [List.eq_of_mem_replicate h]; rfl
    have hsame := readsAs_mixed hc hmore hrest (List.cons_ne_nil '0' [])
      (fun d hd => by rw [List.mem_singleton.1 hd]; rfl)
    rw [Nat.min_eq_right hge, Nat.add_sub_add_right, List.take_of_length_le hge,
      List.drop_of_length_le hge, if_pos List.isEmpty_nil, List.cons_append]
    refine (congrArg (ReadsAs _ rest) ?_).mp hsame
    rw [← List.cons_append, ofDigits_append, ofDigits_append, ofDigits_replicate_zero,
      List.length_replicate, Nat.add_zero, ← Nat.cast_sub hge, zpow_natCast]
    simp [ofDigits]

/-- A decimal with a power of ten. -/
theorem readsAs_power (power : Int) :
    ReadsAs ((if (c :: ds).length ≤ 1 then c :: ds else (c :: ds).take 1 ++ '.' :: (c :: ds).drop 1) ++
        Binary64.powerText power ++ rest) rest
      (ofDigits (c :: ds) * 10 ^ (power - ds.length : Int)) := by
  have hdigit : ∀ d ∈ (Binary64.powerText power ++ rest).head?, isDigit d = false ∧ d ≠ '.' :=
    fun d hd => by cases hd; exact ⟨rfl, by decide⟩
  have hpower := powerOfTen_powerText power fun d hd => (hrest d hd).1
  rw [List.append_assoc]
  cases ds with
  | nil =>
    refine readsAs_of_parts (hds c List.mem_cons_self)
      (wholeDigits?_cons hc hds fun d hd => (hdigit d hd).1)
      (fractionDigits_of_ends fun d hd => (hdigit d hd).2) hpower (.inr rfl) ?_
    rfl
  | cons d ds =>
    rw [if_neg (by simp)]
    have hlead : ∀ d ∈ [c], isDigit d = true := by simpa using hds c List.mem_cons_self
    have hwhole : wholeDigits? ([c] ++ '.' :: (d :: ds ++ (Binary64.powerText power ++ rest))) = _ :=
      wholeDigits?_cons hc hlead fun d hd => by cases hd; rfl
    refine readsAs_of_parts (hds c List.mem_cons_self) hwhole
      (fractionDigits_point (List.cons_ne_nil d ds) (fun e he => hds e (List.mem_cons_of_mem c he))
        fun d hd => (hdigit d hd).1) hpower (.inl rfl) ?_
    rfl

end

/-- The text of a decimal is read as a decimal of the same value. -/
theorem readsAs_decimalText {n : Nat} (hn : 0 < n) (k : Int) {rest : List Char} (hrest : Ends rest) :
    ReadsAs (Binary64.decimalText n k ++ rest) rest (n * 10 ^ k) := by
  obtain ⟨c, ds, z, hlead, hc, hds, hcount, hvalue⟩ := exists_significant hn
  have hx : (n : ℚ) * 10 ^ k = ofDigits (c :: ds) * 10 ^ (z + k : Int) := by
    conv_lhs => rw [hvalue]
    rw [Nat.cast_mul, Nat.cast_pow, zpow_add₀ (by norm_num), zpow_natCast]
    push_cast
    ring
  rw [hx]
  unfold Binary64.decimalText
  rw [hlead, hcount]
  dsimp only
  generalize hpoint : ((ds.length + 1 + z : Nat) : Int) + k = point
  have hexp : z + k = point - (ds.length + 1) := by omega
  rw [hexp]
  split
  · split
    · next hrange hsmall =>
      have hsame := readsAs_small hds hrest (-point).toNat
      rwa [show (-((-point).toNat + (ds.length + 1)) : Int) = point - (ds.length + 1) by omega]
        at hsame
    · next hrange hlarge =>
      obtain ⟨j, rfl⟩ : ∃ j : Nat, point = j + 1 := ⟨(point - 1).toNat, by omega⟩
      have hsame := readsAs_positional hc hds hrest j
      rwa [show (j - ds.length : Int) = j + 1 - (ds.length + 1) by omega] at hsame
  · have hsame := readsAs_power hc hds hrest (point - 1)
    rwa [show (point - 1 - ds.length : Int) = point - (ds.length + 1) by omega] at hsame

/-! ### Numbers as they are written -/

/-- A finite number is read as it is written. -/
theorem readNumber_text (negative : Bool) {m : Nat} {e : Int} (hcan : Binary64.Canonical m e)
    {rest : List Char} (hrest : Ends rest) :
    ∃ c t, (Binary64.finite negative m e).text ++ rest = Binary64.signText negative ++ c :: t ∧
      isDigit c = true ∧
      readNumber (Binary64.signText negative ++ c :: t) = .ok (.float (.finite negative m e), rest) := by
  rw [Binary64.text, List.append_assoc]
  rcases Nat.eq_zero_or_pos m with rfl | hm
  · obtain rfl : e = -1074 := hcan.full.resolve_left (by norm_num)
    rw [if_pos rfl]
    obtain ⟨⟨c, t, hcons, hc⟩, n, k, hzero, hread⟩ :=
      readsAs_of_parts (x := 0) (t := '.' :: (['0'] ++ rest)) rfl
        (wholeDigits?_zero _) (fractionDigits_point (List.cons_ne_nil '0' [])
          (fun d hd => by rw [List.mem_singleton.1 hd]; rfl) fun d hd => (hrest d hd).1)
        (powerOfTen_of_ends fun d hd => (hrest d hd).2.2) (.inl rfl) (by simp [ofDigits])
    have hn : n = 0 := by
      have := mul_eq_zero.1 hzero
      exact_mod_cast this.resolve_right (Binary64.ten_zpow_pos k).ne'
    refine ⟨'0', _, rfl, rfl, (hread negative).trans ?_⟩
    rw [Binary64.ofDecimal, if_pos (.inl hn)]
  · rw [if_neg hm.ne']
    -- the shortest text lies in the interval of the number, and so is rounded to it
    have hrounds := Binary64.rounds_shortest hm hcan
    have hn : 0 < (Binary64.shortest m e).1 := by
      rw [Nat.pos_iff_ne_zero]
      intro hzero
      have hpos := (hrounds.bounds hm hcan).1
      rw [hzero, Nat.cast_zero, zero_mul] at hpos
      exact absurd hpos (not_le.2 (Binary64.ten_zpow_pos _))
    obtain ⟨⟨c, t, hcons, hc⟩, n, k, hvalue, hread⟩ :=
      readsAs_decimalText hn (Binary64.shortest m e).2 hrest
    refine ⟨c, t, congrArg _ hcons, hc, ?_⟩
    rw [← hcons, hread]
    rw [← hvalue] at hrounds
    rw [Binary64.ofDecimal_of_rounds negative hm hcan hrounds]

theorem intText_eq (n : Int) :
    intText n = Binary64.signText (n < 0) ++ digits n.natAbs := by
  cases n with
  | ofNat n => rfl
  | negSucc n =>
    rw [decide_eq_true (Int.negSucc_lt_zero n)]
    rfl

/-- An integer is read as it is written. -/
theorem readNumber_intText {n : Int} (hcount : digitCount n.natAbs ≤ maxDigits) {rest : List Char}
    (hrest : Ends rest) :
    ∃ c t, intText n ++ rest = Binary64.signText (n < 0) ++ c :: t ∧ isDigit c = true ∧
      readNumber (Binary64.signText (n < 0) ++ c :: t) = .ok (.int n, rest) := by
  have hdigit : ∀ d ∈ digits n.natAbs, isDigit d = true := fun d hd => by
    rw [isDigit_eq]
    exact isDigit_of_mem_digits hd
  obtain ⟨c, ds, hcons⟩ := List.exists_cons_of_ne_nil (digits_ne_nil n.natAbs)
  have hwhole : wholeDigits? (c :: ds ++ rest) = some (digits n.natAbs, rest) := by
    rcases Nat.eq_zero_or_pos n.natAbs with hzero | hpos
    · rw [hzero] at hcons ⊢
      cases hcons
      rfl
    · obtain ⟨d, ds', hcons', hd⟩ := exists_digits_eq_cons hpos
      rw [hcons'] at hcons
      cases hcons
      rw [hcons'] at hdigit ⊢
      exact wholeDigits?_cons hd hdigit fun d hd => (hrest d hd).1
  have hc : isDigit c = true := hdigit c (hcons ▸ List.mem_cons_self)
  have hsign : (c :: ds ++ rest).head? ≠ some '-' := by
    rintro h
    cases h
    exact absurd hc (by decide)
  refine ⟨c, ds ++ rest, by rw [intText_eq, hcons, List.append_assoc, List.cons_append], hc, ?_⟩
  refine (readNumber_int _ hsign hwhole hrest hcount).trans ?_
  have hvalue : (if decide (n < 0) = true then -(n.natAbs : Int) else n.natAbs) = n := by
    split
    · next h =>
      have := of_decide_eq_true h
      omega
    · next h =>
      have := mt decide_eq_true h
      omega
  rw [ofDigits_digits, hvalue]

end StakeSnapshot.Json
