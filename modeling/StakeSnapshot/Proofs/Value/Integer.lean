import Mathlib.Data.List.Basic
import StakeSnapshot.Proofs.Number.Digits
import StakeSnapshot.Proofs.Pubkey
import StakeSnapshot.Value.Access

/-!
# Integers from their spellings

An integer is spelled in decimal with a sign, zeros in front and single underscores between the digits
(`SpellsDecimal`), or behind `0x` in hexadecimal with digits in either case (`SpellsHex`). Every such
text is read as the integer, whatever white space is around it: `toInteger_spelled`.
-/

namespace StakeSnapshot

namespace Number
open Text

/-! ### Digits in a base -/

theorem digitBelow?_digitChar {base d : Nat} (hbase : base ≤ 16) (hd : d < base) :
    digitBelow? base d.digitChar = some d := by
  have hvalues : ∀ d < 16, hexValue? d.digitChar = some d := by decide
  rw [digitBelow?, hvalues d (by omega), Option.filter_some, if_pos (by simpa using hd)]

/-- The number that has one more digit at its end. -/
def appendDigit (base value : Nat) (c : Char) : Nat := value * base + (digitBelow? base c).getD 0

theorem appendDigit_digitChar {base d : Nat} (hbase : base ≤ 16) (hd : d < base) (value : Nat) :
    appendDigit base value d.digitChar = value * base + d := by
  rw [appendDigit, digitBelow?_digitChar hbase hd, Option.getD_some]

/-- The digits of a number with zeros in front. -/
def paddedDigits (base zeros n : Nat) : List Char := List.replicate zeros '0' ++ Nat.toDigits base n

theorem length_paddedDigits (base zeros n : Nat) :
    (paddedDigits base zeros n).length = zeros + (Nat.toDigits base n).length := by
  simp [paddedDigits]

theorem paddedDigits_ne_nil (base zeros n : Nat) : paddedDigits base zeros n ≠ [] := by
  simp [paddedDigits, Nat.toDigits_ne_nil]

section
variable {base : Nat} (hlow : 1 < base)
include hlow

theorem exists_digit_of_mem_toDigits {n : Nat} {c : Char} (h : c ∈ Nat.toDigits base n) :
    ∃ d < base, c = d.digitChar := by
  induction n using Nat.strong_induction_on with
  | h n ih =>
    rcases Nat.lt_or_ge n base with hn | hn
    · rw [Nat.toDigits_of_lt_base hn] at h
      exact ⟨n, hn, List.mem_singleton.1 h⟩
    · rw [Nat.toDigits_of_base_le hlow hn] at h
      rcases List.mem_append.1 h with h | h
      · exact ih (n / base) (Nat.div_lt_self (by omega) hlow) h
      · exact ⟨n % base, Nat.mod_lt n (by omega), List.mem_singleton.1 h⟩

theorem exists_digit_of_mem_paddedDigits {zeros n : Nat} {c : Char}
    (h : c ∈ paddedDigits base zeros n) : ∃ d < base, c = d.digitChar := by
  rcases List.mem_append.1 h with h | h
  · exact ⟨0, by omega, List.eq_of_mem_replicate h⟩
  · exact exists_digit_of_mem_toDigits hlow h

variable (hhigh : base ≤ 16)
include hhigh

theorem foldl_toDigits (n : Nat) : (Nat.toDigits base n).foldl (appendDigit base) 0 = n := by
  induction n using Nat.strong_induction_on with
  | h n ih =>
    rcases Nat.lt_or_ge n base with hn | hn
    · rw [Nat.toDigits_of_lt_base hn, List.foldl_cons, List.foldl_nil,
        appendDigit_digitChar hhigh hn, Nat.zero_mul, Nat.zero_add]
    · rw [Nat.toDigits_of_base_le hlow hn, List.foldl_append, List.foldl_cons, List.foldl_nil,
        ih (n / base) (Nat.div_lt_self (by omega) hlow),
        appendDigit_digitChar hhigh (Nat.mod_lt n (by omega)), Nat.div_add_mod']

/-- Zeros in front do not change the number. -/
theorem foldl_paddedDigits (zeros n : Nat) :
    (paddedDigits base zeros n).foldl (appendDigit base) 0 = n := by
  induction zeros with
  | zero => exact foldl_toDigits hlow hhigh n
  | succ zeros ih =>
    have hzero : appendDigit base 0 '0' = 0 := by
      have := appendDigit_digitChar hhigh (show 0 < base by omega) 0
      rwa [Nat.zero_mul] at this
    rw [paddedDigits, List.replicate_succ, List.cons_append, List.foldl_cons, hzero]
    exact ih

end

/-! ### Runs of digits -/

/-- Digits with at most one underscore between any two of them. -/
inductive Grouped : (ds s : List Char) → Prop where
  | last (c : Char) : Grouped [c] [c]
  | next (c : Char) {ds s : List Char} (h : Grouped ds s) : Grouped (c :: ds) (c :: s)
  | marked (c : Char) {ds s : List Char} (h : Grouped ds s) : Grouped (c :: ds) (c :: '_' :: s)

theorem grouped_self {ds : List Char} (h : ds ≠ []) : Grouped ds ds := by
  induction ds with
  | nil => exact absurd rfl h
  | cons c ds ih =>
    rcases List.eq_nil_or_concat ds with rfl | ⟨_, _, hds⟩
    · exact .last c
    · exact .next c (ih (by simp [hds]))

theorem Grouped.mem {ds s : List Char} (h : Grouped ds s) {c : Char} (hc : c ∈ s) :
    c ∈ ds ∨ c = '_' := by
  induction h with
  | last d => exact .inl hc
  | next d _ ih =>
    rcases List.mem_cons.1 hc with rfl | hc
    · exact .inl List.mem_cons_self
    · exact (ih hc).imp_left (List.mem_cons_of_mem d)
  | marked d _ ih =>
    rcases List.mem_cons.1 hc with rfl | hc
    · exact .inl List.mem_cons_self
    · rcases List.mem_cons.1 hc with rfl | hc
      · exact .inr rfl
      · exact (ih hc).imp_left (List.mem_cons_of_mem d)

theorem Grouped.exists_cons {ds s : List Char} (h : Grouped ds s) :
    ∃ c ds' s', ds = c :: ds' ∧ s = c :: s' := by
  cases h with
  | last c => exact ⟨c, _, _, rfl, rfl⟩
  | next c _ => exact ⟨c, _, _, rfl, rfl⟩
  | marked c _ => exact ⟨c, _, _, rfl, rfl⟩

section
variable {base : Nat} {c : Char} {ds s : List Char}

theorem ne_underscore (hc : (digitBelow? base c).isSome) : c ≠ '_' := by
  rintro rfl
  exact absurd hc Bool.false_ne_true

theorem digitRun_digit (hc : (digitBelow? base c).isSome) (value count : Nat) (marked : Bool) :
    digitRun base value count marked (c :: s) =
      digitRun base (appendDigit base value c) (count + 1) false s := by
  obtain ⟨d, hd⟩ := Option.isSome_iff_exists.1 hc
  rw [digitRun, if_neg (ne_underscore hc), appendDigit, hd]
  rfl

variable (h : Grouped ds s) (hds : ∀ c ∈ ds, (digitBelow? base c).isSome)
include h hds

/-- A run is read to its end, whatever has been read before. -/
theorem digitRun_grouped (value count : Nat) (marked : Bool) :
    digitRun base value count marked s =
      some (ds.foldl (appendDigit base) value, count + ds.length, []) := by
  induction h generalizing value count marked with
  | last c =>
    rw [digitRun_digit (hds c List.mem_cons_self)]
    rfl
  | next c _ ih =>
    obtain ⟨hc, hds⟩ := List.forall_mem_cons.1 hds
    rw [digitRun_digit hc, ih hds, List.foldl_cons, List.length_cons, Nat.add_assoc, Nat.add_comm 1]
  | @marked c ds s _ ih =>
    obtain ⟨hc, hds⟩ := List.forall_mem_cons.1 hds
    have hmark : ∀ value count, digitRun base value count false ('_' :: s) =
        digitRun base value count true s := fun _ _ => rfl
    rw [digitRun_digit hc, hmark, ih hds, List.foldl_cons, List.length_cons, Nat.add_assoc,
      Nat.add_comm 1]

theorem readMagnitude_grouped (hlimit : base = 10 → ds.length ≤ maxDigits) :
    readMagnitude base s = .ok (ds.foldl (appendDigit base) 0) := by
  obtain ⟨c, ds', s', hcons, rfl⟩ := h.exists_cons
  have hhead : (c :: s').head? ≠ some '_' := fun hc =>
    ne_underscore (hds c (hcons ▸ List.mem_cons_self)) (Option.some.inj hc)
  have hlong : ¬ (base = 10 ∧ maxDigits < 0 + ds.length) := by
    rintro ⟨hbase, hmore⟩
    have := hlimit hbase
    omega
  have hempty : ¬ (0 + ds.length = 0 ∨ ([] : List Char).dropWhile isAsciiBlank ≠ []) := by
    simp [hcons]
  rw [readMagnitude, if_neg hhead, digitRun_grouped h hds]
  dsimp only
  rw [if_neg hlong, if_neg hempty]

end

/-! ### Signs and marks -/

/-- The characters of integers in text. -/
def numberChars : List Char := "0123456789abcdefABCDEF_+-x".toList

theorem plain_of_mem_numberChars : ∀ c ∈ numberChars,
    isBlank c = false ∧ isAsciiBlank c = false ∧ asciiForm c = c := by
  have hplain : numberChars.all fun c =>
      decide (isBlank c = false ∧ isAsciiBlank c = false ∧ asciiForm c = c) := by decide
  exact fun c hc => of_decide_eq_true (List.all_eq_true.1 hplain c hc)

theorem readInteger_of_splitSign {base n : Nat} {s rest : List Char} {negative : Bool}
    (h : ∀ c ∈ s, c ∈ numberChars) (hsign : splitSign s = (negative, rest))
    (hread : readMagnitude base (if base = 16 then dropHexMark rest else rest) = .ok n) :
    readInteger base s = .ok (if negative then -(n : Int) else n) := by
  have hform : s.map asciiForm = s := by
    rw [List.map_congr_left fun c hc => (plain_of_mem_numberChars c (h c hc)).2.2, List.map_id']
  have hdrop : s.dropWhile isAsciiBlank = s := by
    cases s with
    | nil => rfl
    | cons c s =>
      have hc := (plain_of_mem_numberChars c (h c List.mem_cons_self)).2.1
      rw [List.dropWhile_cons_of_neg (by simp [hc])]
  rw [readInteger, hform, readAscii, hdrop, hsign]
  dsimp only
  rw [hread]
  rfl

theorem splitSign_of_ne {c : Char} (hminus : c ≠ '-') (hplus : c ≠ '+') (s : List Char) :
    splitSign (c :: s) = (false, c :: s) := by
  unfold splitSign
  split
  · next h => exact absurd (List.cons.inj h).1 hminus
  · next h => exact absurd (List.cons.inj h).1 hplus
  · rfl

/-! ### Decimal spellings -/

/-- The signs of an integer in text: a negative one has to have its sign, any other may have one. -/
def signs (n : Int) : List (List Char) := if n < 0 then [['-']] else [[], ['+']]

/-- A text spells an integer in decimal: a sign, and the digits with zeros in front and underscores
between them. With the zeros there are no more digits than a text may have. -/
inductive SpellsDecimal (n : Int) : List Char → Prop where
  | intro {sign s : List Char} {zeros : Nat} (hsign : sign ∈ signs n)
      (hs : Grouped (paddedDigits 10 zeros n.natAbs) s)
      (hlimit : zeros + digitCount n.natAbs ≤ maxDigits) : SpellsDecimal n (sign ++ s)

/-- The usual text of an integer is one of its spellings. -/
theorem spellsDecimal_intText {n : Int} (h : digitCount n.natAbs ≤ maxDigits) :
    SpellsDecimal n (intText n) := by
  have hs : Grouped (paddedDigits 10 0 n.natAbs) (digits n.natAbs) :=
    grouped_self (digits_ne_nil n.natAbs)
  rw [← Nat.zero_add (digitCount n.natAbs)] at h
  cases n with
  | ofNat n =>
    have hsign : [] ∈ signs (.ofNat n) := List.mem_cons_self
    exact .intro hsign hs h
  | negSucc n =>
    have hsign : ['-'] ∈ signs (.negSucc n) := by
      rw [signs, if_pos (Int.negSucc_lt_zero n)]
      exact List.mem_singleton_self _
    exact .intro hsign hs h

section
variable {zeros n : Nat} {s : List Char} (hs : Grouped (paddedDigits 10 zeros n) s)
include hs

theorem mem_of_grouped_decimal {c : Char} (hc : c ∈ s) :
    c ∈ numberChars ∧ c ≠ 'x' ∧ c ≠ '-' ∧ c ≠ '+' := by
  have hdigits : ∀ d < 10, d.digitChar ∈ numberChars ∧ d.digitChar ≠ 'x' ∧ d.digitChar ≠ '-' ∧
      d.digitChar ≠ '+' := by decide
  rcases hs.mem hc with hc | rfl
  · obtain ⟨d, hd, rfl⟩ := exists_digit_of_mem_paddedDigits (by decide) hc
    exact hdigits d hd
  · decide

theorem readMagnitude_decimal (hlimit : zeros + digitCount n ≤ maxDigits) :
    readMagnitude 10 s = .ok n := by
  have hds : ∀ c ∈ paddedDigits 10 zeros n, (digitBelow? 10 c).isSome := by
    intro c hc
    obtain ⟨d, hd, rfl⟩ := exists_digit_of_mem_paddedDigits (by decide) hc
    rw [digitBelow?_digitChar (by decide) hd]
    rfl
  have hlength : (paddedDigits 10 zeros n).length ≤ maxDigits := by
    rw [length_paddedDigits]
    exact hlimit
  rw [readMagnitude_grouped hs hds fun _ => hlength, foldl_paddedDigits (by decide) (by decide)]

theorem splitSign_decimal : splitSign s = (false, s) := by
  obtain ⟨c, ds, t, -, rfl⟩ := hs.exists_cons
  obtain ⟨-, -, hminus, hplus⟩ := mem_of_grouped_decimal hs List.mem_cons_self
  exact splitSign_of_ne hminus hplus t

end

theorem mem_of_mem_signs {n : Int} {sign : List Char} (h : sign ∈ signs n) :
    sign ∈ [['-'], [], ['+']] := by
  unfold signs at h
  split at h
  · exact List.mem_cons.2 (.inl (List.mem_singleton.1 h))
  · exact List.mem_cons_of_mem _ h

theorem SpellsDecimal.mem {n : Int} {s : List Char} (h : SpellsDecimal n s) {c : Char}
    (hc : c ∈ s) : c ∈ numberChars ∧ c ≠ 'x' := by
  obtain ⟨hsign, hs, -⟩ := h
  rcases List.mem_append.1 hc with hc | hc
  · have hplain : [['-'], [], ['+']].all fun sign => sign.all fun c =>
        decide (c ∈ numberChars ∧ c ≠ 'x') := by decide
    have hsign := List.all_eq_true.1 hplain _ (mem_of_mem_signs hsign)
    exact of_decide_eq_true (List.all_eq_true.1 hsign c hc)
  · obtain ⟨hchar, hx, -⟩ := mem_of_grouped_decimal hs hc
    exact ⟨hchar, hx⟩

theorem SpellsDecimal.readInteger {n : Int} {s : List Char} (h : SpellsDecimal n s) :
    readInteger 10 s = .ok n := by
  have hchars : ∀ c ∈ s, c ∈ numberChars := fun c hc => (h.mem hc).1
  obtain ⟨hsign, hs, hlimit⟩ := h
  have hread := readMagnitude_decimal hs hlimit
  rcases Int.lt_or_le n 0 with hn | hn
  · rw [signs, if_pos hn, List.mem_singleton] at hsign
    subst hsign
    rw [readInteger_of_splitSign hchars rfl hread, if_pos rfl, Int.ofNat_natAbs_of_nonpos hn.le,
      Int.neg_neg]
  · rw [signs, if_neg (Int.not_lt.2 hn), List.mem_pair] at hsign
    rcases hsign with rfl | rfl
    · rw [readInteger_of_splitSign hchars (splitSign_decimal hs) hread, if_neg Bool.false_ne_true,
        Int.natAbs_of_nonneg hn]
    · rw [readInteger_of_splitSign hchars rfl hread, if_neg Bool.false_ne_true,
        Int.natAbs_of_nonneg hn]

/-! ### Hexadecimal spellings -/

/-- A text spells a number in hexadecimal: the mark, and the digits in either case with zeros in
front. -/
inductive SpellsHex (n : Nat) : List Char → Prop where
  | intro {s : List Char} {zeros : Nat} (hs : s.map Char.toLower = paddedDigits 16 zeros n) :
      SpellsHex n ('0' :: 'x' :: s)

theorem spellsHex_toDigits (n : Nat) : SpellsHex n ('0' :: 'x' :: Nat.toDigits 16 n) := by
  have hdigits : ∀ d < 16, d.digitChar.toLower = d.digitChar := by decide
  have hs : (Nat.toDigits 16 n).map Char.toLower = paddedDigits 16 0 n := by
    refine (List.map_congr_left fun c hc => ?_).trans (List.map_id _)
    obtain ⟨d, hd, rfl⟩ := exists_digit_of_mem_toDigits (by decide) hc
    exact hdigits d hd
  exact .intro hs

theorem of_toLower_mem_hexDigits {c : Char} (h : c.toLower ∈ hexDigits) :
    c ∈ numberChars ∧ (digitBelow? 16 c).isSome ∧ digitBelow? 16 c.toLower = digitBelow? 16 c := by
  have hascii : ∀ n < 128, (Char.ofNat n).toLower ∈ hexDigits → Char.ofNat n ∈ numberChars ∧
      (digitBelow? 16 (Char.ofNat n)).isSome ∧
      digitBelow? 16 (Char.ofNat n).toLower = digitBelow? 16 (Char.ofNat n) := by
    decide +kernel
  have hsmall := (ascii_of_toLower_mem (List.mem_cons_of_mem 'x' h)).1
  rw [← Char.ofNat_toNat c] at h ⊢
  exact hascii c.toNat hsmall h

section
variable {zeros n : Nat} {s : List Char} (hs : s.map Char.toLower = paddedDigits 16 zeros n)
include hs

theorem toLower_mem_hexDigits {c : Char} (hc : c ∈ s) : c.toLower ∈ hexDigits := by
  have hdigits : ∀ d < 16, d.digitChar ∈ hexDigits := by decide
  have hmem : c.toLower ∈ paddedDigits 16 zeros n := hs ▸ List.mem_map_of_mem hc
  obtain ⟨d, hd, hdigit⟩ := exists_digit_of_mem_paddedDigits (by decide) hmem
  exact hdigit ▸ hdigits d hd

/-- The case of the digits does not matter. -/
theorem readMagnitude_hex : readMagnitude 16 s = .ok n := by
  have hchars : ∀ c ∈ s, (digitBelow? 16 c).isSome := fun c hc =>
    (of_toLower_mem_hexDigits (toLower_mem_hexDigits hs hc)).2.1
  have hne : s ≠ [] := by
    rintro rfl
    exact paddedDigits_ne_nil 16 zeros n hs.symm
  rw [readMagnitude_grouped (grouped_self hne) hchars (by omega)]
  congr 1
  calc s.foldl (appendDigit 16) 0
      = (s.map Char.toLower).foldl (appendDigit 16) 0 := by
        rw [List.foldl_map]
        refine List.foldl_ext _ _ _ fun value c hc => ?_
        rw [appendDigit, appendDigit,
          (of_toLower_mem_hexDigits (toLower_mem_hexDigits hs hc)).2.2]
    _ = n := by rw [hs, foldl_paddedDigits (by decide) (by decide)]

theorem dropHexMark_hex : dropHexMark ('0' :: 'x' :: s) = s := by
  cases s with
  | nil => rfl
  | cons c s =>
    have hc := (of_toLower_mem_hexDigits (toLower_mem_hexDigits hs List.mem_cons_self)).2.1
    simp [dropHexMark, ne_underscore hc]

end

theorem SpellsHex.mem {n : Nat} {s : List Char} (h : SpellsHex n s) {c : Char}
    (hc : c ∈ s) : c ∈ numberChars := by
  obtain ⟨hs⟩ := h
  rcases List.mem_cons.1 hc with rfl | hc
  · decide
  · rcases List.mem_cons.1 hc with rfl | hc
    · decide
    · exact (of_toLower_mem_hexDigits (toLower_mem_hexDigits hs hc)).1

theorem SpellsHex.readInteger {n : Nat} {s : List Char} (h : SpellsHex n s) :
    readInteger 16 s = .ok n := by
  have hchars : ∀ c ∈ s, c ∈ numberChars := fun c hc => h.mem hc
  obtain ⟨hs⟩ := h
  have hread := readMagnitude_hex hs
  rw [← dropHexMark_hex hs] at hread
  exact readInteger_of_splitSign hchars rfl hread

end Number

namespace Value
open Text Number

/-- White space around a text and the mark of a hexadecimal number decide how it is read. -/
theorem integerOfText_surrounded {before s after : List Char} {n : Int}
    (hbefore : ∀ c ∈ before, isBlank c = true) (hafter : ∀ c ∈ after, isBlank c = true)
    (hchars : ∀ c ∈ s, c ∈ numberChars)
    (hread : readInteger (if "0x".toList.isPrefixOf s then 16 else 10) s = .ok n) :
    integerOfText (before ++ s ++ after) = .ok n := by
  have hstrip : strip (before ++ s ++ after) = s :=
    strip_surrounded hbefore (fun c hc => (plain_of_mem_numberChars c (hchars c hc)).1) hafter
  rw [integerOfText, hstrip, hread]
  rfl

section
variable {before s after : List Char} (hbefore : ∀ c ∈ before, isBlank c = true)
  (hafter : ∀ c ∈ after, isBlank c = true)
include hbefore hafter

theorem integerOfText_decimal {n : Int} (h : SpellsDecimal n s) :
    integerOfText (before ++ s ++ after) = .ok n := by
  have hmark : ¬ "0x".toList.isPrefixOf s := fun hprefix => by
    obtain ⟨rest, hrest⟩ := List.isPrefixOf_iff_prefix.1 hprefix
    have hx : 'x' ∈ s := by
      rw [← hrest]
      simp
    exact (h.mem hx).2 rfl
  refine integerOfText_surrounded hbefore hafter (fun c hc => (h.mem hc).1) ?_
  rw [if_neg hmark]
  exact h.readInteger

theorem integerOfText_hex {n : Nat} (h : SpellsHex n s) :
    integerOfText (before ++ s ++ after) = .ok n := by
  have hmark : "0x".toList.isPrefixOf s := by
    obtain ⟨-⟩ := h
    rfl
  refine integerOfText_surrounded hbefore hafter (fun c hc => h.mem hc) ?_
  rw [if_pos hmark]
  exact h.readInteger

end

/-- Every spelling of an integer is read as this integer, whatever white space is around it: in decimal
with a sign, zeros in front and underscores between the digits, up to the most digits a text may have;
in hexadecimal behind its mark, with zeros in front, digits in either case, and any number of them. The
usual texts are among the spellings. -/
theorem toInteger_spelled :
    (∀ n : Int, digitCount n.natAbs ≤ maxDigits → SpellsDecimal n (intText n)) ∧
    (∀ n : Nat, SpellsHex n ('0' :: 'x' :: Nat.toDigits 16 n)) ∧
    ∀ (absent : Int) (before s after : List Char), (∀ c ∈ before, isBlank c = true) →
      (∀ c ∈ after, isBlank c = true) →
      (∀ n : Int, SpellsDecimal n s →
        (Value.text (String.ofList (before ++ s ++ after))).toInteger absent = .ok n) ∧
      ∀ n : Nat, SpellsHex n s →
        (Value.text (String.ofList (before ++ s ++ after))).toInteger absent = .ok n := by
  refine ⟨fun n hn => spellsDecimal_intText hn, spellsHex_toDigits, ?_⟩
  intro absent before s after hbefore hafter
  have htext : (Value.text (String.ofList (before ++ s ++ after))).toInteger absent =
      integerOfText (before ++ s ++ after) := congrArg integerOfText String.toList_ofList
  rw [htext]
  exact ⟨fun n h => integerOfText_decimal hbefore hafter h,
    fun n h => integerOfText_hex hbefore hafter h⟩

/-- A negative number with a zero in front and an underscore, between blanks of two kinds, and a number
in hexadecimal with a zero in front and digits in both cases. -/
theorem toInteger_spelled_bothBases :
    SpellsDecimal (-1234) "-01_234".toList ∧ SpellsHex 0xdecade "0x0dEcAde".toList ∧
      (Value.text "\u2003\n-01_234 ").toInteger 0 = .ok (-1234) ∧
      (Value.text "\u2003\n0x0dEcAde ").toInteger 0 = .ok 0xdecade := by
  have hsign : ['-'] ∈ signs (-1234) := by decide
  have hdecimal : SpellsDecimal (-1234) "-01_234".toList := by
    have hgroups : Grouped (paddedDigits 10 1 1234) ['0', '1', '_', '2', '3', '4'] :=
      .next '0' (.marked '1' (.next '2' (.next '3' (.last '4'))))
    exact .intro hsign hgroups (by decide)
  have hhex : SpellsHex 0xdecade "0x0dEcAde".toList := by
    have hdigits : ['0', 'd', 'E', 'c', 'A', 'd', 'e'].map Char.toLower =
        paddedDigits 16 1 0xdecade := by decide
    exact .intro hdigits
  have hbefore : ∀ c ∈ ['\u2003', '\n'], isBlank c = true := List.all_eq_true.1 (by decide)
  have hafter : ∀ c ∈ [' '], isBlank c = true := List.all_eq_true.1 (by decide)
  have hminus : "\u2003\n-01_234 " = String.ofList (['\u2003', '\n'] ++ "-01_234".toList ++ [' ']) := by
    decide
  have hmark : "\u2003\n0x0dEcAde " =
      String.ofList (['\u2003', '\n'] ++ "0x0dEcAde".toList ++ [' ']) := by
    decide
  obtain ⟨-, -, hread⟩ := toInteger_spelled
  refine ⟨hdecimal, hhex, ?_, ?_⟩
  · rw [hminus]
    exact (hread 0 _ _ _ hbefore hafter).1 _ hdecimal
  · rw [hmark]
    exact (hread 0 _ _ _ hbefore hafter).2 _ hhex

end Value

end StakeSnapshot
