import StakeSnapshot.Pubkey

/-!
# The spellings of a key

`keyChars` is the one spelling of the bytes of a key: `0x` and two lower-case digits for each byte.
The bytes themselves, however they are held, and every text with those digits in either case, marked
or not, lead to it: `hexText_bytes` and `hexText_spelled`. What becomes of it in the end depends on the bytes alone:
`toPubkey_of_hexText`. A text that is a key in normal form once it is put in lower case leads to that
key, or to the unassigned one if it has zeros only: `toPubkey_of_lower`.
-/

namespace StakeSnapshot

namespace Text

/-! ### Lower case of ASCII texts -/

theorem lowerChar_of_lt {c : Char} (h : c.toNat < 128) : lowerChar c = [c.toLower] := by
  have hall : ∀ n < 128, lowerChar (Char.ofNat n) = [(Char.ofNat n).toLower] := by decide
  rw [← Char.ofNat_toNat c]
  exact hall c.toNat h

theorem lowerAfter_of_lt {s : List Char} (h : ∀ c ∈ s, c.toNat < 128) (seen : List Char) :
    lowerAfter seen s = s.map Char.toLower := by
  induction s generalizing seen with
  | nil => rfl
  | cons c s ih =>
    have hc : c.toNat < 128 := h c List.mem_cons_self
    rw [lowerAfter, if_neg (by omega), lowerChar_of_lt hc,
      ih (fun d hd => h d (List.mem_cons_of_mem _ hd))]
    rfl

/-- In ASCII texts only the letters from A to Z have another lower-case form. -/
theorem lower_of_lt {s : List Char} (h : ∀ c ∈ s, c.toNat < 128) : lower s = s.map Char.toLower :=
  lowerAfter_of_lt h []

theorem dropWhile_isBlank {s : List Char} (h : ∀ c ∈ s, isBlank c = false) :
    s.dropWhile isBlank = s := by
  cases s with
  | nil => rfl
  | cons c s => rw [List.dropWhile_cons_of_neg (by simp [h c List.mem_cons_self])]

/-- White space around a text without any is removed. -/
theorem strip_surrounded {before s after : List Char} (hbefore : ∀ c ∈ before, isBlank c = true)
    (h : ∀ c ∈ s, isBlank c = false) (hafter : ∀ c ∈ after, isBlank c = true) :
    strip (before ++ s ++ after) = s := by
  have hreverse : ∀ c ∈ s.reverse, isBlank c = false := fun c hc => h c (List.mem_reverse.1 hc)
  have hafter' : ∀ c ∈ after.reverse, isBlank c = true := fun c hc => hafter c (List.mem_reverse.1 hc)
  rw [strip, List.append_assoc, List.dropWhile_append_of_pos hbefore]
  cases s with
  | nil =>
    have hdrop : (after ++ []).dropWhile isBlank = [] := List.dropWhile_append_of_pos hafter
    rw [List.append_nil] at hdrop
    rw [List.nil_append, hdrop]
    rfl
  | cons c s =>
    rw [List.cons_append, List.dropWhile_cons_of_neg (by simp [h c List.mem_cons_self]),
      ← List.cons_append, List.reverse_append, List.dropWhile_append_of_pos hafter',
      dropWhile_isBlank hreverse, List.reverse_reverse]

theorem strip_of_not_isBlank {s : List Char} (h : ∀ c ∈ s, isBlank c = false) : strip s = s := by
  have hnone : ∀ c ∈ ([] : List Char), isBlank c = true := by simp
  have hstrip := strip_surrounded hnone h hnone
  rwa [List.nil_append, List.append_nil] at hstrip

/-- No white space has another lower-case form. -/
theorem lowerChar_of_isBlank {c : Char} (h : isBlank c = true) :
    c.toNat ≠ 0x3a3 ∧ lowerChar c = [c] := by
  have hblanks : ∀ n ∈ [9, 10, 11, 12, 13, 28, 29, 30, 31, 32, 0x85, 0xa0, 0x1680, 0x2000, 0x2001,
      0x2002, 0x2003, 0x2004, 0x2005, 0x2006, 0x2007, 0x2008, 0x2009, 0x200a, 0x2028, 0x2029, 0x202f,
      0x205f, 0x3000], n ≠ 0x3a3 ∧ lowerChar (Char.ofNat n) = [Char.ofNat n] := by
    decide +kernel
  simp only [isBlank, Bool.or_eq_true, Bool.and_eq_true, decide_eq_true_eq, beq_iff_eq] at h
  have hmem := hblanks c.toNat (by simp only [List.mem_cons, List.not_mem_nil, or_false]; omega)
  rwa [Char.ofNat_toNat] at hmem

/-- White space stays in a text that is put in lower case. -/
theorem mem_lowerAfter_of_isBlank {s : List Char} {c : Char} (hc : c ∈ s) (h : isBlank c = true)
    (seen : List Char) : c ∈ lowerAfter seen s := by
  induction s generalizing seen with
  | nil => exact absurd hc List.not_mem_nil
  | cons d s ih =>
    rw [lowerAfter]
    rcases List.mem_cons.1 hc with rfl | hc
    · obtain ⟨hsigma, hlower⟩ := lowerChar_of_isBlank h
      rw [if_neg hsigma, hlower]
      exact List.mem_cons_self
    · exact List.mem_append_right _ (ih hc (d :: seen))

/-! ### Hexadecimal digits -/

/-- The lower-case hexadecimal digits. -/
def hexDigits : List Char := "0123456789abcdef".toList

theorem hexDigit_mem_hexDigits : ∀ n < 16, hexDigit n ∈ hexDigits := by decide

theorem hexDigit_eq_zero_iff : ∀ n < 16, (hexDigit n = '0' ↔ n = 0) := by decide

theorem hexDigit_injective {m n : Nat} (hm : m < 16) (hn : n < 16) (h : hexDigit m = hexDigit n) :
    m = n := by
  have hvalue := congrArg hexValue? h
  rw [hexValue?_hexDigit m hm, hexValue?_hexDigit n hn] at hvalue
  exact Option.some.inj hvalue

theorem hexOfBytes_cons (b : UInt8) (octets : List UInt8) :
    hexOfBytes (b :: octets) =
      hexDigit (b.toNat / 16) :: hexDigit (b.toNat % 16) :: hexOfBytes octets := rfl

theorem mem_hexDigits_of_mem_hexOfBytes {octets : List UInt8} {c : Char}
    (h : c ∈ hexOfBytes octets) : c ∈ hexDigits := by
  obtain ⟨n, hn, rfl⟩ := exists_hexDigit_of_mem_hexOfBytes h
  exact hexDigit_mem_hexDigits n hn

/-- Different bytes have different digits. -/
theorem hexOfBytes_injective {xs ys : List UInt8} (h : hexOfBytes xs = hexOfBytes ys) :
    xs = ys := by
  induction xs generalizing ys with
  | nil =>
    have hlength := congrArg List.length h
    rw [length_hexOfBytes, length_hexOfBytes] at hlength
    rw [List.length_nil] at hlength
    exact (List.length_eq_zero_iff.1 (by omega : ys.length = 0)).symm
  | cons x xs ih =>
    cases ys with
    | nil => simp [hexOfBytes] at h
    | cons y ys =>
      rw [hexOfBytes_cons, hexOfBytes_cons] at h
      injection h with hhigh h
      injection h with hlow h
      have hx := x.toNat_lt
      have hy := y.toNat_lt
      have hdiv := hexDigit_injective (by omega) (by omega) hhigh
      have hmod := hexDigit_injective (by omega) (by omega) hlow
      rw [ih h, UInt8.toNat_inj.1 (by omega : x.toNat = y.toNat)]

/-- All digits are zero exactly if all bytes are. -/
theorem all_hexOfBytes_zero (octets : List UInt8) :
    (hexOfBytes octets).all (· == '0') = octets.all (· == 0) := by
  induction octets with
  | nil => rfl
  | cons b octets ih =>
    have hb := b.toNat_lt
    have hzero : (hexDigit (b.toNat / 16) == '0' && hexDigit (b.toNat % 16) == '0') = (b == 0) := by
      rw [Bool.eq_iff_iff, Bool.and_eq_true, beq_iff_eq, beq_iff_eq, beq_iff_eq,
        hexDigit_eq_zero_iff _ (by omega), hexDigit_eq_zero_iff _ (by omega), ← UInt8.toNat_inj]
      change _ ↔ b.toNat = 0
      omega
    rw [hexOfBytes_cons, List.all_cons, List.all_cons, List.all_cons, ih, ← hzero, Bool.and_assoc]

theorem exists_hexDigit_eq {c : Char} (h : c ∈ hexDigits) : ∃ n < 16, hexDigit n = c := by
  have hall : hexDigits = (List.range 16).map hexDigit := by decide
  rw [hall, List.mem_map] at h
  obtain ⟨n, hn, rfl⟩ := h
  exact ⟨n, List.mem_range.1 hn, rfl⟩

/-- Two digits for each byte come from bytes. -/
theorem exists_hexOfBytes_eq {n : Nat} {digits : List Char} (hlength : digits.length = 2 * n)
    (hdigits : ∀ c ∈ digits, c ∈ hexDigits) :
    ∃ octets : List UInt8, octets.length = n ∧ hexOfBytes octets = digits := by
  induction n generalizing digits with
  | zero => exact ⟨[], rfl, (List.length_eq_zero_iff.1 hlength).symm⟩
  | succ n ih =>
    match digits with
    | [] | [_] =>
      simp only [List.length_nil, List.length_cons] at hlength
      omega
    | c :: d :: rest =>
      simp only [List.forall_mem_cons] at hdigits
      obtain ⟨hc, hd, hrest⟩ := hdigits
      obtain ⟨high, hhigh, rfl⟩ := exists_hexDigit_eq hc
      obtain ⟨low, hlow, rfl⟩ := exists_hexDigit_eq hd
      simp only [List.length_cons] at hlength
      obtain ⟨octets, rfl, rfl⟩ := ih (by omega) hrest
      have hbyte : (UInt8.ofNat (16 * high + low)).toNat = 16 * high + low :=
        UInt8.toNat_ofNat_of_lt' (show 16 * high + low < 256 by omega)
      refine ⟨UInt8.ofNat (16 * high + low) :: octets, rfl, ?_⟩
      rw [hexOfBytes_cons, hbyte, show (16 * high + low) / 16 = high by omega,
        show (16 * high + low) % 16 = low by omega]

end Text

/-! ### The one spelling of a key -/

/-- The bytes of a key in lower-case digits, behind `0x`. -/
def keyChars (octets : List UInt8) : List Char := '0' :: 'x' :: Text.hexOfBytes octets

/-- The key of some bytes as it is used throughout. -/
def pubkeyOf (octets : List UInt8) : String :=
  if octets.all (· == 0) then unassignedPubkey else String.ofList (keyChars octets)

theorem drop_keyChars (octets : List UInt8) :
    (keyChars octets).drop 2 = Text.hexOfBytes octets := rfl

theorem markedHex_keyChars (octets : List UInt8) : markedHex (keyChars octets) = keyChars octets :=
  rfl

/-- Digits do not look as if they were marked already. -/
theorem markedHex_hexOfBytes (octets : List UInt8) :
    markedHex (Text.hexOfBytes octets) = keyChars octets := by
  refine if_neg fun hprefix => ?_
  obtain ⟨rest, hrest⟩ := List.isPrefixOf_iff_prefix.1 hprefix
  have hx : 'x' ∈ Text.hexOfBytes octets := by
    rw [← hrest]
    simp
  exact absurd (Text.mem_hexDigits_of_mem_hexOfBytes hx) (by decide)

/-- The characters of a key are plain. -/
theorem plain_of_mem_keyChars {octets : List UInt8} {c : Char} (h : c ∈ keyChars octets) :
    c ∈ 'x' :: Text.hexDigits := by
  rcases List.mem_cons.1 h with rfl | h
  · decide
  · rcases List.mem_cons.1 h with rfl | h
    · decide
    · exact List.mem_cons_of_mem _ (Text.mem_hexDigits_of_mem_hexOfBytes h)

theorem plain_chars : ∀ c ∈ 'x' :: Text.hexDigits,
    c.toNat < 128 ∧ Text.isBlank c = false ∧ c.toLower = c := by
  intro c hc
  have hall : ('x' :: Text.hexDigits).all fun c =>
      decide (c.toNat < 128 ∧ Text.isBlank c = false ∧ c.toLower = c) := by decide
  exact of_decide_eq_true (List.all_eq_true.1 hall c hc)

/-- What becomes one of the characters of a key in lower case is ASCII and not blank. -/
theorem ascii_of_toLower_mem {c : Char} (h : c.toLower ∈ 'x' :: Text.hexDigits) :
    c.toNat < 128 ∧ Text.isBlank c = false := by
  by_cases hupper : c.val ≥ 'A'.val ∧ c.val ≤ 'Z'.val
  · have hlow : 65 ≤ c.toNat := UInt32.le_iff_toNat_le.1 hupper.1
    have hhigh : c.toNat ≤ 90 := UInt32.le_iff_toNat_le.1 hupper.2
    refine ⟨by omega, ?_⟩
    simp only [Text.isBlank, Bool.or_eq_false_iff, Bool.and_eq_false_iff, decide_eq_false_iff_not,
      beq_eq_false_iff_ne]
    omega
  · have hself : c.toLower = c := dif_neg hupper
    rw [hself] at h
    exact ⟨(plain_chars c h).1, (plain_chars c h).2.1⟩

/-! ### From its spellings to the key -/

variable {chars : List Char} {octets : List UInt8}

section
variable
  (h : chars.map Char.toLower = Text.hexOfBytes octets ∨ chars.map Char.toLower = keyChars octets)
include h

theorem plain_of_spelled : ∀ c ∈ chars, c.toNat < 128 ∧ Text.isBlank c = false := by
  intro c hc
  have hlower : c.toLower ∈ chars.map Char.toLower := List.mem_map_of_mem hc
  refine ascii_of_toLower_mem ?_
  rcases h with h | h <;> rw [h] at hlower
  · exact List.mem_cons_of_mem _ (Text.mem_hexDigits_of_mem_hexOfBytes hlower)
  · exact plain_of_mem_keyChars hlower

theorem markedHex_spelled : markedHex (Text.lower chars) = keyChars octets := by
  rw [Text.lower_of_lt fun c hc => (plain_of_spelled h c hc).1]
  rcases h with h | h <;> rw [h]
  · exact markedHex_hexOfBytes octets
  · exact markedHex_keyChars octets

/-- A text with the digits of bytes in any case, marked or not, and with blanks around. -/
theorem hexText_spelled {s : String} {before after : List Char}
    (hs : s.toList = before ++ chars ++ after) (hbefore : ∀ c ∈ before, Text.isBlank c = true)
    (hafter : ∀ c ∈ after, Text.isBlank c = true) : (Value.text s).hexText = keyChars octets := by
  change markedHex (Text.lower (Text.strip s.toList)) = keyChars octets
  rw [hs, Text.strip_surrounded hbefore (fun c hc => (plain_of_spelled h c hc).2) hafter,
    markedHex_spelled h]

end

theorem lower_spelled (h : chars.map Char.toLower = keyChars octets) :
    Text.lower chars = keyChars octets := by
  rw [Text.lower_of_lt fun c hc => (plain_of_spelled (.inr h) c hc).1, h]

theorem lower_keyChars (octets : List UInt8) :
    Text.lower (keyChars octets) = keyChars octets := by
  refine lower_spelled ?_
  calc (keyChars octets).map Char.toLower
      = (keyChars octets).map id :=
        List.map_congr_left fun c hc => (plain_chars c (plain_of_mem_keyChars hc)).2.2
    _ = keyChars octets := List.map_id _

/-- The bytes of a key, however they are held. -/
theorem hexText_bytes (form : ByteForm) (octets : List UInt8) :
    (Value.bytes form octets).hexText = keyChars octets := by
  cases form with
  | constant | buffer => rfl
  | view =>
    change Text.lower (markedHex (Text.hexOfBytes octets)) = keyChars octets
    rw [markedHex_hexOfBytes, lower_keyChars]

/-- The key that a value spells, by the bytes. -/
theorem toPubkey_of_hexText {v : Value} {octets : List UInt8} (hnull : v ≠ .null)
    (hwhole : ∀ points, v ≠ .ragged points) (hwritable : v.isWritable = true) (h : v.hexText = keyChars octets) :
    v.toPubkey =
      if octets.all (· == 0) ∨ octets.length = pubkeyLength then .ok (pubkeyOf octets)
      else .error (.pubkeyLength (String.ofList (keyChars octets))) := by
  have hspell : v.toPubkey =
      if (Text.hexOfBytes octets).all (· == '0') then .ok unassignedPubkey
      else if (Text.hexOfBytes octets).length ≠ 2 * pubkeyLength then
        .error (.pubkeyLength (String.ofList (keyChars octets)))
      else .ok (String.ofList (keyChars octets)) := by
    rw [← drop_keyChars, ← h]
    cases v with
    | null => exact absurd rfl hnull
    | ragged points => exact absurd rfl (hwhole points)
    | int _ | list _ | record _ | raggedRecord _ => exact if_neg (ne_false_of_eq_true hwritable)
    | _ => rfl
  rw [hspell, Text.all_hexOfBytes_zero, Text.length_hexOfBytes, pubkeyOf]
  by_cases hzero : octets.all (· == 0) = true
  · rw [if_pos hzero, if_pos (.inl hzero), if_pos hzero]
  · by_cases hlength : octets.length = pubkeyLength
    · rw [if_neg hzero, if_neg (by omega), if_pos (.inr hlength), if_neg hzero]
    · rw [if_neg hzero, if_pos (by omega), if_neg (not_or.2 ⟨hzero, hlength⟩)]

theorem toPubkey_bytes {form : ByteForm} {octets : List UInt8}
    (h : octets.length = pubkeyLength) :
    (Value.bytes form octets).toPubkey = .ok (pubkeyOf octets) := by
  rw [toPubkey_of_hexText (by simp) (by simp) rfl (hexText_bytes form octets), if_pos (.inr h)]

theorem toPubkey_spelled {s : String} {octets : List UInt8}
    (hs : s.toList.map Char.toLower = keyChars octets) (h : octets.length = pubkeyLength) :
    (Value.text s).toPubkey = .ok (pubkeyOf octets) := by
  have hchars : s.toList = [] ++ s.toList ++ [] := by simp
  have hexText := hexText_spelled (.inr hs) hchars (by simp) (by simp)
  rw [toPubkey_of_hexText (by simp) (by simp) rfl hexText, if_pos (.inr h)]

/-! ### Keys that are assigned -/

theorem keyChars_injective {xs ys : List UInt8} (h : keyChars xs = keyChars ys) : xs = ys :=
  Text.hexOfBytes_injective (List.cons.inj (List.cons.inj h).2).2

theorem ofList_keyChars_ne_unassigned (octets : List UInt8) :
    String.ofList (keyChars octets) ≠ unassignedPubkey := by
  intro h
  have hlist := congrArg String.toList h
  rw [String.toList_ofList] at hlist
  exact List.cons_ne_nil _ _ hlist

theorem pubkeyOf_ne_unassigned_iff {octets : List UInt8} :
    pubkeyOf octets ≠ unassignedPubkey ↔ ¬ octets.all (· == 0) := by
  unfold pubkeyOf
  split
  · next hzero => exact ⟨fun h => absurd rfl h, fun h => absurd hzero h⟩
  · next hzero => exact ⟨fun _ => hzero, fun _ => ofList_keyChars_ne_unassigned octets⟩

/-- An assigned key comes from its bytes only. -/
theorem eq_of_pubkeyOf_eq {xs ys : List UInt8} (hxs : ¬ xs.all (· == 0))
    (h : pubkeyOf xs = pubkeyOf ys) : xs = ys := by
  have hys : ¬ ys.all (· == 0) := by
    rw [← pubkeyOf_ne_unassigned_iff, ← h, pubkeyOf_ne_unassigned_iff]
    exact hxs
  rw [pubkeyOf, pubkeyOf, if_neg hxs, if_neg hys] at h
  refine keyChars_injective ?_
  rw [← String.toList_ofList (l := keyChars xs), h, String.toList_ofList]

/-! ### Keys in normal form -/

/-- A key in normal form: `0x` and two lower-case hexadecimal digits for each of its bytes. -/
def NormalKey (key : String) : Prop :=
  ∃ digits, key.toList = '0' :: 'x' :: digits ∧ digits.length = 2 * pubkeyLength ∧
    ∀ c ∈ digits, c ∈ Text.hexDigits

/-- Where a table has what is listed for a key in normal form: under the key itself, and under the key
that is not assigned if all digits are zero. -/
def tableKey (key : String) : String :=
  if (key.toList.drop 2).all (· == '0') then unassignedPubkey else key

theorem NormalKey.exists_octets {key : String} (h : NormalKey key) :
    ∃ octets, octets.length = pubkeyLength ∧ key.toList = keyChars octets := by
  obtain ⟨digits, hkey, hlength, hdigits⟩ := h
  obtain ⟨octets, hoctets, rfl⟩ := Text.exists_hexOfBytes_eq hlength hdigits
  exact ⟨octets, hoctets, hkey⟩

theorem normalKey_ofList {octets : List UInt8} (h : octets.length = pubkeyLength) :
    NormalKey (String.ofList (keyChars octets)) :=
  ⟨Text.hexOfBytes octets, String.toList_ofList, by rw [Text.length_hexOfBytes, h],
    fun _ hc => Text.mem_hexDigits_of_mem_hexOfBytes hc⟩

theorem tableKey_of_toList {key : String} {octets : List UInt8} (h : key.toList = keyChars octets) :
    tableKey key = pubkeyOf octets := by
  rw [tableKey, pubkeyOf, h, drop_keyChars, Text.all_hexOfBytes_zero, ← h, String.ofList_toList]

/-- The text of a key that is not assigned has zeros only, so it is one and the same. -/
theorem tableKey_injOn {key key' : String} (h : NormalKey key) (h' : NormalKey key')
    (heq : tableKey key = tableKey key') : key = key' := by
  obtain ⟨xs, hxs, hkey⟩ := h.exists_octets
  obtain ⟨ys, hys, hkey'⟩ := h'.exists_octets
  rw [tableKey_of_toList hkey, tableKey_of_toList hkey'] at heq
  suffices hsame : xs = ys by
    rw [← String.toList_inj, hkey, hkey', hsame]
  by_cases hzero : xs.all (· == 0) = true
  · have hunassigned : pubkeyOf xs = unassignedPubkey := if_pos hzero
    have hzero' : ys.all (· == 0) = true := by
      cases hall : ys.all (· == 0) with
      | true => rfl
      | false =>
        have hassigned := pubkeyOf_ne_unassigned_iff.2 (Bool.eq_false_iff.1 hall)
        exact absurd (heq.symm.trans hunassigned) hassigned
    simp only [List.all_eq_true, beq_iff_eq] at hzero hzero'
    rw [List.eq_replicate_of_mem hzero, List.eq_replicate_of_mem hzero', hxs, hys]
  · exact eq_of_pubkeyOf_eq hzero heq

theorem NormalKey.comma_notMem {key : String} (h : NormalKey key) : ',' ∉ key.toList := by
  obtain ⟨octets, -, hkey⟩ := h.exists_octets
  rw [hkey]
  intro hcomma
  exact absurd (plain_of_mem_keyChars hcomma) (by decide)

theorem toPubkey_of_lower {s key : String} (hkey : NormalKey key)
    (h : Text.lower s.toList = key.toList) : (Value.text s).toPubkey = .ok (tableKey key) := by
  obtain ⟨octets, hlength, hoctets⟩ := hkey.exists_octets
  have hblank : ∀ c ∈ s.toList, Text.isBlank c = false := by
    intro c hc
    cases hc' : Text.isBlank c with
    | false => rfl
    | true =>
      -- it would be left in the lower-case text, where the characters are those of a key
      have hmem : c ∈ Text.lower s.toList := Text.mem_lowerAfter_of_isBlank hc hc' []
      rw [h, hoctets] at hmem
      exact hc'.symm.trans (plain_chars c (plain_of_mem_keyChars hmem)).2.1
  have hspell : (Value.text s).hexText = keyChars octets := by
    change markedHex (Text.lower (Text.strip s.toList)) = _
    rw [Text.strip_of_not_isBlank hblank, h, hoctets, markedHex_keyChars]
  rw [toPubkey_of_hexText (by simp) (by simp) rfl hspell, if_pos (.inr hlength), tableKey_of_toList hoctets]

end StakeSnapshot
