import StakeSnapshot.Proofs.Pubkey

/-!
# One key for all spellings

Bytes are spelled by a value that holds them, and by every text that has two digits for each of them
(`Value.Spells`). What becomes of a spelling depends on the bytes alone: nothing if they are zero, the
one key if there are as many as a key has, and otherwise a fault with the digits. So two assigned
keys are equal only if their bytes are, and a key spells itself. All of it is said by
`toPubkey_canonical`.
-/

namespace StakeSnapshot

/-- A value spells bytes if it holds them, or if it is a text with two digits in any case for each of
them, perhaps behind `0x` or `0X`, and with any white space around. -/
inductive Value.Spells (octets : List UInt8) : Value → Prop where
  | bytes (form : ByteForm) : Spells octets (.bytes form octets)
  | text {s : String} {before mark digits after : List Char}
      (hs : s.toList = before ++ (mark ++ digits) ++ after)
      (hbefore : ∀ c ∈ before, Text.isBlank c = true)
      (hmark : mark = [] ∨ mark = ['0', 'x'] ∨ mark = ['0', 'X'])
      (hdigits : digits.map Char.toLower = Text.hexOfBytes octets)
      (hafter : ∀ c ∈ after, Text.isBlank c = true) : Spells octets (.text s)

variable {octets : List UInt8}

/-! ### Digits without the blanks around them -/

/-- In lower case a text of digits is the key of its bytes, without or with the mark in front. -/
theorem lower_marked {mark digits : List Char}
    (hmark : mark = [] ∨ mark = ['0', 'x'] ∨ mark = ['0', 'X'])
    (hdigits : digits.map Char.toLower = Text.hexOfBytes octets) :
    (mark ++ digits).map Char.toLower = Text.hexOfBytes octets ∨
      (mark ++ digits).map Char.toLower = keyChars octets := by
  rw [List.map_append, hdigits]
  rcases hmark with rfl | rfl | rfl
  · exact .inl rfl
  · exact .inr rfl
  · exact .inr rfl

/-- Every spelling has the lower-case digits of the bytes, marked. -/
theorem Value.Spells.hexText {v : Value} (h : v.Spells octets) : v.hexText = keyChars octets := by
  cases h with
  | bytes form => exact hexText_bytes form octets
  | @text s before mark digits after hs hbefore hmark hdigits hafter =>
    exact hexText_spelled (lower_marked hmark hdigits) hs hbefore hafter

theorem Value.Spells.ne_null {v : Value} (h : v.Spells octets) : v ≠ .null := by
  rintro rfl
  cases h

theorem Value.Spells.ne_ragged {v : Value} (h : v.Spells octets) (points : List CodePoint) :
    v ≠ .ragged points := by
  rintro rfl
  cases h

theorem Value.Spells.isWritable {v : Value} (h : v.Spells octets) : v.isWritable = true := by
  cases h <;> rfl

/-! ### Keys from their spellings -/

/-- What becomes of bytes, however they are spelled. -/
def canonicalKey (octets : List UInt8) : Except Fault String :=
  if octets.all (· == 0) then .ok unassignedPubkey
  else if octets.length = pubkeyLength then .ok (String.ofList (keyChars octets))
  else .error (.pubkeyLength (String.ofList (keyChars octets)))

theorem canonicalKey_cases {key : String} (h : canonicalKey octets = .ok key) :
    (octets.all (· == 0) = true ∧ key = unassignedPubkey) ∨
      (¬ octets.all (· == 0) ∧ key = String.ofList (keyChars octets)) := by
  unfold canonicalKey at h
  split at h
  · next hzero =>
    cases h
    exact .inl ⟨hzero, rfl⟩
  · next hzero =>
    split at h
    · cases h
      exact .inr ⟨hzero, rfl⟩
    · cases h

theorem Value.Spells.toPubkey {v : Value} (h : v.Spells octets) :
    v.toPubkey = canonicalKey octets := by
  rw [toPubkey_of_hexText h.ne_null h.ne_ragged h.isWritable h.hexText, canonicalKey, pubkeyOf]
  by_cases hzero : octets.all (· == 0) = true
  · rw [if_pos (.inl hzero), if_pos hzero, if_pos hzero]
  · by_cases hlength : octets.length = pubkeyLength
    · rw [if_pos (.inr hlength), if_neg hzero, if_neg hzero, if_pos hlength]
    · rw [if_neg (not_or.2 ⟨hzero, hlength⟩), if_neg hzero, if_neg hlength]

theorem spells_keyChars (octets : List UInt8) :
    (Value.text (String.ofList (keyChars octets))).Spells octets := by
  have hchars : (String.ofList (keyChars octets)).toList =
      [] ++ (['0', 'x'] ++ Text.hexOfBytes octets) ++ [] := by simp [keyChars]
  refine .text hchars (by simp) (.inr (.inl rfl)) ?_ (by simp)
  have hlower := lower_keyChars octets
  rw [Text.lower_of_lt fun c hc => (plain_chars c (plain_of_mem_keyChars hc)).1] at hlower
  exact (List.cons.inj (List.cons.inj hlower).2).2

/-- All spellings of the same bytes have the same outcome: no key for zeros only, the key of the right
number of bytes, and a fault with the digits for any other number. An assigned key comes from its own
bytes alone, and spelled again it stays as it is. -/
theorem toPubkey_canonical (octets : List UInt8) :
    (∀ v : Value, v.Spells octets → v.toPubkey =
      if octets.all (· == 0) then .ok unassignedPubkey
      else if octets.length = pubkeyLength then .ok (String.ofList (keyChars octets))
      else .error (.pubkeyLength (String.ofList (keyChars octets)))) ∧
    (∀ (others : List UInt8) (v w : Value) (key : String), ¬ octets.all (· == 0) →
      v.Spells octets → w.Spells others → v.toPubkey = .ok key → w.toPubkey = .ok key →
      others = octets) ∧
    ∀ (v : Value) (key : String), v.Spells octets → v.toPubkey = .ok key →
      (Value.text key).toPubkey = .ok key := by
  refine ⟨fun v hv => hv.toPubkey, fun others v w key hassigned hv hw hvkey hwkey => ?_,
    fun v key hv hkey => ?_⟩
  · rw [hv.toPubkey] at hvkey
    rw [hw.toPubkey] at hwkey
    rcases canonicalKey_cases hvkey with ⟨hzero, -⟩ | ⟨-, rfl⟩
    · exact absurd hzero hassigned
    · rcases canonicalKey_cases hwkey with ⟨-, hnone⟩ | ⟨-, heq⟩
      · exact absurd hnone (ofList_keyChars_ne_unassigned octets)
      · exact keyChars_injective (String.ofList_injective heq).symm
  · have hsame := hkey
    rw [hv.toPubkey] at hsame
    -- the text for no key leads to itself, and any other key is a spelling of its own bytes
    rcases canonicalKey_cases hsame with ⟨-, rfl⟩ | ⟨-, rfl⟩
    · rfl
    · rw [(spells_keyChars octets).toPubkey, ← hv.toPubkey, hkey]

/-- The bytes of a key and a text with its digits in either case, behind `0X` and between blanks. -/
theorem toPubkey_canonical_mixedCase :
    let octets := List.replicate 48 (0xab : UInt8)
    let spelled := String.ofList
      ([' ', '\t'] ++ (['0', 'X'] ++ (List.replicate 48 ['a', 'B']).flatten) ++ ['\n'])
    let key := String.ofList (keyChars octets)
    (Value.bytes .view octets).Spells octets ∧ (Value.text spelled).Spells octets ∧
      (Value.text spelled).toPubkey = (Value.bytes .view octets).toPubkey ∧
      (Value.text spelled).toPubkey = .ok key ∧ (Value.text key).toPubkey = .ok key := by
  intro octets spelled key
  have hbefore : ∀ c ∈ [' ', '\t'], Text.isBlank c = true :=
    List.forall_mem_cons.2 ⟨rfl, List.forall_mem_singleton.2 rfl⟩
  have hspelled : (Value.text spelled).Spells octets :=
    .text String.toList_ofList hbefore (.inr (.inr rfl)) (by decide) (List.forall_mem_singleton.2 rfl)
  obtain ⟨hsame, -, hagain⟩ := toPubkey_canonical octets
  have hbytes := hsame _ (.bytes .view)
  have htext := hsame _ hspelled
  exact ⟨.bytes .view, hspelled, htext.trans hbytes.symm, htext, hagain _ _ hspelled htext⟩

end StakeSnapshot
