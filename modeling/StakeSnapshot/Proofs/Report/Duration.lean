import Mathlib.Algebra.BigOperators.Group.List.Basic
import StakeSnapshot.Proofs.Number.Digits
import StakeSnapshot.Report.Duration

/-!
# Durations read back

The text of a duration is a sign and counts with their units, which `durationSeconds?` adds up. Leading
counts of zero are left out: that changes neither the sum nor the last units, so the text still tells the
number of seconds (`duration_reads_back`).
-/

namespace StakeSnapshot.Report
open Number

/-! ### Reading a duration -/

/-- The seconds of a unit. -/
def unitSeconds? : Char → Option Nat
  | 'd' => some 86400
  | 'h' => some 3600
  | 'm' => some 60
  | 's' => some 1
  | _ => none

/-- The seconds of a count with its unit. -/
def partSeconds? (part : List Char) : Option Nat := do
  let seconds ← unitSeconds? (← part.getLast?)
  let count ← numeral? part.dropLast
  return count * seconds

/-- The seconds of counts that are separated by spaces. -/
def totalSeconds? (s : List Char) : Option Nat :=
  ((s.splitOn ' ').mapM partSeconds?).map List.sum

/-- The seconds of a duration, less than none with a sign in front. -/
def durationSeconds? : List Char → Option Int
  | '-' :: rest => (totalSeconds? rest).map fun (n : Nat) => -(n : Int)
  | s => (totalSeconds? s).map fun (n : Nat) => (n : Int)

/-- The units of a duration, the longest first. -/
def durationUnits : List Char := ['d', 'h', 'm', 's']

/-- Counts with their units as they are shown: the units from some one on to the seconds, with less of
each than one of the next longer unit, and not none of the first unless there is no other. -/
structure WellSplit (parts : List (Nat × Char)) : Prop where
  units : parts.map Prod.snd <:+ durationUnits
  showsSeconds : 's' ∈ parts.map Prod.snd
  hours : ∀ n, (n, 'h') ∈ parts → n < 24
  minutes : ∀ n, (n, 'm') ∈ parts → n < 60
  seconds : ∀ n, (n, 's') ∈ parts → n < 60
  first : ∀ n unit rest, parts = (n, unit) :: rest → rest ≠ [] → n ≠ 0

/-! ### Counts and units -/

/-- The seconds of a count, by its unit. -/
def secondsIn (part : Nat × Char) : Nat := part.1 * (unitSeconds? part.2).getD 0

theorem exists_unitSeconds : ∀ unit ∈ durationUnits, ∃ seconds, unitSeconds? unit = some seconds := by
  intro unit h
  have hknown : durationUnits.all fun unit => (unitSeconds? unit).isSome := by decide
  exact Option.isSome_iff_exists.1 (List.all_eq_true.1 hknown unit h)

theorem partSeconds?_durationPart {part : Nat × Char} (h : part.2 ∈ durationUnits) :
    partSeconds? (durationPart part) = some (secondsIn part) := by
  obtain ⟨seconds, hseconds⟩ := exists_unitSeconds part.2 h
  have hlast : (durationPart part).getLast? = some part.2 := by simp [durationPart]
  have hcount : (durationPart part).dropLast = digits part.1 := by simp [durationPart]
  rw [partSeconds?, hlast, hcount, numeral?_digits, secondsIn, hseconds]
  simp [hseconds]

theorem space_notMem_durationPart {part : Nat × Char} (h : part.2 ∈ durationUnits) :
    ' ' ∉ durationPart part := by
  intro hspace
  rcases List.mem_append.1 hspace with hspace | hspace
  · exact ne_of_isDigit (isDigit_of_mem_digits hspace) rfl rfl
  · rw [← List.mem_singleton.1 hspace] at h
    exact absurd h (by decide)

/-! ### Joined parts -/

theorem joinParts_eq (parts : List (List Char)) : joinParts parts = [' '].intercalate parts := by
  induction parts with
  | nil => rfl
  | cons part parts ih =>
    cases parts with
    | nil => rw [joinParts, List.intercalate_singleton]
    | cons next parts =>
      rw [joinParts, ih, List.intercalate_cons_cons, List.append_assoc]
      rfl

theorem exists_joinParts_cons (part : List Char) (parts : List (List Char)) :
    ∃ rest, joinParts (part :: parts) = part ++ rest := by
  cases parts with
  | nil => exact ⟨[], (List.append_nil part).symm⟩
  | cons next parts => exact ⟨' ' :: joinParts (next :: parts), rfl⟩

section
variable {parts : List (Nat × Char)} (hne : parts ≠ [])
  (hunits : ∀ part ∈ parts, part.2 ∈ durationUnits)

include hunits in
theorem mapM_partSeconds :
    (parts.map durationPart).mapM partSeconds? = some (parts.map secondsIn) := by
  induction parts with
  | nil => rfl
  | cons part parts ih =>
    obtain ⟨hunit, hunits⟩ := List.forall_mem_cons.1 hunits
    rw [List.map_cons, List.mapM_cons, partSeconds?_durationPart hunit, ih hunits]
    rfl

include hne

include hunits in
/-- The parts can be told apart, so their seconds are added up. -/
theorem totalSeconds?_joinParts :
    totalSeconds? (joinParts (parts.map durationPart)) = some (parts.map secondsIn).sum := by
  have hsplit : (joinParts (parts.map durationPart)).splitOn ' ' = parts.map durationPart := by
    rw [joinParts_eq]
    refine List.splitOn_intercalate ' ' (fun text htext => ?_) (by simpa using hne)
    obtain ⟨part, hpart, rfl⟩ := List.mem_map.1 htext
    exact space_notMem_durationPart (hunits part hpart)
  rw [totalSeconds?, hsplit, mapM_partSeconds hunits]
  rfl

/-- Without a sign a duration starts with a digit. -/
theorem exists_digit_joinParts :
    ∃ c rest, joinParts (parts.map durationPart) = c :: rest ∧ c.isDigit = true := by
  obtain ⟨part, parts, rfl⟩ := List.exists_cons_of_ne_nil hne
  obtain ⟨rest, hrest⟩ := exists_joinParts_cons (durationPart part) (parts.map durationPart)
  obtain ⟨c, ds, hdigits⟩ := List.exists_cons_of_ne_nil (digits_ne_nil part.1)
  refine ⟨c, ds ++ [part.2] ++ rest, ?_, isDigit_of_mem_digits (hdigits ▸ List.mem_cons_self)⟩
  rw [List.map_cons, hrest, durationPart, hdigits, List.cons_append, List.cons_append]

end

/-! ### Leading zeros -/

theorem dropLeadingZeros_suffix (parts : List (Nat × Char)) : dropLeadingZeros parts <:+ parts := by
  fun_induction dropLeadingZeros parts with
  | case1 => exact List.suffix_rfl
  | case2 last => exact List.suffix_rfl
  | case3 unit rest _ ih => exact ih.trans (List.suffix_cons _ rest)
  | case4 n unit rest => exact List.suffix_rfl

theorem getLast?_dropLeadingZeros (parts : List (Nat × Char)) :
    (dropLeadingZeros parts).getLast? = parts.getLast? := by
  fun_induction dropLeadingZeros parts with
  | case1 => rfl
  | case2 last => rfl
  | case3 unit rest hrest ih =>
    obtain ⟨part, rest, rfl⟩ := List.exists_cons_of_ne_nil hrest
    rw [ih, List.getLast?_cons_cons]
  | case4 n unit rest => rfl

/-- Parts of zero have no seconds. -/
theorem sum_dropLeadingZeros (parts : List (Nat × Char)) :
    ((dropLeadingZeros parts).map secondsIn).sum = (parts.map secondsIn).sum := by
  fun_induction dropLeadingZeros parts with
  | case1 => rfl
  | case2 last => rfl
  | case3 unit rest _ ih => rw [ih, List.map_cons, List.sum_cons, secondsIn, Nat.zero_mul, Nat.zero_add]
  | case4 n unit rest => rfl

theorem first_dropLeadingZeros {parts rest : List (Nat × Char)} {n : Nat} {unit : Char}
    (h : dropLeadingZeros parts = (n, unit) :: rest) (hrest : rest ≠ []) : n ≠ 0 := by
  fun_induction dropLeadingZeros parts with
  | case1 => cases h
  | case2 last => exact absurd (List.cons.inj h).2.symm hrest
  | case3 unit rest _ ih => exact ih h
  | case4 m unit rest _ hm =>
    cases h
    exact hm

/-! ### The parts of a number of seconds -/

/-- The parts of a duration that are shown. -/
def shownParts (n : Nat) : List (Nat × Char) := dropLeadingZeros (durationParts n)

theorem sum_shownParts (n : Nat) : ((shownParts n).map secondsIn).sum = n := by
  rw [shownParts, sum_dropLeadingZeros]
  simp only [durationParts, List.map_cons, List.map_nil, List.sum_cons, List.sum_nil, secondsIn,
    unitSeconds?, Option.getD_some]
  omega

theorem wellSplit_shownParts (n : Nat) : WellSplit (shownParts n) := by
  have hsuffix : shownParts n <:+ durationParts n := dropLeadingZeros_suffix (durationParts n)
  have hlast : (shownParts n).getLast? = some (n % 60, 's') := getLast?_dropLeadingZeros _
  have hmem : ∀ part ∈ shownParts n, part ∈ durationParts n := fun part h => hsuffix.subset h
  have hunit : ∀ part ∈ durationParts n, (part.2 = 'h' → part.1 < 24) ∧
      (part.2 = 'm' → part.1 < 60) ∧ (part.2 = 's' → part.1 < 60) := by
    simp only [durationParts, List.forall_mem_cons, Char.reduceEq, IsEmpty.forall_iff, forall_const,
      and_self, and_true, true_and, List.not_mem_nil]
    omega
  exact {
    units := hsuffix.map Prod.snd
    showsSeconds := List.mem_map.2 ⟨_, List.mem_of_getLast? hlast, rfl⟩
    hours := fun k hk => (hunit _ (hmem _ hk)).1 rfl
    minutes := fun k hk => (hunit _ (hmem _ hk)).2.1 rfl
    seconds := fun k hk => (hunit _ (hmem _ hk)).2.2 rfl
    first := fun _ _ _ hparts hrest => first_dropLeadingZeros hparts hrest }

namespace WellSplit
variable {parts : List (Nat × Char)} (h : WellSplit parts)
include h

theorem ne_nil : parts ≠ [] := by
  rintro rfl
  exact absurd h.showsSeconds List.not_mem_nil

theorem unit_mem : ∀ part ∈ parts, part.2 ∈ durationUnits := fun _ hpart =>
  h.units.subset (List.mem_map_of_mem hpart)

end WellSplit

theorem duration_eq (seconds : Int) :
    duration seconds = (if seconds < 0 then ['-'] else []) ++
      joinParts ((shownParts seconds.natAbs).map durationPart) := by
  rw [duration]
  split <;> rfl

theorem durationSeconds?_duration (seconds : Int) :
    durationSeconds? (duration seconds) = some seconds := by
  have hwell := wellSplit_shownParts seconds.natAbs
  have htotal := totalSeconds?_joinParts hwell.ne_nil hwell.unit_mem
  rw [sum_shownParts] at htotal
  rw [duration_eq]
  rcases Int.lt_or_le seconds 0 with hs | hs
  · rw [if_pos hs, List.singleton_append, durationSeconds?, htotal, Option.map_some,
      Int.ofNat_natAbs_of_nonpos hs.le, Int.neg_neg]
  · rw [if_neg (Int.not_lt.2 hs), List.nil_append]
    obtain ⟨c, rest, htext, hc⟩ := exists_digit_joinParts hwell.ne_nil
    rw [htext] at htotal ⊢
    have hminus : c ≠ '-' := ne_of_isDigit hc rfl
    unfold durationSeconds?
    split
    · next h => exact absurd (List.cons.inj h).1 hminus
    · rw [htotal, Option.map_some, Int.natAbs_of_nonneg hs]

example : duration (-90061) = "-1d 1h 1m 1s".toList := by decide

end StakeSnapshot.Report
