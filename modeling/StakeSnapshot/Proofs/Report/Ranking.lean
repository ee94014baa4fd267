import Mathlib.Data.String.Basic
import StakeSnapshot.Report.Listing

/-!
# The ranking of the stakes

Sorting arranges rows by decreasing stake and then by address in lower case; rows that these do not
tell apart keep the order in which they stand (`Outranks`). Of distinct rows there is one such
arrangement only (`IsRanking.unique`), and the rows with a positive stake come first in it. The order
of equal rows is argued from the places of the rows, with which a stable sort gives the same list.
-/

namespace StakeSnapshot.Report

/-- The address of a row in lower case. -/
def lowered (row : String × Int) : String := String.ofList (Text.lower row.1.toList)

/-- One row comes before another one: its stake is greater, or else its address is less in lower case,
or else it stands before the other among all rows. -/
def Outranks (rows : List (String × Int)) (a b : String × Int) : Prop :=
  b.2 < a.2 ∨ a.2 = b.2 ∧
    (lowered a < lowered b ∨ lowered a = lowered b ∧ rows.idxOf a < rows.idxOf b)

instance (rows : List (String × Int)) (a b : String × Int) : Decidable (Outranks rows a b) :=
  inferInstanceAs (Decidable (_ ∨ _))

/-- The rows in order of rank. -/
structure IsRanking (rows ranking : List (String × Int)) : Prop where
  perm : ranking.Perm rows
  ordered : ranking.Pairwise (Outranks rows)

variable {rows ranking : List (String × Int)} {a b c : String × Int}

theorem Outranks.asymm (h : Outranks rows a b) : ¬ Outranks rows b a := by
  rintro (hstake | ⟨hstake, hrest⟩)
  · rcases h with h | ⟨h, -⟩ <;> omega
  · rcases h with h | ⟨-, haddress | ⟨haddress, hplace⟩⟩
    · omega
    · rcases hrest with hless | ⟨hsame, -⟩
      · exact lt_asymm haddress hless
      · exact haddress.ne' hsame
    · rcases hrest with hless | ⟨-, hbefore⟩
      · exact hless.ne' haddress
      · omega

/-- A stake that is outranked is not greater. -/
theorem Outranks.stake_le (h : Outranks rows a b) : b.2 ≤ a.2 := by
  rcases h with h | ⟨h, -⟩ <;> omega

namespace IsRanking

theorem unique {other : List (String × Int)} (h : IsRanking rows ranking)
    (h' : IsRanking rows other) : ranking = other :=
  List.Perm.eq_of_pairwise (fun _ _ _ _ hab hba => absurd hba hab.asymm) h.ordered h'.ordered
    (h.perm.trans h'.perm.symm)

/-- The rows with a positive stake come before all others. -/
theorem positive_first (h : IsRanking rows ranking) :
    ∃ positive others, ranking = positive ++ others ∧ (∀ row ∈ positive, 0 < row.2) ∧
      (∀ row ∈ others, row.2 ≤ 0) ∧ positive.Perm (rows.filter fun row => 0 < row.2) := by
  have hordered := h.ordered
  have hperm : (ranking.filter fun row => 0 < row.2).Perm (rows.filter fun row => 0 < row.2) :=
    h.perm.filter _
  suffices hsplit : ∃ others, ranking = (ranking.filter fun row => 0 < row.2) ++ others ∧
      ∀ row ∈ others, row.2 ≤ 0 by
    obtain ⟨others, hothers, hle⟩ := hsplit
    exact ⟨_, others, hothers, fun row hrow => by simpa using (List.mem_filter.1 hrow).2, hle, hperm⟩
  clear hperm h
  induction ranking with
  | nil => exact ⟨[], rfl, by simp⟩
  | cons row ranking ih =>
    obtain ⟨hrow, hrest⟩ := List.pairwise_cons.1 hordered
    by_cases hpositive : 0 < row.2
    · obtain ⟨others, hothers, hle⟩ := ih hrest
      refine ⟨others, ?_, hle⟩
      rw [List.filter_cons_of_pos (by simpa using hpositive), List.cons_append, ← hothers]
    · -- nothing behind a row without a positive stake has one
      have hle : ∀ other ∈ row :: ranking, other.2 ≤ 0 := by
        intro other hother
        rcases List.mem_cons.1 hother with rfl | hother
        · omega
        · have := (hrow other hother).stake_le
          omega
      refine ⟨row :: ranking, ?_, hle⟩
      rw [List.filter_eq_nil_iff.2 fun other hother => by simpa using hle other hother,
        List.nil_append]

end IsRanking

/-! ### Sorting -/

theorem ranksBefore_iff :
    ranksBefore a b = true ↔ b.2 < a.2 ∨ a.2 = b.2 ∧ lowered a ≤ lowered b := by
  simp [ranksBefore, lowered]

theorem ranksBefore_trans (a b c : String × Int) (h : ranksBefore a b = true)
    (h' : ranksBefore b c = true) : ranksBefore a c = true := by
  rw [ranksBefore_iff] at h h' ⊢
  rcases h with h | ⟨h, hab⟩ <;> rcases h' with h' | ⟨h', hbc⟩
  · exact .inl (by omega)
  · exact .inl (by omega)
  · exact .inl (by omega)
  · exact .inr ⟨by omega, hab.trans hbc⟩

theorem ranksBefore_total (a b : String × Int) : (ranksBefore a b || ranksBefore b a) = true := by
  rw [Bool.or_eq_true, ranksBefore_iff, ranksBefore_iff]
  rcases lt_trichotomy a.2 b.2 with hstake | hstake | hstake
  · exact .inr (.inl hstake)
  · rcases le_total (lowered a) (lowered b) with haddress | haddress
    · exact .inl (.inr ⟨hstake, haddress⟩)
    · exact .inr (.inr ⟨hstake.symm, haddress⟩)
  · exact .inl (.inl hstake)

/-- Of two rows with their places, the one that a stable sort puts first outranks the other. -/
theorem outranks_of_zipIdxLE {a b : (String × Int) × Nat} (ha : rows.idxOf a.1 = a.2)
    (hb : rows.idxOf b.1 = b.2) (hne : a.2 ≠ b.2) (h : List.zipIdxLE ranksBefore a b = true) :
    Outranks rows a.1 b.1 := by
  unfold List.zipIdxLE at h
  split at h
  · next hab =>
    rcases ranksBefore_iff.1 hab with hstake | ⟨hstake, haddress⟩
    · exact .inl hstake
    · refine .inr ⟨hstake, ?_⟩
      split at h
      · next hba =>
        rcases ranksBefore_iff.1 hba with hless | ⟨-, hback⟩
        · omega
        · have hplace : a.2 ≤ b.2 := by simpa using h
          exact .inr ⟨le_antisymm haddress hback, by omega⟩
      · next hba =>
        refine .inl (lt_of_not_ge fun hback => hba ?_)
        exact ranksBefore_iff.2 (.inr ⟨hstake.symm, hback⟩)
  · cases h

/-- Sorting arranges distinct rows in order of rank. -/
theorem isRanking_ranked (h : rows.Nodup) : IsRanking rows (ranked rows) where
  perm := List.mergeSort_perm rows _
  ordered := by
    rw [ranked, ← List.mergeSort_zipIdx, List.pairwise_map]
    have hsorted := List.pairwise_mergeSort (List.zipIdxLE_trans ranksBefore_trans)
      (List.zipIdxLE_total ranksBefore_total) rows.zipIdx
    have hplaces : ((rows.zipIdx.mergeSort (List.zipIdxLE ranksBefore)).map Prod.snd).Nodup := by
      rw [((List.mergeSort_perm rows.zipIdx _).map Prod.snd).nodup_iff, List.zipIdx_map_snd]
      exact List.nodup_range'
    have hplace : ∀ a ∈ rows.zipIdx.mergeSort (List.zipIdxLE ranksBefore),
        rows.idxOf a.1 = a.2 := by
      intro a ha
      obtain ⟨hlt, hget⟩ :=
        List.getElem?_eq_some_iff.1 (List.mem_zipIdx_iff_getElem?.1 (List.mem_mergeSort.1 ha))
      rw [← hget, h.idxOf_getElem]
    have hdistinct := List.pairwise_map.1 hplaces
    refine (hsorted.and hdistinct).imp_of_mem fun ha hb hab => ?_
    exact outranks_of_zipIdxLE (hplace _ ha) (hplace _ hb) hab.2 hab.1

end StakeSnapshot.Report
