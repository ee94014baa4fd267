import Mathlib.Algebra.Ring.Int.Defs
import StakeSnapshot.Stake.Effective

/-!
# Live minipools

A minipool is live if it is there, is staking, and has a validator that is active during the epoch of
the snapshot. `standing_eq_eligible_iff` says that the live minipools are those that count, and
`eligibleDeposits_eq` that the deposits of a list of minipools are the sums over its live ones.
-/

namespace StakeSnapshot

/-- The deposits behind all of the given minipools. -/
def Deposits.ofMinipools (ms : List Minipool) : Deposits where
  borrowed := (ms.map (·.borrowed)).sum
  bonded := (ms.map (·.bonded)).sum

theorem Deposits.add_ofMinipools_cons (d : Deposits) (m : Minipool) (ms : List Minipool) :
    d.add (ofMinipools (m :: ms)) = (d.add ⟨m.borrowed, m.bonded⟩).add (ofMinipools ms) := by
  simp [Deposits.add, ofMinipools, Int.add_assoc]

theorem Deposits.none_add (d : Deposits) : Deposits.none.add d = d := by
  simp [Deposits.add, Deposits.none]

namespace Snapshot

/-- The number of whole epochs before the slot. -/
def slotEpoch (s : Snapshot) : Int := s.slot.fdiv s.timing.slotsPerEpoch

theorem epoch_eq {s : Snapshot} (h : s.timing.slotsPerEpoch ≠ 0) : s.epoch = .ok s.slotEpoch := by
  simp [epoch, slotEpoch, ChainTiming.epochOf, h]

/-- The minipool is there, staking, and its validator is active during the epoch of the slot. -/
def Live (s : Snapshot) (m : Minipool) : Prop :=
  m.present = true ∧ m.status = .staking ∧
    ∃ v, s.validatorOf m = some v ∧ v.activationEpoch ≤ s.slotEpoch ∧ s.slotEpoch < v.exitEpoch

instance (s : Snapshot) (m : Minipool) : Decidable (s.Live m) :=
  decidable_of_iff
    (m.present = true ∧ m.status = .staking ∧ (s.validatorOf m).any
      (fun v => v.activationEpoch ≤ s.slotEpoch ∧ s.slotEpoch < v.exitEpoch) = true)
    (by simp [Live, Option.any_eq_true])

/-- With epochs of some length every minipool has a standing. -/
theorem exists_standing {s : Snapshot} (h : s.timing.slotsPerEpoch ≠ 0) (m : Minipool) :
    ∃ standing, s.standing m = .ok standing := by
  unfold standing
  split
  · exact ⟨_, rfl⟩
  · split
    · exact ⟨_, rfl⟩
    · rw [epoch_eq h]
      exact ⟨_, rfl⟩

/-- The minipools that count are the live ones. -/
theorem standing_eq_eligible_iff {s : Snapshot} (h : s.timing.slotsPerEpoch ≠ 0) (m : Minipool) :
    s.standing m = .ok .eligible ↔ s.Live m := by
  unfold standing Live
  split
  · next hidle =>
    constructor
    · intro he
      cases he
    · rintro ⟨hp, hs, -⟩
      simp [hp, hs] at hidle
  · next hstaking =>
    obtain ⟨hp, hs⟩ : m.present = true ∧ m.status = .staking := by simpa using hstaking
    cases hv : s.validatorOf m with
    | none => simp
    | some v =>
      simp only [epoch_eq h, Except.map, Except.ok.injEq, Standing.ofEpochs_eq_eligible_iff]
      simp [hp, hs]

/-- Minipools that are not live add nothing. -/
theorem eligibleDeposits_eq {s : Snapshot} (h : s.timing.slotsPerEpoch ≠ 0) (ms : List Minipool) :
    s.eligibleDeposits ms = .ok (.ofMinipools (ms.filter (s.Live ·))) := by
  -- the sum so far has to be arbitrary for the induction
  rw [eligibleDeposits, ← Deposits.none_add (.ofMinipools _)]
  generalize Deposits.none = d
  induction ms generalizing d with
  | nil => simp [Deposits.ofMinipools, Deposits.add, pure, Except.pure]
  | cons m ms ih =>
    obtain ⟨standing, hst⟩ := exists_standing h m
    have hlive := standing_eq_eligible_iff h m
    rw [hst] at hlive
    simp only [List.foldlM_cons, hst, List.filter_cons]
    by_cases he : standing = .eligible
    · have hm : s.Live m := hlive.1 (by rw [he])
      subst he
      rw [if_pos (by simpa using hm), Deposits.add_ofMinipools_cons]
      exact ih _
    · have hm : ¬ s.Live m := fun hm => he (by simpa using hlive.2 hm)
      rw [if_neg (by simpa using hm)]
      cases standing with
      | eligible => exact absurd rfl he
      | idle | unknown | early | exited => exact ih d

end Snapshot

end StakeSnapshot
