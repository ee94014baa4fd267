import Mathlib.Algebra.Order.Ring.Int
import StakeSnapshot.Proofs.Lookups
import StakeSnapshot.Proofs.Stake.Live
import StakeSnapshot.Proofs.Stake.Stepwise

/-!
# Minipools that count, and lines for the others

A staking minipool counts while the slot of the snapshot lies in the time of its validator, from the
first slot of the epoch of activation up to the first slot of the exit epoch (`Snapshot.InWindow`).
Every other staking minipool is explained by one line, and no further lines are told, so none of the
staking minipools is passed over in silence (`counted_or_explained`).
-/

namespace StakeSnapshot

/-- The minipool is there and is staking. -/
def Minipool.Staking (m : Minipool) : Prop := m.present = true ∧ m.status = .staking

instance (m : Minipool) : Decidable m.Staking := inferInstanceAs (Decidable (_ ∧ _))

namespace Snapshot

/-- The minipool is staking, and the slot lies in the epochs of its validator. -/
def InWindow (s : Snapshot) (m : Minipool) : Prop :=
  m.Staking ∧ ∃ v, s.validatorOf m = some v ∧
    v.activationEpoch * s.timing.slotsPerEpoch ≤ s.slot ∧
    s.slot < v.exitEpoch * s.timing.slotsPerEpoch

instance (s : Snapshot) (m : Minipool) : Decidable (s.InWindow m) :=
  decidable_of_iff
    (m.Staking ∧ (s.validatorOf m).any (fun v =>
      v.activationEpoch * s.timing.slotsPerEpoch ≤ s.slot ∧
        s.slot < v.exitEpoch * s.timing.slotsPerEpoch) = true)
    (by simp [InWindow, Option.any_eq_true])

/-- The minipools of a node that count. -/
def counted (s : Snapshot) (n : Node) : List Minipool :=
  (s.minipoolsOf n.address).filter (s.InWindow ·)

/-- The staking minipools of a node that do not count. -/
def uncounted (s : Snapshot) (n : Node) : List Minipool :=
  (s.minipoolsOf n.address).filter fun m => m.Staking ∧ ¬ s.InWindow m

/-- The line for a staking minipool that does not count: its validator is not known, is active later
or has exited. -/
def explanation (s : Snapshot) (m : Minipool) : LogLine :=
  match s.validatorOf m with
  | none => .unknownValidator m.address m.pubkey
  | some v =>
    if s.slotEpoch < v.activationEpoch then .startsLater m.address v.activationEpoch s.slotEpoch
    else .exited m.address v.exitEpoch s.slotEpoch

variable {s : Snapshot} {n : Node} {m : Minipool}

section
variable (h : 0 < s.timing.slotsPerEpoch)
include h

/-! ### Slots and epochs -/

theorem slotEpoch_eq_ediv : s.slotEpoch = s.slot / s.timing.slotsPerEpoch :=
  Int.fdiv_eq_ediv_of_nonneg _ h.le

theorem le_slotEpoch_iff (epoch : Int) :
    epoch ≤ s.slotEpoch ↔ epoch * s.timing.slotsPerEpoch ≤ s.slot := by
  rw [slotEpoch_eq_ediv h, Int.le_ediv_iff_mul_le h]

theorem slotEpoch_lt_iff (epoch : Int) :
    s.slotEpoch < epoch ↔ s.slot < epoch * s.timing.slotsPerEpoch := by
  rw [slotEpoch_eq_ediv h, Int.ediv_lt_iff_lt_mul h]

theorem live_iff_inWindow : s.Live m ↔ s.InWindow m := by
  simp only [Live, InWindow, Minipool.Staking, le_slotEpoch_iff h, slotEpoch_lt_iff h, and_assoc]

theorem standing_eligible_iff_inWindow : s.standing m = .ok .eligible ↔ s.InWindow m := by
  rw [standing_eq_eligible_iff h.ne', live_iff_inWindow h]

/-! ### One minipool -/

omit h in
theorem standing_of_not_staking (hm : ¬ m.Staking) : s.standing m = .ok .idle := by
  refine if_pos ?_
  by_contra hidle
  exact hm (by simpa [Minipool.Staking] using hidle)

omit h in
theorem standing_of_unknown (hm : m.Staking) (hv : s.validatorOf m = none) :
    s.standing m = .ok .unknown := by
  rw [standing, if_neg (by simp [hm.1, hm.2]), hv]

theorem standing_of_validator (hm : m.Staking) {v : Validator} (hv : s.validatorOf m = some v) :
    s.standing m = .ok (.ofEpochs v.activationEpoch v.exitEpoch s.slotEpoch) := by
  rw [standing, if_neg (by simp [hm.1, hm.2]), hv, epoch_eq h.ne']
  rfl

/-- The line for a minipool, which there is exactly if it is staking and does not count. -/
theorem exists_standing_note (m : Minipool) :
    ∃ standing, s.standing m = .ok standing ∧
      standing.note? m = if m.Staking ∧ ¬ s.InWindow m then some (s.explanation m) else none := by
  by_cases hm : m.Staking
  · cases hv : s.validatorOf m with
    | none =>
      have hout : ¬ s.InWindow m := by
        rintro ⟨-, v, hsome, -⟩
        rw [hv] at hsome
        cases hsome
      refine ⟨_, standing_of_unknown hm hv, ?_⟩
      rw [if_pos ⟨hm, hout⟩, explanation, hv]
      rfl
    | some v =>
      have hwindow : s.InWindow m ↔ v.activationEpoch ≤ s.slotEpoch ∧ s.slotEpoch < v.exitEpoch := by
        rw [← live_iff_inWindow h, Live]
        simp [hv, hm.1, hm.2]
      refine ⟨_, standing_of_validator h hm hv, ?_⟩
      rw [explanation, hv, Standing.ofEpochs]
      by_cases hearly : s.slotEpoch < v.activationEpoch
      · rw [if_pos hearly, if_pos ⟨hm, fun hin => by have := hwindow.1 hin; omega⟩]
        dsimp only
        rw [if_pos hearly]
        rfl
      · rw [if_neg hearly]
        by_cases hexited : v.exitEpoch ≤ s.slotEpoch
        · rw [if_pos hexited, if_pos ⟨hm, fun hin => by have := hwindow.1 hin; omega⟩]
          dsimp only
          rw [if_neg hearly]
          rfl
        · rw [if_neg hexited, if_neg fun hin => hin.2 (hwindow.2 (by omega))]
          rfl
  · refine ⟨_, standing_of_not_staking hm, ?_⟩
    rw [if_neg fun hin => hm hin.1]
    rfl

/-! ### The minipools of a node -/

/-- The lines are those of the staking minipools that do not count, in the order of the list. -/
theorem notes_eq_map (ms : List Minipool) :
    s.notes ms = (ms.filter fun m => m.Staking ∧ ¬ s.InWindow m).map s.explanation := by
  induction ms with
  | nil => rfl
  | cons m ms ih =>
    obtain ⟨standing, hstanding, hnote⟩ := exists_standing_note h m
    rw [notes, hstanding, List.filter_cons]
    dsimp only
    rw [hnote, ih]
    by_cases hm : m.Staking ∧ ¬ s.InWindow m
    · rw [if_pos hm, if_pos (decide_eq_true hm)]
      rfl
    · rw [if_neg hm, if_neg (by simpa using hm)]
      rfl

theorem eligibleDeposits_eq_counted :
    s.eligibleDeposits (s.minipoolsOf n.address) = .ok (.ofMinipools (s.counted n)) := by
  rw [eligibleDeposits_eq h.ne', counted]
  simp only [live_iff_inWindow h]

omit h in
theorem length_staking (s : Snapshot) (n : Node) :
    ((s.minipoolsOf n.address).filter (·.Staking)).length =
      (s.counted n).length + (s.uncounted n).length := by
  rw [List.length_eq_length_filter_add (s.InWindow ·), List.filter_filter, List.filter_filter,
    counted, uncounted]
  congr 2
  · refine List.filter_congr fun m _ => ?_
    rw [← Bool.decide_and]
    exact decide_eq_decide.2 (and_iff_left_of_imp And.left)
  · refine List.filter_congr fun m _ => ?_
    rw [← decide_not, ← Bool.decide_and]
    exact decide_eq_decide.2 and_comm

end

/-- With epochs of positive length, the minipools that count for a node are exactly those of its own
that are staking while the slot lies in the epochs of their validator, and its stake is that for their
deposits. One line is told for each other staking minipool of the node, in the order of the list, and
none besides. So there are as many staking minipools as there are lines and minipools that count. -/
theorem counted_or_explained (h : 0 < s.timing.slotsPerEpoch) (n : Node) :
    (s.Indexed → s.minipoolsOf n.address = s.minipools.filter (·.owner = n.address)) ∧
    (∀ m, s.standing m = .ok .eligible ↔ s.InWindow m) ∧
    (∀ byZero scale, s.nodeStake scale n =
      s.watchedStake byZero scale n (.ofMinipools (s.counted n))) ∧
    s.nodeNotes n = (s.uncounted n).map s.explanation ∧
    ((s.minipoolsOf n.address).filter (·.Staking)).length =
      (s.counted n).length + (s.nodeNotes n).length := by
  have hnotes : s.nodeNotes n = (s.uncounted n).map s.explanation := notes_eq_map h _
  refine ⟨fun hi => hi.minipoolsOf _, fun m => standing_eligible_iff_inWindow h,
    fun byZero scale => ?_, hnotes, ?_⟩
  · rw [nodeStake_eq_bind byZero, eligibleDeposits_eq_counted h]
    rfl
  · rw [hnotes, List.length_map, length_staking]

/-- The first slot of epoch 3, and a node with a minipool that is not there, one that is not staking
yet, one without a validator, one that is active an epoch later, one that has just exited and one in
its only epoch. -/
def firstOfEpoch : Snapshot := reindexed
  { block := 7
    slot := 96
    timing := ⟨0, 12, 32⟩
    parameters := ⟨10, 1, 25, 3, 600, ⟨70, 15, 15⟩, 0⟩
    nodes := [⟨"0xa", 301, 900⟩, ⟨"0xb", 12, 0⟩]
    minipools := [⟨"0xm", "0xa", "0x3", false, .staking, 160, 80⟩,
      ⟨"0xn", "0xa", "0x3", true, .prelaunch, 160, 80⟩, ⟨"0xo", "0xa", "0x9", true, .staking, 80, 80⟩,
      ⟨"0xp", "0xb", "0x9", true, .staking, 80, 80⟩, ⟨"0xq", "0xa", "0x1", true, .staking, 160, 80⟩,
      ⟨"0xr", "0xa", "0x2", true, .staking, 160, 80⟩, ⟨"0xs", "0xa", "0x3", true, .staking, 160, 80⟩]
    validators := [("0x1", ⟨"0x1", 1, "pending", 32, 32, false, 4, farFutureEpoch, farFutureEpoch⟩),
      ("0x2", ⟨"0x2", 2, "exited", 32, 32, false, 0, 3, farFutureEpoch⟩),
      ("0x3", ⟨"0x3", 3, "active", 32, 32, false, 3, 4, farFutureEpoch⟩)]
    lookups := ⟨[], [], [], []⟩ }

theorem counted_or_explained_firstOfEpoch :
    0 < firstOfEpoch.timing.slotsPerEpoch ∧
    firstOfEpoch.counted ⟨"0xa", 301, 900⟩ = [⟨"0xs", "0xa", "0x3", true, .staking, 160, 80⟩] ∧
    firstOfEpoch.nodeNotes ⟨"0xa", 301, 900⟩ =
      [.unknownValidator "0xo" "0x9", .startsLater "0xq" 4 3, .exited "0xr" 3 3] ∧
    ((firstOfEpoch.minipoolsOf "0xa").filter (·.Staking)).length = 1 + 3 := by
  have hcounted : firstOfEpoch.counted ⟨"0xa", 301, 900⟩ =
      [⟨"0xs", "0xa", "0x3", true, .staking, 160, 80⟩] := by decide
  obtain ⟨-, -, -, hnotes, hlength⟩ := counted_or_explained (s := firstOfEpoch) (by decide)
    ⟨"0xa", 301, 900⟩
  have hlines : (firstOfEpoch.uncounted ⟨"0xa", 301, 900⟩).map firstOfEpoch.explanation =
      [.unknownValidator "0xo" "0x9", .startsLater "0xq" 4 3, .exited "0xr" 3 3] := by decide
  rw [hlines] at hnotes
  rw [hcounted, hnotes] at hlength
  exact ⟨by decide, hcounted, hnotes, hlength⟩

end Snapshot

end StakeSnapshot
