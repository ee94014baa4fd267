import Mathlib.Algebra.Order.BigOperators.Group.List
import StakeSnapshot.Proofs.Stake.Reference

/-!
# Bounds and monotonicity of stakes

The part of a stake that counts lies between zero and both the stake and the greatest collateral, and
what of it counts for the time since the registration lies between zero and that part, rounded down
by less than one. Both parts grow with the stake, also where the least collateral exceeds the
greatest, and the second does not grow with the time of the registration. All of this is about
settings without negative amounts (`Snapshot.Sensible`), and follows from the same facts about the
clamp and about the one quotient that is taken of it.
-/

namespace StakeSnapshot

/-! ### The clamp -/

namespace Collateral
variable {c : Collateral} {stake more : Int}

theorem clamp_nonneg (hc : 0 ≤ c.maximum) (hs : 0 ≤ stake) : 0 ≤ c.clamp stake := by
  unfold clamp
  split
  · omega
  · split <;> omega

theorem clamp_le_min (hc : 0 ≤ c.maximum) (hs : 0 ≤ stake) :
    c.clamp stake ≤ min stake c.maximum := by
  unfold clamp
  split
  · omega
  · split <;> omega

theorem clamp_of_lt_minimum (h : stake < c.minimum) : c.clamp stake = 0 := if_pos h

/-- A greater stake counts for no less, whichever of the two bounds is the greater one. -/
theorem clamp_mono (hc : 0 ≤ c.maximum) (hs : 0 ≤ stake) (h : stake ≤ more) :
    c.clamp stake ≤ c.clamp more := by
  unfold clamp
  by_cases hmore : more < c.minimum
  · rw [if_pos hmore, if_pos (by omega)]
  · rw [if_neg hmore]
    split
    · split <;> omega
    · split <;> split <;> omega

end Collateral

/-! ### The time since the registration -/

/-- The part of a stake that counts for some time in an interval. -/
def participated (stake elapsed interval : Int) : Int := stake * min elapsed interval / interval

section
variable {stake more elapsed longer interval : Int}

theorem scaleByParticipation_eq_participated {registered time : Int} (hi : 0 < interval)
    (hr : registered ≤ time) (stake : Int) :
    scaleByParticipation stake registered time interval =
      .ok (participated stake (time - registered) interval) := by
  rw [Snapshot.scaleByParticipation_eq hi hr, ← fdiv_eq_roundedQuotient hi,
    Int.fdiv_eq_ediv_of_nonneg _ hi.le, participated]

theorem participated_nonneg (hi : 0 < interval) (hs : 0 ≤ stake) (he : 0 ≤ elapsed) :
    0 ≤ participated stake elapsed interval :=
  Int.ediv_nonneg (mul_nonneg hs (le_min he hi.le)) hi.le

/-- After the whole interval the whole stake counts. -/
theorem participated_of_le (hi : 0 < interval) (h : interval ≤ elapsed) :
    participated stake elapsed interval = stake := by
  rw [participated, min_eq_right h, Int.mul_ediv_cancel _ hi.ne']

/-- Before that, what counts is short of the exact part by less than one. -/
theorem participated_bounds (hi : 0 < interval) (h : elapsed < interval) :
    participated stake elapsed interval * interval ≤ stake * elapsed ∧
      stake * elapsed < (participated stake elapsed interval + 1) * interval := by
  rw [participated, min_eq_left h.le]
  exact ⟨Int.ediv_mul_le _ hi.ne', Int.lt_ediv_add_one_mul_self _ hi⟩

/-- More counts for a greater stake, and for a longer time. -/
theorem participated_mono (hi : 0 < interval) (hs : 0 ≤ stake) (he : 0 ≤ elapsed)
    (hstake : stake ≤ more) (helapsed : elapsed ≤ longer) :
    participated stake elapsed interval ≤ participated more longer interval := by
  have htime : min elapsed interval ≤ min longer interval := min_le_min_right _ helapsed
  apply Int.ediv_le_ediv hi
  calc stake * min elapsed interval
      ≤ stake * min longer interval := mul_le_mul_of_nonneg_left htime hs
    _ ≤ more * min longer interval :=
        mul_le_mul_of_nonneg_right hstake (le_min (he.trans helapsed) hi.le)

theorem participated_le (hi : 0 < interval) (hs : 0 ≤ stake) (he : 0 ≤ elapsed) :
    participated stake elapsed interval ≤ stake := by
  calc participated stake elapsed interval
      ≤ participated stake (max elapsed interval) interval :=
        participated_mono hi hs he le_rfl (le_max_left _ _)
    _ = stake := participated_of_le hi (le_max_right _ _)

end

namespace Snapshot

variable {s : Snapshot} {n p : Node}

/-! ### Nodes of a snapshot -/

/-- The price and the interval are positive, epochs have some length, and neither the fractions nor
the deposits behind minipools are negative. -/
structure Sensible (s : Snapshot) : Prop where
  price : 0 < s.parameters.price
  slotsPerEpoch : s.timing.slotsPerEpoch ≠ 0
  interval : 0 < s.parameters.interval
  minimumFraction : 0 ≤ s.parameters.minimumFraction
  maximumFraction : 0 ≤ s.parameters.maximumFraction
  deposits : ∀ address, ∀ m ∈ s.minipoolsOf address, 0 ≤ m.borrowed ∧ 0 ≤ m.bonded

/-- The stake of a node is not negative, and it has registered by the time of the snapshot. -/
structure Admits (s : Snapshot) (n : Node) : Prop where
  stake : 0 ≤ n.stake
  registered : n.registered ≤ s.time

/-- The bounds that the minipools of a node set for its stake. -/
def collateral (s : Snapshot) (n : Node) : Except Fault Collateral := do
  let deposits ← s.eligibleDeposits (s.minipoolsOf n.address)
  Collateral.ofDeposits deposits s.parameters.price s.parameters.minimumFraction
    s.parameters.maximumFraction

/-- What holds of the whole stake and of the scaled stake of a node, given the bounds that its
minipools set. -/
structure Bounded (s : Snapshot) (n : Node) (c : Collateral) (whole scaled : Int) : Prop where
  nonneg : 0 ≤ scaled
  scaled_le : scaled ≤ whole
  whole_le : whole ≤ min n.stake c.maximum
  none_eligible : (∀ m ∈ s.minipoolsOf n.address, s.standing m ≠ .ok .eligible) → whole = 0
  below_minimum : n.stake < c.minimum → whole = 0
  part : s.time - n.registered < s.parameters.interval →
    scaled * s.parameters.interval ≤ whole * (s.time - n.registered) ∧
      whole * (s.time - n.registered) < (scaled + 1) * s.parameters.interval
  full : s.parameters.interval ≤ s.time - n.registered → scaled = whole

/-- The bounds that the live minipools of a node set. -/
def liveBounds (s : Snapshot) (n : Node) : Collateral :=
  let deposits := Deposits.ofMinipools ((s.minipoolsOf n.address).filter (s.Live ·))
  ⟨(deposits.borrowed * s.parameters.minimumFraction).fdiv s.parameters.price,
    (deposits.bonded * s.parameters.maximumFraction).fdiv s.parameters.price⟩

/-- The part of the stake of a node that counts, for the whole interval or since the registration. -/
def countedStake (s : Snapshot) (scale : Bool) (n : Node) : Int :=
  let whole := (s.liveBounds n).clamp n.stake
  if scale then participated whole (s.time - n.registered) s.parameters.interval else whole

theorem liveBounds_of_address (h : n.address = p.address) : s.liveBounds n = s.liveBounds p := by
  rw [liveBounds, liveBounds, h]

namespace Sensible
variable (hs : s.Sensible)
include hs

theorem collateral_eq (n : Node) : s.collateral n = .ok (s.liveBounds n) := by
  rw [collateral, eligibleDeposits_eq hs.slotsPerEpoch]
  exact if_neg (not_le.2 hs.price)

theorem nodeStake_eq (hn : s.Admits n) (scale : Bool) :
    s.nodeStake scale n = .ok (s.countedStake scale n) := by
  rw [nodeStake_of_deposits (eligibleDeposits_eq hs.slotsPerEpoch _) hs.price]
  cases scale with
  | false => rfl
  | true =>
    simp only [if_true, scaleByParticipation_eq_participated hs.interval hn.registered]
    rfl

/-- The deposits of no minipool take from the greatest collateral. -/
theorem maximum_nonneg (n : Node) : 0 ≤ (s.liveBounds n).maximum := by
  have hbonded :
      0 ≤ (Deposits.ofMinipools ((s.minipoolsOf n.address).filter (s.Live ·))).bonded := by
    apply List.sum_nonneg
    intro x hx
    obtain ⟨m, hm, rfl⟩ := List.mem_map.1 hx
    exact (hs.deposits n.address m (List.mem_of_mem_filter hm)).2
  exact Int.fdiv_nonneg (mul_nonneg hbonded hs.maximumFraction) hs.price.le

theorem maximum_eq_zero (h : ∀ m ∈ s.minipoolsOf n.address, s.standing m ≠ .ok .eligible) :
    (s.liveBounds n).maximum = 0 := by
  have hlive : (s.minipoolsOf n.address).filter (s.Live ·) = [] := by
    rw [List.filter_eq_nil_iff]
    intro m hm hlive
    exact h m hm ((standing_eq_eligible_iff hs.slotsPerEpoch m).2 (of_decide_eq_true hlive))
  simp [liveBounds, hlive, Deposits.ofMinipools]

theorem whole_nonneg (hn : s.Admits n) : 0 ≤ (s.liveBounds n).clamp n.stake :=
  Collateral.clamp_nonneg (hs.maximum_nonneg n) hn.stake

theorem bounded (hn : s.Admits n) :
    s.Bounded n (s.liveBounds n) (s.countedStake false n) (s.countedStake true n) := by
  have helapsed : 0 ≤ s.time - n.registered := Int.sub_nonneg.2 hn.registered
  have hwhole := hs.whole_nonneg hn
  have hmin := Collateral.clamp_le_min (hs.maximum_nonneg n) hn.stake
  exact {
    nonneg := participated_nonneg hs.interval hwhole helapsed
    scaled_le := participated_le hs.interval hwhole helapsed
    whole_le := hmin
    none_eligible := by
      intro h
      rw [hs.maximum_eq_zero h] at hmin
      exact le_antisymm (hmin.trans (min_le_right _ _)) hwhole
    below_minimum := Collateral.clamp_of_lt_minimum
    part := participated_bounds hs.interval
    full := participated_of_le hs.interval }

/-- A node counts for no less than another one at its address with a smaller stake and a later
registration. -/
theorem countedStake_mono (hn : s.Admits n) (haddress : n.address = p.address)
    (hstake : n.stake ≤ p.stake) (scale : Bool)
    (hregistered : scale = true → p.registered ≤ n.registered) :
    s.countedStake scale n ≤ s.countedStake scale p := by
  have hwhole : (s.liveBounds n).clamp n.stake ≤ (s.liveBounds p).clamp p.stake := by
    rw [← liveBounds_of_address haddress]
    exact Collateral.clamp_mono (hs.maximum_nonneg n) hn.stake hstake
  cases scale with
  | false => exact hwhole
  | true =>
    exact participated_mono hs.interval (hs.whole_nonneg hn) (Int.sub_nonneg.2 hn.registered) hwhole
      (Int.sub_le_sub_left (hregistered rfl) _)

theorem effectiveStakes_eq (hnodes : ∀ n ∈ s.nodes, s.Admits n) (scale : Bool) {threads : Int}
    (ht : 1 ≤ threads) :
    s.effectiveStakes scale threads =
      .ok (.ofRows (s.nodes.map fun n => (n.address, s.countedStake scale n))) := by
  have hc : s.checkConfiguration scale threads = .ok () :=
    checkConfiguration_eq_ok ht hs.price fun _ => hs.interval
  refine effectiveStakes_of_namedStake hc fun n hn => ?_
  rw [namedStake, hs.nodeStake_eq (hnodes n hn)]
  rfl

end Sensible

/-- In a sensible snapshot every node has a whole stake and a scaled one. The scaled stake lies
between zero and the whole one, which lies below the stake and the greatest collateral; a part of the
interval counts by the quotient rounded down. Neither decreases when the stake grows, and the scaled
one does not increase when the registration is later. So scaling does not increase the total. -/
theorem stakes_bounded_and_monotone (hs : s.Sensible) :
    (∀ n, s.Admits n → ∃ c whole scaled, s.collateral n = .ok c ∧
      s.nodeStake false n = .ok whole ∧ s.nodeStake true n = .ok scaled ∧
      s.Bounded n c whole scaled) ∧
    (∀ n more later, s.Admits n → n.stake ≤ more → n.registered ≤ later → later ≤ s.time →
      (∀ scale, ∃ x y, s.nodeStake scale n = .ok x ∧
        s.nodeStake scale { n with stake := more } = .ok y ∧ x ≤ y) ∧
      ∃ x y, s.nodeStake true n = .ok x ∧
        s.nodeStake true { n with registered := later } = .ok y ∧ y ≤ x) ∧
    ∀ threads : Int, 1 ≤ threads → (∀ n ∈ s.nodes, s.Admits n) →
      ∃ whole scaled, s.effectiveStakes false threads = .ok whole ∧
        s.effectiveStakes true threads = .ok scaled ∧ scaled.total ≤ whole.total := by
  refine ⟨fun n hn => ?_, fun n more later hn hmore hlater htime => ⟨fun scale => ?_, ?_⟩, ?_⟩
  · exact ⟨_, _, _, hs.collateral_eq n, hs.nodeStake_eq hn false, hs.nodeStake_eq hn true,
      hs.bounded hn⟩
  · have hgrown : s.Admits { n with stake := more } := ⟨hn.stake.trans hmore, hn.registered⟩
    exact ⟨_, _, hs.nodeStake_eq hn scale, hs.nodeStake_eq hgrown scale,
      hs.countedStake_mono (p := { n with stake := more }) hn rfl hmore scale fun _ => le_rfl⟩
  · have hdelayed : s.Admits { n with registered := later } := ⟨hn.stake, htime⟩
    exact ⟨_, _, hs.nodeStake_eq hn true, hs.nodeStake_eq hdelayed true,
      hs.countedStake_mono (p := n) hdelayed rfl le_rfl true fun _ => hlater⟩
  · intro threads ht hnodes
    refine ⟨_, _, hs.effectiveStakes_eq hnodes false ht, hs.effectiveStakes_eq hnodes true ht, ?_⟩
    simp only [EffectiveStakes.ofRows, List.map_map]
    exact List.sum_le_sum fun n hn => (hs.bounded (hnodes n hn)).scaled_le

/-! ### A least collateral above the greatest -/

theorem deposits_nonneg_of_indexed (hi : s.Indexed)
    (h : ∀ m ∈ s.minipools, 0 ≤ m.borrowed ∧ 0 ≤ m.bonded) (address : String) :
    ∀ m ∈ s.minipoolsOf address, 0 ≤ m.borrowed ∧ 0 ≤ m.bonded := by
  intro m hm
  rw [hi.minipoolsOf] at hm
  exact h m (List.mem_of_mem_filter hm)

/-- The two nodes of `halfway`, with a least collateral of 400 for the one and of 200 for the other,
and a greatest of 8 for both. -/
def crossed : Snapshot :=
  { halfway with parameters := ⟨10, 25, 1, 3, 600, ⟨70, 15, 15⟩, 0⟩ }

theorem sensible_crossed : crossed.Sensible where
  price := by decide
  slotsPerEpoch := by decide
  interval := by decide
  minimumFraction := by decide
  maximumFraction := by decide
  deposits := deposits_nonneg_of_indexed (indexed_reindexed _) (by decide)

/-- A stake of 301 does not reach the least collateral, and one of 400 counts for the greatest. -/
theorem stakes_bounded_and_monotone_crossed :
    crossed.Sensible ∧ (∀ n ∈ crossed.nodes, crossed.Admits n) ∧
    crossed.collateral ⟨"0xa", 301, 900⟩ = .ok ⟨400, 8⟩ ∧
    (∃ x y, crossed.nodeStake false ⟨"0xa", 301, 900⟩ = .ok x ∧
      crossed.nodeStake false ⟨"0xa", 400, 900⟩ = .ok y ∧ x ≤ y) ∧
    crossed.nodeStake false ⟨"0xa", 400, 900⟩ = .ok 8 ∧
    ∃ whole scaled, crossed.effectiveStakes false 4 = .ok whole ∧
      crossed.effectiveStakes true 4 = .ok scaled ∧ scaled.total ≤ whole.total := by
  obtain ⟨-, hmono, htotal⟩ := stakes_bounded_and_monotone sensible_crossed
  have hstake : ∀ n ∈ crossed.nodes, 0 ≤ n.stake := by decide
  have hregistered : ∀ n ∈ crossed.nodes, n.registered ≤ crossed.time := by decide
  have hnodes : ∀ n ∈ crossed.nodes, crossed.Admits n :=
    fun n hn => ⟨hstake n hn, hregistered n hn⟩
  obtain ⟨hgrown, -⟩ := hmono ⟨"0xa", 301, 900⟩ 400 900 ⟨by decide, by decide⟩ (by decide) le_rfl
    (by decide)
  exact ⟨sensible_crossed, hnodes, rfl, hgrown false, rfl, htotal 4 (by decide) hnodes⟩

end Snapshot

end StakeSnapshot
