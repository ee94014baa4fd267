import Mathlib.Data.Rat.Floor
import StakeSnapshot.Proofs.Lookups
import StakeSnapshot.Proofs.Stake.Collect
import StakeSnapshot.Proofs.Stake.Live

/-!
# The effective stakes in closed form

`Snapshot.referenceStake` gives the effective stake of a node as one expression over the rows of the
snapshot, with the quotients taken in the rational numbers and rounded down.
`effectiveStakes_eq_reference` says that it is what the calculation arrives at, for every row, with
the table of stakes and the total that follow from it.
-/

namespace StakeSnapshot

/-- The quotient of two integers, rounded down. -/
def roundedQuotient (a b : Int) : Int := ⌊(a : ℚ) / b⌋

theorem fdiv_eq_roundedQuotient {b : Int} (h : 0 < b) (a : Int) :
    a.fdiv b = roundedQuotient a b := by
  obtain ⟨k, rfl⟩ := Int.eq_ofNat_of_zero_le h.le
  rw [roundedQuotient, Int.fdiv_eq_ediv_of_nonneg _ h.le, Int.cast_natCast,
    Rat.floor_intCast_div_natCast]

namespace Snapshot

variable {s : Snapshot} {scale : Bool} {n : Node}

/-- The live minipools that a node owns. -/
def liveMinipools (s : Snapshot) (n : Node) : List Minipool :=
  s.minipools.filter fun m => m.owner = n.address ∧ s.Live m

/-- The effective stake of a node as an expression over the rows. -/
def referenceStake (s : Snapshot) (scale : Bool) (n : Node) : Int :=
  let borrowed := ((s.liveMinipools n).map (·.borrowed)).sum
  let bonded := ((s.liveMinipools n).map (·.bonded)).sum
  let least := roundedQuotient (borrowed * s.parameters.minimumFraction) s.parameters.price
  let most := roundedQuotient (bonded * s.parameters.maximumFraction) s.parameters.price
  let counted := if n.stake < least then 0 else min n.stake most
  let interval := s.parameters.interval
  if scale then roundedQuotient (counted * min (s.time - n.registered) interval) interval
  else counted

theorem nodeStake_of_deposits {d : Deposits}
    (hd : s.eligibleDeposits (s.minipoolsOf n.address) = .ok d) (hp : 0 < s.parameters.price) :
    s.nodeStake scale n =
      let c : Collateral := ⟨(d.borrowed * s.parameters.minimumFraction).fdiv s.parameters.price,
        (d.bonded * s.parameters.maximumFraction).fdiv s.parameters.price⟩
      if scale then
        (scaleByParticipation (c.clamp n.stake) n.registered s.time s.parameters.interval).mapError
          (.nodeStake n.address)
      else .ok (c.clamp n.stake) := by
  have hc : Collateral.ofDeposits d s.parameters.price s.parameters.minimumFraction
      s.parameters.maximumFraction = _ := if_neg (by omega)
  rw [nodeStake, hd]
  simp only [bind, Except.bind, hc]
  rfl

theorem filter_live_minipoolsOf (hi : s.Indexed) :
    (s.minipoolsOf n.address).filter (s.Live ·) = s.liveMinipools n := by
  rw [hi.minipoolsOf, List.filter_filter, liveMinipools]
  congr 1
  funext m
  rw [Bool.and_comm, ← Bool.decide_and]

/-- Up to the whole interval the time since the registration counts. -/
theorem scaleByParticipation_eq {registered time interval : Int} (hi : 0 < interval)
    (hr : registered ≤ time) (stake : Int) :
    scaleByParticipation stake registered time interval =
      .ok (roundedQuotient (stake * min (time - registered) interval) interval) := by
  unfold scaleByParticipation
  rw [if_neg (by omega)]
  split
  · next hlt => rw [min_eq_left hlt.le, fdiv_eq_roundedQuotient hi]
  · next hge =>
    rw [min_eq_right (by omega), ← fdiv_eq_roundedQuotient hi, Int.mul_fdiv_cancel _ hi.ne']

theorem clamp_eq (c : Collateral) (stake : Int) :
    c.clamp stake = if stake < c.minimum then 0 else min stake c.maximum := by
  unfold Collateral.clamp
  split
  · rfl
  · split
    · rw [min_eq_right (by omega)]
    · rw [min_eq_left (by omega)]

theorem nodeStake_eq_reference (hi : s.Indexed) (hp : 0 < s.parameters.price)
    (he : s.timing.slotsPerEpoch ≠ 0)
    (hs : scale = true → 0 < s.parameters.interval ∧ n.registered ≤ s.time) :
    s.nodeStake scale n = .ok (s.referenceStake scale n) := by
  have hd : s.eligibleDeposits (s.minipoolsOf n.address) =
      .ok (.ofMinipools (s.liveMinipools n)) := by
    rw [eligibleDeposits_eq he, filter_live_minipoolsOf hi]
  rw [nodeStake_of_deposits hd hp, referenceStake]
  simp only [Deposits.ofMinipools, clamp_eq, fdiv_eq_roundedQuotient hp]
  cases scale with
  | false => rfl
  | true =>
    obtain ⟨hinterval, hr⟩ := hs rfl
    simp only [if_true, scaleByParticipation_eq hinterval hr]
    rfl

theorem checkConfiguration_eq_ok {threads : Int} (ht : 1 ≤ threads) (hp : 0 < s.parameters.price)
    (hs : scale = true → 0 < s.parameters.interval) :
    s.checkConfiguration scale threads = .ok () := by
  rw [checkConfiguration, if_neg (by omega), if_neg (by omega), if_neg]
  rintro ⟨hscale, hle⟩
  exact absurd (hs hscale) (by omega)

/-- The calculation succeeds, and gives each row its stake in closed form; an address has the stake
of its last row, in the place of its first, and the total is the sum over all rows. -/
theorem effectiveStakes_eq_reference (s : Snapshot) (scale : Bool) (threads : Int)
    (hi : s.Indexed) (ht : 1 ≤ threads) (hp : 0 < s.parameters.price)
    (he : s.timing.slotsPerEpoch ≠ 0)
    (hs : scale = true → 0 < s.parameters.interval ∧ ∀ n ∈ s.nodes, n.registered ≤ s.time) :
    (∀ n ∈ s.nodes, s.nodeStake scale n = .ok (s.referenceStake scale n) ∧
      s.namedStake scale n = .ok (s.referenceStake scale n)) ∧
    ∃ stakes, s.effectiveStakes scale threads = .ok stakes ∧
      stakes.byNode.keys = (s.nodes.map (·.address)).eraseDups ∧
      (∀ address, Table.find? stakes.byNode address =
        (s.nodes.filter (·.address = address)).getLast?.map (s.referenceStake scale)) ∧
      stakes.total = (s.nodes.map (s.referenceStake scale)).sum := by
  have hnode : ∀ n ∈ s.nodes, s.nodeStake scale n = .ok (s.referenceStake scale n) :=
    fun n hn => nodeStake_eq_reference hi hp he fun h => ⟨(hs h).1, (hs h).2 n hn⟩
  have hnamed : ∀ n ∈ s.nodes, s.namedStake scale n = .ok (s.referenceStake scale n) := by
    intro n hn
    rw [namedStake, hnode n hn]
    rfl
  have hc : s.checkConfiguration scale threads = .ok () :=
    checkConfiguration_eq_ok ht hp fun h => (hs h).1
  refine ⟨fun n hn => ⟨hnode n hn, hnamed n hn⟩, _, effectiveStakes_of_namedStake hc hnamed,
    ?_, ?_, ?_⟩
  · simp only [EffectiveStakes.ofRows, Table.keys_ofRows, List.map_map]
    rfl
  · intro address
    simp only [EffectiveStakes.ofRows, Table.find?_ofRows, List.filter_map, List.getLast?_map,
      Option.map_map]
    rfl
  · simp only [EffectiveStakes.ofRows, List.map_map]
    rfl

/-- Two nodes, one of them listed twice and registered halfway through the interval, with one live
minipool each and one whose validator has exited. -/
def halfway : Snapshot := reindexed
  { block := 7
    slot := 100
    timing := ⟨0, 12, 32⟩
    parameters := ⟨10, 1, 25, 3, 600, ⟨70, 15, 15⟩, 0⟩
    nodes := [⟨"0xa", 301, 900⟩, ⟨"0xb", 12, 0⟩, ⟨"0xa", 90, 900⟩]
    minipools := [⟨"0xm", "0xa", "0x1", true, .staking, 160, 80⟩,
      ⟨"0xn", "0xb", "0x2", true, .staking, 80, 80⟩, ⟨"0xo", "0xa", "0x3", true, .staking, 160, 80⟩]
    validators := [("0x1", ⟨"0x1", 1, "active", 32, 32, false, 3, 4, farFutureEpoch⟩),
      ("0x2", ⟨"0x2", 2, "active", 32, 32, false, 0, farFutureEpoch, farFutureEpoch⟩),
      ("0x3", ⟨"0x3", 3, "exited", 32, 32, false, 0, 3, farFutureEpoch⟩)]
    lookups := ⟨[], [], [], []⟩ }

theorem effectiveStakes_halfway :
    (halfway.Indexed ∧ (1 : Int) ≤ 4 ∧ 0 < halfway.parameters.price ∧
      halfway.timing.slotsPerEpoch ≠ 0 ∧ 0 < halfway.parameters.interval ∧
      ∀ n ∈ halfway.nodes, n.registered ≤ halfway.time) ∧
    halfway.effectiveStakes true 4 = .ok ⟨[("0xa", 45), ("0xb", 12)], 157⟩ ∧
    (halfway.nodes.map (halfway.referenceStake true)).sum = 157 := by
  have hr : ∀ n ∈ halfway.nodes, n.registered ≤ halfway.time := by decide
  obtain ⟨-, stakes, hstakes, -, -, htotal⟩ := effectiveStakes_eq_reference halfway true 4
    (indexed_reindexed _) (by decide) (by decide) (by decide) fun _ => ⟨by decide, hr⟩
  have hrun : halfway.effectiveStakes true 4 = .ok ⟨[("0xa", 45), ("0xb", 12)], 157⟩ := by decide
  rw [hrun] at hstakes
  cases hstakes
  exact ⟨⟨indexed_reindexed _, by decide, by decide, by decide, by decide, hr⟩, hrun, htotal.symm⟩

end Snapshot

end StakeSnapshot
