import Mathlib.Algebra.BigOperators.Group.List.Basic
import StakeSnapshot.Proofs.Lookups
import StakeSnapshot.Proofs.Stake.Collect
import StakeSnapshot.Proofs.Stake.Failure

/-!
# What a stake depends on

The stake of a node depends on the minipools that it owns and on the validators behind those of them
that are staking, and on nothing else in the lists of a snapshot (`Snapshot.AgreeOn`). The order of
the minipools does not matter, as all failures on the way through them are the same one. So the lists
may be put in another order: the calculation succeeds as before with the same total, and with the same
table up to its order if no address repeats. Both are said by `stakes_depend_on_own_rows`.
-/

namespace StakeSnapshot

/-- A fold that may fail does not depend on the order of the list if any two of its steps may be
exchanged. -/
theorem foldlM_of_perm {ε α β : Type} {f : β → α → Except ε β}
    (hswap : ∀ b x y, (f b x >>= (f · y)) = (f b y >>= (f · x))) {xs ys : List α}
    (h : xs.Perm ys) (b : β) : xs.foldlM f b = ys.foldlM f b := by
  induction h generalizing b with
  | nil => rfl
  | cons x _ ih => simp only [List.foldlM_cons, ih]
  | swap x y xs => simp only [List.foldlM_cons, ← bind_assoc, hswap b y x]
  | trans _ _ ih ih' => exact (ih b).trans (ih' b)

/-- The epochs that decide whether a validator is active. -/
def Validator.activity (v : Validator) : Int × Int := (v.activationEpoch, v.exitEpoch)

theorem Standing.counted_comm (d : Deposits) (m p : Minipool) (x y : Standing) :
    y.counted (x.counted d m) p = x.counted (y.counted d p) m := by
  cases x <;> cases y <;> simp [counted, Deposits.add, Int.add_right_comm]

namespace Snapshot

/-- Two snapshots of the same slot, with the same timing and the same parameters. -/
structure SameSetting (s t : Snapshot) : Prop where
  slot : s.slot = t.slot
  timing : s.timing = t.timing
  parameters : s.parameters = t.parameters

/-- The minipools of a node are the same in any order, and those of them that are staking have
validators with the same epochs, or none in both snapshots. -/
structure AgreeOn (s t : Snapshot) (n : Node) : Prop where
  minipools : (s.minipools.filter (·.owner = n.address)).Perm
    (t.minipools.filter (·.owner = n.address))
  validators : ∀ m ∈ s.minipools, m.owner = n.address → m.present = true → m.status = .staking →
    (s.validatorOf m).map Validator.activity = (t.validatorOf m).map Validator.activity

/-- The snapshot with other lists, and the lookups over them. -/
def withLists (s : Snapshot) (nodes : List Node) (minipools : List Minipool)
    (validators : Table String Validator) : Snapshot :=
  reindexed { s with nodes, minipools, validators }

variable {s t : Snapshot} {scale : Bool} {threads : Int} {n : Node}

/-! ### The minipools of a node -/

theorem SameSetting.epoch (h : s.SameSetting t) : s.epoch = t.epoch := by
  rw [Snapshot.epoch, h.timing, h.slot, Snapshot.epoch]

/-- The standing of a minipool depends on the epochs of its validator if it is staking, and on nothing
else otherwise. -/
theorem SameSetting.standing (h : s.SameSetting t) {m : Minipool}
    (hm : m.present = true → m.status = .staking →
      (s.validatorOf m).map Validator.activity = (t.validatorOf m).map Validator.activity) :
    s.standing m = t.standing m := by
  unfold Snapshot.standing
  by_cases hidle : m.present = false ∨ m.status ≠ .staking
  · rw [if_pos hidle, if_pos hidle]
  · obtain ⟨hpresent, hstatus⟩ : m.present = true ∧ m.status = .staking := by simpa using hidle
    have hactivity := hm hpresent hstatus
    rw [if_neg hidle, if_neg hidle]
    cases hv : s.validatorOf m with
    | none =>
      rw [hv, Option.map_none, eq_comm, Option.map_eq_none_iff] at hactivity
      rw [hactivity]
    | some v =>
      rw [hv, Option.map_some, eq_comm, Option.map_eq_some_iff] at hactivity
      obtain ⟨w, hw, hepochs⟩ := hactivity
      rw [hw]
      show s.epoch.map (Standing.ofEpochs v.activity.1 v.activity.2) =
        t.epoch.map (Standing.ofEpochs w.activity.1 w.activity.2)
      rw [h.epoch, hepochs]

/-- Two minipools may be counted in either order. If one of them has no standing, the fault does not
say which. -/
theorem count_comm (d : Deposits) (m p : Minipool) :
    ((s.standing m).map (·.counted d m) >>= fun d => (s.standing p).map (·.counted d p)) =
      ((s.standing p).map (·.counted d p) >>= fun d => (s.standing m).map (·.counted d m)) := by
  cases hm : s.standing m with
  | ok x =>
    cases hp : s.standing p with
    | ok y => exact congrArg Except.ok (Standing.counted_comm d m p x y)
    | error fault => rfl
  | error fault =>
    cases hp : s.standing p with
    | ok y => rfl
    | error fault' =>
      rw [(standing_eq_error_iff.1 hm).2.2, (standing_eq_error_iff.1 hp).2.2]
      rfl

/-- The deposits of minipools depend on their standings alone, and not on their order. -/
theorem eligibleDeposits_congr {ms ps : List Minipool} (hperm : ms.Perm ps)
    (h : ∀ m ∈ ms, s.standing m = t.standing m) :
    s.eligibleDeposits ms = t.eligibleDeposits ps := by
  rw [eligibleDeposits_eq_foldlM, eligibleDeposits_eq_foldlM,
    ← foldlM_of_perm (fun d m p => t.count_comm d m p) hperm]
  -- the same minipools in the same order, from any deposits on
  clear hperm
  generalize Deposits.none = d
  induction ms generalizing d with
  | nil => rfl
  | cons m ms ih =>
    rw [List.foldlM_cons, List.foldlM_cons, h m List.mem_cons_self]
    congr 1
    funext e
    exact ih (fun p hp => h p (List.mem_cons_of_mem m hp)) e

/-- The stake of a node, or its failure, depends on its own minipools alone. -/
theorem nodeStake_of_agreeOn (hs : s.Indexed) (ht : t.Indexed) (h : s.SameSetting t)
    (hn : s.AgreeOn t n) : s.nodeStake scale n = t.nodeStake scale n := by
  have hdeposits : s.eligibleDeposits (s.minipoolsOf n.address) =
      t.eligibleDeposits (t.minipoolsOf n.address) := by
    rw [hs.minipoolsOf, ht.minipoolsOf]
    refine eligibleDeposits_congr hn.minipools fun m hm => h.standing ?_
    obtain ⟨hmem, howner⟩ := List.mem_filter.1 hm
    exact hn.validators m hmem (of_decide_eq_true howner)
  have htime : s.time = t.time := by rw [time, h.timing, h.slot, time]
  rw [nodeStake, nodeStake, hdeposits, h.parameters, htime]

/-! ### All nodes -/

/-- The calculation succeeds if the configuration allows it and every row has a stake. -/
theorem effectiveStakes_eq_ok_iff {x : EffectiveStakes} :
    s.effectiveStakes scale threads = .ok x ↔
      s.checkConfiguration scale threads = .ok () ∧
        ∃ stake : Node → Int, (∀ n ∈ s.nodes, s.namedStake scale n = .ok (stake n)) ∧
          x = .ofRows (s.nodes.map fun n => (n.address, stake n)) := by
  constructor
  · intro h
    have hc : s.checkConfiguration scale threads = .ok () := by
      cases hc : s.checkConfiguration scale threads with
      | ok => rfl
      | error fault =>
        rw [effectiveStakes, hc] at h
        cases h
    rw [effectiveStakes_of_check hc] at h
    exact ⟨hc, EffectiveStakes.collect_eq_ok_iff.1 h⟩
  · rintro ⟨hc, stake, hstake, rfl⟩
    exact effectiveStakes_of_namedStake hc hstake

section
variable {nodes : List Node} {minipools : List Minipool} {validators : Table String Validator}
  (hnodes : s.nodes.Perm nodes) (hminipools : s.minipools.Perm minipools)
  (hkeys : s.validators.keys.Nodup) (hvalidators : s.validators.Perm validators)

include hminipools hkeys hvalidators in
/-- Lists in another order agree on every node. -/
theorem agreeOn_withLists (n : Node) : s.AgreeOn (s.withLists nodes minipools validators) n where
  minipools := hminipools.filter _
  validators m _ _ _ _ :=
    congrArg (Option.map Validator.activity) (Table.find?_of_perm hkeys hvalidators m.pubkey)

include hminipools hkeys hvalidators in
theorem namedStake_withLists (hs : s.Indexed) (n : Node) :
    (s.withLists nodes minipools validators).namedStake scale n = s.namedStake scale n := by
  have hagree : s.AgreeOn (s.withLists nodes minipools validators) n :=
    agreeOn_withLists hminipools hkeys hvalidators n
  have h : s.nodeStake scale n = _ := nodeStake_of_agreeOn hs
    (indexed_reindexed { s with nodes, minipools, validators }) ⟨rfl, rfl, rfl⟩ hagree
  rw [namedStake, namedStake, h]
  rfl

theorem checkConfiguration_withLists :
    (s.withLists nodes minipools validators).checkConfiguration scale threads =
      s.checkConfiguration scale threads := rfl

include hnodes hminipools hkeys hvalidators in
/-- Lists in another order give stakes exactly if the given ones do. -/
theorem exists_effectiveStakes_withLists_iff (hs : s.Indexed) :
    (∃ x, s.effectiveStakes scale threads = .ok x) ↔
      ∃ y, (s.withLists nodes minipools validators).effectiveStakes scale threads = .ok y := by
  simp only [effectiveStakes_eq_ok_iff, checkConfiguration_withLists,
    namedStake_withLists hminipools hkeys hvalidators hs]
  constructor
  · rintro ⟨x, hc, stake, hstake, -⟩
    exact ⟨_, hc, stake, fun n hn => hstake n (hnodes.mem_iff.2 hn), rfl⟩
  · rintro ⟨y, hc, stake, hstake, -⟩
    exact ⟨_, hc, stake, fun n hn => hstake n (hnodes.mem_iff.1 hn), rfl⟩

include hnodes hminipools hkeys hvalidators in
/-- Lists in another order give stakes with the same total, and with the same rows if no address
repeats. -/
theorem effectiveStakes_withLists (hs : s.Indexed) {x y : EffectiveStakes}
    (hx : s.effectiveStakes scale threads = .ok x)
    (hy : (s.withLists nodes minipools validators).effectiveStakes scale threads = .ok y) :
    x.total = y.total ∧ ((s.nodes.map (·.address)).Nodup → x.byNode.Perm y.byNode) := by
  obtain ⟨-, stake, hstake, rfl⟩ := effectiveStakes_eq_ok_iff.1 hx
  obtain ⟨-, stake', hstake', rfl⟩ := effectiveStakes_eq_ok_iff.1 hy
  -- both runs have the same stake for a row
  have hrows : nodes.map (fun n => (n.address, stake' n)) =
      nodes.map fun n => (n.address, stake n) := by
    refine List.map_congr_left fun n hn => ?_
    have hn' := hstake' n hn
    rw [namedStake_withLists hminipools hkeys hvalidators hs, hstake n (hnodes.mem_iff.2 hn)] at hn'
    rw [Except.ok.inj hn']
  have hperm := hnodes.map fun n => (n.address, stake n)
  rw [← hrows] at hperm
  constructor
  · exact (hperm.map Prod.snd).sum_eq
  · intro hnodup
    have hleft : (Table.keys (s.nodes.map fun n => (n.address, stake n))).Nodup := by
      rwa [Table.keys, List.map_map]
    have hright := (hperm.map Prod.fst).nodup_iff.1 hleft
    show (Table.ofRows _).Perm (Table.ofRows _)
    rw [Table.ofRows_of_nodup hleft]
    exact (Table.ofRows_of_nodup hright).symm ▸ hperm

end

/-- The stake of a node, or its failure, is the same in any two snapshots of one setting that agree on
the minipools of this node, whatever else is in their lists. And the lists of a snapshot may be put in
another order: the calculation succeeds as before, with the same total, and with the same rows of its
table if no address repeats. -/
theorem stakes_depend_on_own_rows :
    (∀ s t : Snapshot, s.Indexed → t.Indexed → s.SameSetting t → ∀ n, s.AgreeOn t n →
      ∀ scale, s.nodeStake scale n = t.nodeStake scale n) ∧
    ∀ s : Snapshot, s.Indexed → ∀ nodes minipools validators, s.nodes.Perm nodes →
      s.minipools.Perm minipools → s.validators.keys.Nodup → s.validators.Perm validators →
      ∀ scale threads,
        ((∃ x, s.effectiveStakes scale threads = .ok x) ↔
          ∃ y, (s.withLists nodes minipools validators).effectiveStakes scale threads = .ok y) ∧
        ∀ x y, s.effectiveStakes scale threads = .ok x →
          (s.withLists nodes minipools validators).effectiveStakes scale threads = .ok y →
          x.total = y.total ∧ ((s.nodes.map (·.address)).Nodup → x.byNode.Perm y.byNode) := by
  constructor
  · intro s t hs ht hset n hn scale
    exact nodeStake_of_agreeOn hs ht hset hn
  · intro s hs nodes minipools validators hnodes hminipools hkeys hvalidators scale threads
    exact ⟨exists_effectiveStakes_withLists_iff hnodes hminipools hkeys hvalidators hs,
      fun x y hx hy => effectiveStakes_withLists hnodes hminipools hkeys hvalidators hs hx hy⟩

/-! ### Two nodes with three minipools -/

/-- Two nodes, of which the first one has an active validator and one that has exited. -/
def twoNodes : Snapshot := reindexed
  { block := 7
    slot := 100
    timing := ⟨0, 12, 32⟩
    parameters := ⟨10, 1, 25, 3, 600, ⟨70, 15, 15⟩, 0⟩
    nodes := [⟨"0xa", 301, 900⟩, ⟨"0xb", 12, 0⟩]
    minipools := [⟨"0xm", "0xa", "0x1", true, .staking, 160, 80⟩,
      ⟨"0xn", "0xb", "0x2", true, .staking, 80, 80⟩, ⟨"0xo", "0xa", "0x3", true, .staking, 160, 80⟩]
    validators := [("0x1", ⟨"0x1", 1, "active", 32, 32, false, 3, 4, farFutureEpoch⟩),
      ("0x2", ⟨"0x2", 2, "active", 32, 32, false, 0, farFutureEpoch, farFutureEpoch⟩),
      ("0x3", ⟨"0x3", 3, "exited", 32, 32, false, 0, 3, farFutureEpoch⟩)]
    lookups := ⟨[], [], [], []⟩ }

/-- The first of these nodes among others, with its minipools the other way round. -/
def otherNodes : Snapshot := twoNodes.withLists [⟨"0xc", 5, 5000⟩]
  [⟨"0xo", "0xa", "0x3", true, .staking, 160, 80⟩, ⟨"0xp", "0xc", "0x4", true, .staking, 8, 8⟩,
    ⟨"0xm", "0xa", "0x1", true, .staking, 160, 80⟩]
  [("0x3", ⟨"0x3", 3, "withdrawn", 0, 0, true, 0, 3, 5⟩),
    ("0x1", ⟨"0x1", 1, "exiting", 31, 31, false, 3, 4, 9⟩)]

theorem stakes_depend_on_own_rows_twoNodes :
    twoNodes.AgreeOn otherNodes ⟨"0xa", 301, 900⟩ ∧
    twoNodes.nodeStake true ⟨"0xa", 301, 900⟩ = .ok 100 ∧
    otherNodes.nodeStake true ⟨"0xa", 301, 900⟩ = .ok 100 ∧
    ∃ y, (twoNodes.withLists twoNodes.nodes.reverse twoNodes.minipools.reverse
        twoNodes.validators.reverse).effectiveStakes true 4 = .ok y ∧
      y.total = 112 ∧ List.Perm [("0xa", (100 : Int)), ("0xb", 12)] y.byNode := by
  obtain ⟨hstake, hperm⟩ := stakes_depend_on_own_rows
  have hone : twoNodes.nodeStake true ⟨"0xa", 301, 900⟩ = .ok 100 := rfl
  have hagree : twoNodes.AgreeOn otherNodes ⟨"0xa", 301, 900⟩ := ⟨by decide, by decide⟩
  refine ⟨hagree, hone, ?_, ?_⟩
  · rw [← hone]
    exact (hstake twoNodes otherNodes rfl rfl ⟨rfl, rfl, rfl⟩ _ hagree true).symm
  · obtain ⟨hiff, hsame⟩ := hperm twoNodes rfl _ _ _ (List.reverse_perm _).symm
      (List.reverse_perm _).symm (by decide) (List.reverse_perm _).symm true 4
    have hall : twoNodes.effectiveStakes true 4 = .ok ⟨[("0xa", 100), ("0xb", 12)], 112⟩ := rfl
    obtain ⟨y, hy⟩ := hiff.1 ⟨_, hall⟩
    obtain ⟨htotal, htable⟩ := hsame _ y hall hy
    exact ⟨y, hy, htotal.symm, htable (by decide)⟩

end Snapshot

end StakeSnapshot
