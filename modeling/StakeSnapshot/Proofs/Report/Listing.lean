import StakeSnapshot.CommandLine.Run
import StakeSnapshot.Proofs.Number.Nearest
import StakeSnapshot.Proofs.Report.Printable
import StakeSnapshot.Proofs.Report.Ranking

/-!
# What the listing of stakes shows

The listing of calculated stakes shows the first rows of the ranking, each with the stake of the row of
the snapshot that it was calculated from (`listing_by_rank`). If no stake is negative, none exceeds the
total, so there is a share for every row and the listing succeeds if the amounts are in range. The rows
that are shown and the number of those that are not make up all rows, unless the command line asks for a
negative number of rows: then too many are announced (`listing_accounts_iff`).
-/

namespace StakeSnapshot

/-! ### Rows of the snapshot -/

namespace Snapshot

variable {s : Snapshot} {scale : Bool} {threads : Int} {x : EffectiveStakes} {row : String × Int}

/-- If no stake is negative, none exceeds the total. -/
theorem stake_le_total (h : s.effectiveStakes scale threads = .ok x)
    (hnonneg : ∀ n ∈ s.nodes, ∀ stake, s.nodeStake scale n = .ok stake → 0 ≤ stake)
    (hrow : row ∈ x.byNode) : 0 ≤ row.2 ∧ row.2 ≤ x.total := by
  obtain ⟨-, stake, hstake, rfl⟩ := effectiveStakes_eq_ok_iff.1 h
  obtain ⟨n, hn, rfl⟩ := List.mem_map.1 (Table.mem_of_mem_ofRows hrow)
  have hstakes : ∀ k ∈ s.nodes.map stake, 0 ≤ k := by
    intro k hk
    obtain ⟨n, hn, rfl⟩ := List.mem_map.1 hk
    exact hnonneg n hn _ (nodeStake_of_namedStake (hstake n hn))
  have htotal : (EffectiveStakes.ofRows (s.nodes.map fun n => (n.address, stake n))).total =
      (s.nodes.map stake).sum := by
    rw [EffectiveStakes.ofRows, List.map_map]
    rfl
  have hmem : stake n ∈ s.nodes.map stake := List.mem_map_of_mem hn
  rw [htotal]
  exact ⟨hstakes _ hmem, List.single_le_sum hstakes _ hmem⟩

end Snapshot

namespace Report

variable {s : Snapshot} {scale : Bool} {threads : Int} {x : EffectiveStakes} {top : Option Int}
  {row : String × Int} {lines : List String} {stake total : Int}

/-! ### Shares -/

theorem fault_of_share {fault : Fault} (h : share stake total = .error fault) :
    fault = .shareRange := by
  unfold share at h
  split at h
  · cases h
  · split at h
    · cases h
      rfl
    · cases h

/-- A part of the total has a share. -/
theorem exists_share (hnonneg : 0 ≤ stake) (hle : stake ≤ total) :
    ∃ text, share stake total = .ok text := by
  unfold share
  split
  · exact ⟨_, rfl⟩
  · next hpositive =>
    have hden : 0 < total.natAbs := by omega
    have hnum : stake.natAbs * 100 < total.natAbs * 2 ^ 7 := by omega
    split
    · next sign hinfinite =>
      exact absurd hinfinite (Number.Binary64.ofRatio_ne_infinite _ _ hden (by norm_num) hnum)
    · exact ⟨_, rfl⟩

/-! ### Lines -/

/-- The line of a row shows the stake of the last row of the snapshot with the address, which the
stake was calculated from. -/
def Shows (s : Snapshot) (scale : Bool) (x : EffectiveStakes) (row : String × Int) (line : String) :
    Prop :=
  ∃ n share, (s.nodes.filter (·.address = row.1)).getLast? = some n ∧
    s.nodeStake scale n = .ok row.2 ∧ Report.share row.2 x.total = .ok share ∧
    line = rowText row n.stake share

/-- There is a node for every row of calculated stakes, and its line shows it. -/
theorem shows_of_stakeRow (hi : s.Indexed) (h : s.effectiveStakes scale threads = .ok x)
    (hrow : row ∈ x.byNode) {line : String} (hline : stakeRow s x.total row = .ok line) :
    Shows s scale x row line := by
  obtain ⟨n, hfind, hlast, hstake⟩ := Snapshot.exists_own_row hi h hrow
  obtain ⟨-, share, hshare, rfl⟩ := (stakeRow_eq_ok_iff hfind).1 hline
  exact ⟨n, share, hlast, hstake, hshare, rfl⟩

theorem fault_of_stakeRow (hi : s.Indexed) (h : s.effectiveStakes scale threads = .ok x)
    (hrow : row ∈ x.byNode) {fault : Fault} (hfault : stakeRow s x.total row = .error fault) :
    fault = .amountRange ∨ fault = .shareRange := by
  obtain ⟨n, hfind, -, -⟩ := Snapshot.exists_own_row hi h hrow
  exact (fault_of_stakeRow_eq hfind hfault).imp_right fault_of_share

/-! ### The listing -/

/-- Without negative stakes there is a listing just if the amounts are in range. -/
theorem exists_listing_of_nonneg_iff (hi : s.Indexed) (h : s.effectiveStakes scale threads = .ok x)
    (hnonneg : ∀ n ∈ s.nodes, ∀ stake, s.nodeStake scale n = .ok stake → 0 ≤ stake)
    (top : Option Int) : (∃ lines, listing s x top = .ok lines) ↔ AmountsInRange s x top := by
  rw [exists_listing_iff hi h]
  refine and_iff_left fun row hrow => ?_
  obtain ⟨hrow, hle⟩ := Snapshot.stake_le_total h hnonneg (mem_of_mem_shownRows hrow)
  exact exists_share hrow hle

/-- Nothing but an amount, a share or a number of rows can be too large for a listing. -/
theorem fault_of_listing (hi : s.Indexed) (h : s.effectiveStakes scale threads = .ok x) {fault : Fault}
    (hfault : listing s x top = .error fault) :
    fault = .amountRange ∨ fault = .shareRange ∨ fault = .numberTooLong := by
  unfold listing at hfault
  rcases Except.error_of_bind hfault with htotal | ⟨_, -, hfault⟩
  · exact .inl (fault_of_stakeAmount htotal)
  rcases Except.error_of_bind hfault with hrows | ⟨_, -, hfault⟩
  · obtain ⟨row, hrow, hrowFault⟩ := exists_of_mapM_error hrows
    exact (fault_of_stakeRow hi h (mem_of_mem_shownRows hrow) hrowFault).imp_right .inl
  rcases Except.error_of_bind hfault with hleft | ⟨_, -, hfault⟩
  · rw [remainder_eq] at hleft
    split at hleft
    · cases hleft
    · cases hleft
      exact .inr (.inr rfl)
  · cases hfault

/-- The parts of a listing. -/
theorem lines_of_listing (hi : s.Indexed) (h : s.effectiveStakes scale threads = .ok x)
    (hlines : listing s x top = .ok lines) :
    ∃ rowLines, List.Forall₂ (Shows s scale x) (shownRows top (ranked x.byNode)) rowLines ∧
      lines = heading x ((ranked x.byNode).filter fun row => 0 < row.2).length ++ rowLines ++
        moreLines (announcedCount top x.byNode.length) ++ [""] := by
  obtain ⟨-, rowLines, hrows, left, hleft, rfl⟩ := listing_eq_ok_iff.1 hlines
  have hmore : left = moreLines (announcedCount top x.byNode.length) := by
    rw [remainder_eq] at hleft
    split at hleft
    · exact (Except.ok.inj hleft).symm
    · cases hleft
  refine ⟨rowLines, ?_, by rw [hmore]⟩
  have hshown := forall₂_of_mapM hrows
  rw [List.forall₂_iff_get] at hshown ⊢
  refine ⟨hshown.1, fun i hi₁ hi₂ => ?_⟩
  exact shows_of_stakeRow hi h (mem_of_mem_shownRows (List.get_mem _ _)) (hshown.2 i hi₁ hi₂)

/-! ### What is shown -/

/-- How many of `count` rows are to be shown: all of them, or at most as many as are asked for. -/
def shownCount (top : Option Int) (count : Nat) : Nat :=
  match top with
  | none => count
  | some place => min place.toNat count

theorem shownRows_eq_take (htop : ∀ place, top = some place → 0 ≤ place)
    (rows : List (String × Int)) : shownRows top rows = rows.take (shownCount top rows.length) := by
  cases top with
  | none => rw [shownRows, shownCount, List.take_length]
  | some place => rw [shownRows, shownCount, rowsBefore, if_neg (not_lt.2 (htop place rfl))]

theorem isPrefix_shownRows (top : Option Int) (rows : List (String × Int)) :
    shownRows top rows <+: rows := by
  cases top with
  | none => exact List.prefix_refl rows
  | some place => exact List.take_prefix _ rows

theorem shownCount_le (top : Option Int) (count : Nat) : shownCount top count ≤ count := by
  unfold shownCount
  split <;> omega

/-- The lines of a listing: those of the first rows of the ranking, under a heading with the number of
positive stakes, all of which come before the other rows. -/
structure IsListing (s : Snapshot) (scale : Bool) (x : EffectiveStakes) (top : Option Int)
    (shown hidden : List (String × Int)) (lines : List String) : Prop where
  ranking : IsRanking x.byNode (shown ++ hidden)
  unique : ∀ other, IsRanking x.byNode other → other = shown ++ hidden
  length : shown.length = shownCount top x.byNode.length
  nodup : (Table.keys (shown ++ hidden)).Nodup
  above : ∀ a ∈ shown, ∀ b ∈ hidden, Outranks x.byNode a b
  lines : ∃ positive others rowLines, shown ++ hidden = positive ++ others ∧
    (∀ row ∈ positive, 0 < row.2) ∧ (∀ row ∈ others, row.2 ≤ 0) ∧
    List.Forall₂ (Shows s scale x) shown rowLines ∧
    lines = heading x positive.length ++ rowLines ++ moreLines (announcedCount top x.byNode.length) ++
      [""]

theorem isListing_of_listing (hi : s.Indexed) (h : s.effectiveStakes scale threads = .ok x)
    (htop : ∀ place, top = some place → 0 ≤ place) (hlines : listing s x top = .ok lines) :
    IsListing s scale x top ((ranked x.byNode).take (shownCount top x.byNode.length))
      ((ranked x.byNode).drop (shownCount top x.byNode.length)) lines := by
  have hkeys := Snapshot.nodup_keys_byNode h
  have hranking := isRanking_ranked (List.Nodup.of_map Prod.fst hkeys)
  have hlength := hranking.perm.length_eq
  have hshown := shownRows_eq_take htop (ranked x.byNode)
  rw [hlength] at hshown
  obtain ⟨rowLines, hrows, hlines⟩ := lines_of_listing hi h hlines
  rw [hshown] at hrows
  obtain ⟨positive, others, hsplit, hpositive, hothers, hperm⟩ := hranking.positive_first
  have hcount : ((ranked x.byNode).filter fun row => 0 < row.2).length = positive.length :=
    (hranking.perm.filter _).length_eq.trans hperm.length_eq.symm
  rw [hcount] at hlines
  have happend := List.take_append_drop (shownCount top x.byNode.length) (ranked x.byNode)
  constructor
  · rwa [happend]
  · intro other hother
    rw [happend]
    exact hother.unique hranking
  · rw [List.length_take, hlength, min_eq_left (shownCount_le top _)]
  · rw [happend]
    exact (hranking.perm.map Prod.fst).nodup_iff.2 hkeys
  · have hordered := hranking.ordered
    rw [← happend, List.pairwise_append] at hordered
    exact hordered.2.2
  · rw [happend]
    exact ⟨positive, others, rowLines, hsplit, hpositive, hothers, hrows, hlines⟩

/-- The stakes of two nodes, one of which is listed twice. -/
def halfwayStakes : EffectiveStakes := ⟨[("0xa", 45), ("0xb", 12)], 157⟩

theorem effectiveStakes_halfwayStakes :
    Snapshot.halfway.effectiveStakes true 4 = .ok halfwayStakes := by decide

theorem nonneg_halfway : ∀ n ∈ Snapshot.halfway.nodes, ∀ stake,
    Snapshot.halfway.nodeStake true n = .ok stake → 0 ≤ stake := by
  intro n hn stake hstake
  have hall : ∀ n ∈ Snapshot.halfway.nodes,
      (Snapshot.halfway.nodeStake true n).toOption.all (0 ≤ ·) = true := by decide
  have hthis := hall n hn
  rw [hstake] at hthis
  exact of_decide_eq_true hthis

theorem amountsInRange_halfway (top : Option Int) :
    AmountsInRange Snapshot.halfway halfwayStakes top ↔
      Number.isWritable (announcedCount top 2) = true := by
  have hrows : ∀ row ∈ halfwayStakes.byNode, ∃ n,
      Table.find? Snapshot.halfway.lookups.nodeByAddress row.1 = some n ∧ RowInRange row n := by
    intro row hrow
    simp only [halfwayStakes, List.mem_cons, List.not_mem_nil, or_false] at hrow
    rcases hrow with rfl | rfl
    · exact ⟨_, rfl, by decide, by decide⟩
    · exact ⟨_, rfl, by decide, by decide⟩
  constructor
  · intro h
    exact h.announced
  · intro h
    exact ⟨by decide, fun row hrow => hrows row (mem_of_mem_shownRows hrow), h⟩

theorem length_shownRows (top : Option Int) (rows : List (String × Int)) :
    (shownRows top rows).length =
      match top with
      | none => rows.length
      | some place => min (rowsBefore place rows.length) rows.length := by
  cases top with
  | none => rfl
  | some place => exact List.length_take

/-- Rows that are shown and rows that are announced make up all of them unless the limit is
negative. -/
theorem shown_add_announced_iff (o : CommandLine.Options) (rows : List (String × Int)) :
    ((shownRows (CommandLine.listingTop o) rows).length +
        announcedCount (CommandLine.listingTop o) rows.length = (rows.length : Int) ↔ 0 ≤ o.top) ∧
    (o.top < 0 →
      (shownRows (CommandLine.listingTop o) rows).length = ((rows.length : Int) + o.top).toNat ∧
      announcedCount (CommandLine.listingTop o) rows.length = rows.length - o.top) := by
  rw [length_shownRows, CommandLine.listingTop]
  by_cases hzero : o.top = 0
  · rw [if_pos hzero]
    simp only [announcedCount]
    omega
  · rw [if_neg hzero]
    simp only [announcedCount, rowsBefore]
    constructor
    · split <;> split <;> omega
    · intro hneg
      rw [if_pos hneg, if_pos (by omega)]
      omega

/-- The listing that a command line asks for accounts for every row of the stakes just if the limit is
not negative. A negative limit leaves out rows at the end, and announces more than there are. There is a
listing as long as the amounts are in range and the announced number can be written. -/
theorem listing_accounts_iff (o : CommandLine.Options) (hi : s.Indexed)
    (h : s.effectiveStakes scale threads = .ok x)
    (hnonneg : ∀ n ∈ s.nodes, ∀ stake, s.nodeStake scale n = .ok stake → 0 ≤ stake) :
    ((∃ lines, listing s x (CommandLine.listingTop o) = .ok lines) ↔
      AmountsInRange s x (CommandLine.listingTop o)) ∧
    ∀ lines, listing s x (CommandLine.listingTop o) = .ok lines →
      ∃ shown rowLines eligible announced,
        lines = heading x eligible ++ rowLines ++ moreLines announced ++ [""] ∧
        shown <+: ranked x.byNode ∧ List.Forall₂ (Shows s scale x) shown rowLines ∧
        (rowLines.length + announced = x.byNode.length ↔ 0 ≤ o.top) ∧
        (o.top < 0 → rowLines.length = ((x.byNode.length : Int) + o.top).toNat ∧
          announced = x.byNode.length - o.top) := by
  refine ⟨exists_listing_of_nonneg_iff hi h hnonneg _, fun lines hlines => ?_⟩
  obtain ⟨rowLines, hrows, rfl⟩ := lines_of_listing hi h hlines
  have hcounts := shown_add_announced_iff o (ranked x.byNode)
  rw [List.Forall₂.length_eq hrows, show (ranked x.byNode).length = x.byNode.length from
    List.length_mergeSort _] at hcounts
  exact ⟨_, rowLines, _, _, rfl, isPrefix_shownRows _ _, hrows, hcounts.1, hcounts.2⟩

/-- With one row asked for, what is shown and what is announced make up both rows. -/
theorem listing_accounts_iff_halfway : ∃ rowLines eligible announced,
    listing Snapshot.halfway halfwayStakes (some 1) =
      .ok (heading halfwayStakes eligible ++ rowLines ++ moreLines announced ++ [""]) ∧
    rowLines.length + announced = 2 := by
  obtain ⟨hexists, hparts⟩ :=
    listing_accounts_iff { CommandLine.Options.default with top := 1 }
      (Snapshot.indexed_reindexed _) effectiveStakes_halfwayStakes nonneg_halfway
  obtain ⟨lines, hlines⟩ := hexists.2 ((amountsInRange_halfway _).2 (by decide))
  obtain ⟨shown, rowLines, eligible, announced, rfl, -, -, hcounts, -⟩ := hparts lines hlines
  exact ⟨rowLines, eligible, announced, hlines, hcounts.2 (by decide)⟩

theorem ranked_halfwayStakes : ranked halfwayStakes.byNode = halfwayStakes.byNode :=
  (isRanking_ranked (by decide)).unique ⟨.refl _, by decide +kernel⟩

/-- The command line takes a negative number of rows. Of two rows one is then shown, and three more are
announced. -/
theorem listing_miscounts_negative : ∃ o, CommandLine.parse ["--top", "-1"] = .ok o ∧
    Snapshot.halfway.effectiveStakes true 4 = .ok halfwayStakes ∧
    (∀ n ∈ Snapshot.halfway.nodes, ∀ stake,
      Snapshot.halfway.nodeStake true n = .ok stake → 0 ≤ stake) ∧
    listing Snapshot.halfway halfwayStakes (CommandLine.listingTop o) =
      .ok (heading halfwayStakes 2 ++ [rowText ("0xa", 45) 90 "28.662%"] ++ moreLines 3 ++ [""]) ∧
    1 + 3 ≠ halfwayStakes.byNode.length := by
  refine ⟨{ CommandLine.Options.default with top := -1 }, by decide +kernel,
    effectiveStakes_halfwayStakes, nonneg_halfway, ?_, by decide⟩
  refine listing_eq_ok_iff.2 ⟨by decide, [rowText ("0xa", 45) 90 "28.662%"], ?_, moreLines 3, ?_, ?_⟩
  · rw [ranked_halfwayStakes]
    decide +kernel
  · decide +kernel
  · rw [ranked_halfwayStakes]
    decide +kernel

end Report

end StakeSnapshot
