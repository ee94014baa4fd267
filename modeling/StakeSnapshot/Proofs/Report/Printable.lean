import StakeSnapshot.Proofs.Stake.Accounting
import StakeSnapshot.Report.Listing
import StakeSnapshot.Report.Summary

/-!
# When a snapshot can be reported

The summary needs a time of the calendar, an epoch, and parameters that can be written
(`Summarizable`). The listing finds a node for every stake that was calculated, namely the one that the
stake was calculated from, so it needs nothing but the shares of the rows that are shown, and amounts
that can be written (`AmountsInRange`).
-/

namespace StakeSnapshot

namespace Snapshot

variable {s : Snapshot} {scale : Bool} {threads : Int} {stakes : EffectiveStakes}
  {row : String × Int}

theorem nodup_keys_byNode (h : s.effectiveStakes scale threads = .ok stakes) :
    stakes.byNode.keys.Nodup := by
  obtain ⟨-, stake, -, rfl⟩ := effectiveStakes_eq_ok_iff.1 h
  exact Table.nodup_keys_ofRows _

/-- A stake in the table is that of the last row of its address, which is also the row that is looked
up for the address. -/
theorem exists_own_row (hi : s.Indexed) (h : s.effectiveStakes scale threads = .ok stakes)
    (hrow : row ∈ stakes.byNode) :
    ∃ n, Table.find? s.lookups.nodeByAddress row.1 = some n ∧
      (s.nodes.filter (·.address = row.1)).getLast? = some n ∧ s.nodeStake scale n = .ok row.2 := by
  have hfind := (Table.find?_eq_some_iff_mem (nodup_keys_byNode h)).2 hrow
  obtain ⟨-, stake, hstake, rfl⟩ := effectiveStakes_eq_ok_iff.1 h
  have hmap : Table.find? (Table.ofRows (s.nodes.map fun n => (n.address, stake n))) row.1 =
      (s.nodes.filter (·.address = row.1)).getLast?.map stake := by
    rw [Table.find?_ofRows, List.filter_map, List.getLast?_map, Option.map_map]
    rfl
  obtain ⟨n, hlast, hn⟩ := Option.map_eq_some_iff.1 (hmap.symm.trans hfind)
  have hmem := (List.mem_filter.1 (List.mem_of_getLast? hlast)).1
  refine ⟨n, ?_, hlast, hn ▸ nodeStake_of_namedStake (hstake n hmem)⟩
  rw [show s.lookups = _ from hi, (Lookups.ofRows_mirrors s.nodes s.minipools).nodeByAddress.last]
  exact hlast

end Snapshot

namespace Report

variable {s : Snapshot} {stakes : EffectiveStakes} {top : Option Int}

/-- All parts of a snapshot's summary can be written. The block can be printed as well: it has no
surrogates. -/
structure Summarizable (s : Snapshot) : Prop where
  time : ∃ text, dateTime s.time = .ok text
  epoch : s.timing.slotsPerEpoch ≠ 0
  numbers : ∀ n ∈ [s.slot, s.slotEpoch, s.parameters.rewardIndex], Number.isWritable n = true
  block : s.block.isWritable = true ∧ ∀ points, s.block ≠ .ragged points
  days : Number.isWritable (s.parameters.interval.natAbs / 86400 : Nat) = true
  amounts : ∀ n ∈ [s.parameters.price, s.parameters.pendingRewards],
    isInRange scaleDigits n.natAbs = true
  fractions : ∀ n ∈ [s.parameters.minimumFraction, s.parameters.maximumFraction,
    s.parameters.shares.nodes, s.parameters.shares.oracle, s.parameters.shares.protocol],
    isInRange 0 (n.natAbs * 100) = true

theorem exists_writeNumber_iff {n : Int} :
    (∃ text, writeNumber n = .ok text) ↔ Number.isWritable n = true := by
  unfold writeNumber
  cases Number.isWritable n <;> simp

theorem exists_ending_iff {before : String} {v : Value} :
    (∃ text, ending before v = .ok text) ↔ v.isWritable = true ∧ ∀ points, v ≠ .ragged points := by
  unfold ending
  split
  · simp
  · next hplain =>
    cases v.isWritable <;> simp
    exact hplain

theorem exists_durationText_iff {seconds : Int} :
    (∃ text, durationText seconds = .ok text) ↔
      Number.isWritable (seconds.natAbs / 86400 : Nat) = true := by
  unfold durationText
  cases Number.isWritable (seconds.natAbs / 86400 : Nat) <;> simp

theorem exists_percentage_iff {n : Int} :
    (∃ text, percentage n = .ok text) ↔ isInRange 0 (n.natAbs * 100) = true := by
  unfold percentage
  cases isInRange 0 (n.natAbs * 100) <;> simp

/-- With few places there is a format for every amount that is in range. -/
theorem hasFormat_of_few {places : Nat} (h : places < 1000) {n : Int}
    (hrange : isInRange scaleDigits n.natAbs = true) : hasFormat places n = true := by
  have hwhole : wholeDigits n.natAbs ≤ 1000000 := Nat.sub_le_of_le_add (of_decide_eq_true hrange)
  have hlimit : formatLimit = 1000000000000000000 := by decide
  rw [hasFormat, hlimit, Bool.and_eq_true, Bool.or_eq_true, decide_eq_true_iff, decide_eq_true_iff]
  exact ⟨by omega, .inr (by omega)⟩

theorem amount_of_few {unit : String} {places : Nat} (h : places < 1000) {n : Int}
    (hrange : isInRange scaleDigits n.natAbs = true) :
    amount unit places n = .ok (amountText unit places n) := by
  have hnonneg : ¬ (places : Int) < 0 := by omega
  rw [amount, hrange, hasFormat_of_few h hrange, if_neg (by decide), if_neg hnonneg,
    if_neg (by decide), Int.toNat_natCast]

/-- With few places there is an amount exactly if it is in range. -/
theorem exists_amount_of_few_iff {unit : String} {places : Nat} (h : places < 1000) {n : Int} :
    (∃ text, amount unit places n = .ok text) ↔ isInRange scaleDigits n.natAbs = true := by
  cases hrange : isInRange scaleDigits n.natAbs with
  | true => exact iff_of_true ⟨_, amount_of_few h hrange⟩ rfl
  | false =>
    refine iff_of_false ?_ Bool.false_ne_true
    rintro ⟨text, htext⟩
    rw [amount, hrange] at htext
    cases htext

theorem exists_stakeAmount_iff {n : Int} :
    (∃ text, stakeAmount n = .ok text) ↔ isInRange scaleDigits n.natAbs = true :=
  exists_amount_of_few_iff (by decide)

theorem exists_priceAmount_iff {n : Int} :
    (∃ text, priceAmount n = .ok text) ↔ isInRange scaleDigits n.natAbs = true :=
  exists_amount_of_few_iff (by decide)

/-- The text of an amount of stake. -/
def stakeText (n : Int) : String := amountText stakeUnit defaultPlaces n

theorem stakeAmount_eq_ok_iff {n : Int} {text : String} :
    stakeAmount n = .ok text ↔ isInRange scaleDigits n.natAbs = true ∧ stakeText n = text := by
  constructor
  · intro h
    have hrange := exists_stakeAmount_iff.1 ⟨text, h⟩
    exact ⟨hrange, Except.ok.inj ((amount_of_few (by decide) hrange).symm.trans h)⟩
  · rintro ⟨hrange, rfl⟩
    exact amount_of_few (by decide) hrange

theorem fault_of_stakeAmount {n : Int} {fault : Fault} (h : stakeAmount n = .error fault) :
    fault = .amountRange := by
  cases hrange : isInRange scaleDigits n.natAbs with
  | true => cases (stakeAmount_eq_ok_iff.2 ⟨hrange, rfl⟩).symm.trans h
  | false =>
    rw [stakeAmount, amount, hrange] at h
    cases h
    rfl

/-- The epoch can be written, if there is one. -/
theorem exists_writtenEpoch_iff :
    (∃ epoch, s.epoch = .ok epoch ∧ ∃ text, writeNumber epoch = .ok text) ↔
      s.timing.slotsPerEpoch ≠ 0 ∧ Number.isWritable s.slotEpoch = true := by
  rw [← exists_writeNumber_iff]
  constructor
  · rintro ⟨epoch, h, hwritten⟩
    have hne : s.timing.slotsPerEpoch ≠ 0 := by
      intro hzero
      rw [Snapshot.epoch_eq_error_iff.2 ⟨hzero, rfl⟩] at h
      cases h
    cases (Snapshot.epoch_eq hne).symm.trans h
    exact ⟨hne, hwritten⟩
  · rintro ⟨hne, hwritten⟩
    exact ⟨_, Snapshot.epoch_eq hne, hwritten⟩

/-- There is a summary if there is a text for each of its parts. -/
theorem exists_summary_iff_parts : (∃ lines, summary s = .ok lines) ↔
    (∃ time, dateTime s.time = .ok time) ∧ (∃ slot, writeNumber s.slot = .ok slot) ∧
    (∃ epoch, s.epoch = .ok epoch ∧ ∃ text, writeNumber epoch = .ok text) ∧
    (s.block.isWritable = true ∧ ∀ points, s.block ≠ .ragged points) ∧
    (∃ index, writeNumber s.parameters.rewardIndex = .ok index) ∧
    (∃ interval, durationText s.parameters.interval = .ok interval) ∧
    (∃ price, priceAmount s.parameters.price = .ok price) ∧
    (∃ minimum, percentage s.parameters.minimumFraction = .ok minimum) ∧
    (∃ maximum, percentage s.parameters.maximumFraction = .ok maximum) ∧
    (∃ nodes, percentage s.parameters.shares.nodes = .ok nodes) ∧
    (∃ oracle, percentage s.parameters.shares.oracle = .ok oracle) ∧
    (∃ protocol, percentage s.parameters.shares.protocol = .ok protocol) ∧
    ∃ pending, stakeAmount s.parameters.pendingRewards = .ok pending := by
  rw [summary]
  simp only [Except.exists_ok_bind_iff]
  constructor
  · rintro ⟨a, ha, b, hb, c, hc, d, hd, e, he, f, hf, g, hg, i, hi, j, hj, k, hk, l, hl, m, hm,
      n, hn, o, ho, -⟩
    exact ⟨⟨a, ha⟩, ⟨b, hb⟩, ⟨c, hc, d, hd⟩, exists_ending_iff.1 ⟨e, he⟩, ⟨f, hf⟩, ⟨g, hg⟩,
      ⟨i, hi⟩, ⟨j, hj⟩, ⟨k, hk⟩, ⟨l, hl⟩, ⟨m, hm⟩, ⟨n, hn⟩, o, ho⟩
  · rintro ⟨⟨a, ha⟩, ⟨b, hb⟩, ⟨c, hc, d, hd⟩, hblock, ⟨f, hf⟩, ⟨g, hg⟩, ⟨i, hi⟩, ⟨j, hj⟩,
      ⟨k, hk⟩, ⟨l, hl⟩, ⟨m, hm⟩, ⟨n, hn⟩, o, ho⟩
    obtain ⟨e, he⟩ := exists_ending_iff.2 hblock
    exact ⟨a, ha, b, hb, c, hc, d, hd, e, he, f, hf, g, hg, i, hi, j, hj, k, hk, l, hl, m, hm,
      n, hn, o, ho, _, rfl⟩

theorem exists_summary_iff : (∃ lines, summary s = .ok lines) ↔ Summarizable s := by
  rw [exists_summary_iff_parts, exists_writtenEpoch_iff]
  simp only [exists_writeNumber_iff, exists_durationText_iff, exists_priceAmount_iff,
    exists_percentage_iff, exists_stakeAmount_iff]
  constructor
  · rintro ⟨htime, hslot, ⟨hne, hepoch⟩, hblock, hindex, hdays, hprice, hmin, hmax, hnodes, horacle,
      hprotocol, hpending⟩
    exact ⟨htime, hne, by simp [hslot, hepoch, hindex], hblock, hdays, by simp [hprice, hpending],
      by simp [hmin, hmax, hnodes, horacle, hprotocol]⟩
  · rintro ⟨htime, hne, hnumbers, hblock, hdays, hamounts, hfractions⟩
    simp only [List.forall_mem_cons] at hnumbers hamounts hfractions
    obtain ⟨hslot, hepoch, hindex, -⟩ := hnumbers
    obtain ⟨hprice, hpending, -⟩ := hamounts
    obtain ⟨hmin, hmax, hnodes, horacle, hprotocol, -⟩ := hfractions
    exact ⟨htime, hslot, ⟨hne, hepoch⟩, hblock, hindex, hdays, hprice, hmin, hmax, hnodes, horacle,
      hprotocol, hpending⟩

/-! ### The listing -/

theorem mem_of_mem_shownRows {row : String × Int}
    (h : row ∈ shownRows top (ranked stakes.byNode)) : row ∈ stakes.byNode := by
  cases top with
  | none => exact List.mem_mergeSort.1 h
  | some place => exact List.mem_mergeSort.1 (List.mem_of_mem_take h)

/-- The line of a row, with the stake that its node has and its share. -/
def rowText (row : String × Int) (raw : Int) (share : String) : String :=
  "   " ++ shortAddress row.1 ++ "  " ++ padLeft 22 (stakeText row.2) ++ "  (raw "
    ++ stakeText raw ++ ")  " ++ share

/-- The stake of a row and that of its node are in range. -/
def RowInRange (row : String × Int) (n : Node) : Prop :=
  isInRange scaleDigits row.2.natAbs = true ∧ isInRange scaleDigits n.stake.natAbs = true

theorem stakeRow_eq {total : Int} {row : String × Int} {n : Node}
    (h : Table.find? s.lookups.nodeByAddress row.1 = some n) :
    stakeRow s total row = do
      let share ← share row.2 total
      let stake ← stakeAmount row.2
      let raw ← stakeAmount n.stake
      return "   " ++ shortAddress row.1 ++ "  " ++ padLeft 22 stake ++ "  (raw " ++ raw ++ ")  "
        ++ share := by
  unfold stakeRow
  dsimp only
  rw [h]

theorem stakeRow_eq_ok_iff {total : Int} {row : String × Int} {n : Node} {line : String}
    (h : Table.find? s.lookups.nodeByAddress row.1 = some n) :
    stakeRow s total row = .ok line ↔
      RowInRange row n ∧ ∃ text, share row.2 total = .ok text ∧ rowText row n.stake text = line := by
  rw [stakeRow_eq h]
  constructor
  · intro hline
    obtain ⟨text, htext, hline⟩ := Except.ok_of_bind hline
    obtain ⟨stake, hstake, hline⟩ := Except.ok_of_bind hline
    obtain ⟨raw, hraw, hline⟩ := Except.ok_of_bind hline
    obtain ⟨hstakeRange, rfl⟩ := stakeAmount_eq_ok_iff.1 hstake
    obtain ⟨hrawRange, rfl⟩ := stakeAmount_eq_ok_iff.1 hraw
    exact ⟨⟨hstakeRange, hrawRange⟩, text, htext, Except.ok.inj hline⟩
  · rintro ⟨⟨hstake, hraw⟩, text, htext, rfl⟩
    rw [htext, stakeAmount_eq_ok_iff.2 ⟨hstake, rfl⟩, stakeAmount_eq_ok_iff.2 ⟨hraw, rfl⟩]
    rfl

theorem fault_of_stakeRow_eq {total : Int} {row : String × Int} {n : Node} {fault : Fault}
    (h : Table.find? s.lookups.nodeByAddress row.1 = some n)
    (hfault : stakeRow s total row = .error fault) :
    fault = .amountRange ∨ share row.2 total = .error fault := by
  rw [stakeRow_eq h] at hfault
  rcases Except.error_of_bind hfault with hshare | ⟨_, -, hfault⟩
  · exact .inr hshare
  rcases Except.error_of_bind hfault with hstake | ⟨_, -, hfault⟩
  · exact .inl (fault_of_stakeAmount hstake)
  rcases Except.error_of_bind hfault with hraw | ⟨_, -, hfault⟩
  · exact .inl (fault_of_stakeAmount hraw)
  · cases hfault

/-- The lines above the rows, for stakes of which some are positive. -/
def heading (x : EffectiveStakes) (eligible : Nat) : List String :=
  ["🏦 EFFECTIVE RPL STAKE",
    "   Total: " ++ stakeText x.total ++ "  •  Eligible nodes: " ++ numberText eligible ++ "/"
      ++ numberText x.byNode.length,
    "   " ++ String.ofList (List.replicate 60 '─')]

/-- The parts of a listing, in the order in which they are written. -/
theorem listing_eq_ok_iff {x : EffectiveStakes} {lines : List String} :
    listing s x top = .ok lines ↔ isInRange scaleDigits x.total.natAbs = true ∧
      ∃ rowLines, (shownRows top (ranked x.byNode)).mapM (stakeRow s x.total) = .ok rowLines ∧
      ∃ left, remainder top x.byNode.length = .ok left ∧
        heading x ((ranked x.byNode).filter fun row => 0 < row.2).length ++ rowLines ++ left ++ [""] =
          lines := by
  have hlength : (ranked x.byNode).length = x.byNode.length := List.length_mergeSort _
  unfold listing heading
  rw [← hlength]
  constructor
  · intro h
    obtain ⟨total, htotal, h⟩ := Except.ok_of_bind h
    obtain ⟨rowLines, hrows, h⟩ := Except.ok_of_bind h
    obtain ⟨left, hleft, h⟩ := Except.ok_of_bind h
    obtain ⟨hrange, rfl⟩ := stakeAmount_eq_ok_iff.1 htotal
    exact ⟨hrange, rowLines, hrows, left, hleft, Except.ok.inj h⟩
  · rintro ⟨hrange, rowLines, hrows, left, hleft, rfl⟩
    dsimp only
    rw [stakeAmount_eq_ok_iff.2 ⟨hrange, rfl⟩, hrows, hleft]
    rfl

/-- How many rows are announced as left, for a limit of any sign. -/
def announcedCount (top : Option Int) (count : Nat) : Int :=
  match top with
  | none => 0
  | some place => if place < count then count - place else 0

/-- The line that announces how many rows are left, if any are. -/
def moreLines (count : Int) : List String :=
  if count = 0 then [] else ["   ... " ++ numberText count ++ " more"]

theorem remainder_eq (top : Option Int) (count : Nat) :
    remainder top count =
      if Number.isWritable (announcedCount top count) then
        .ok (moreLines (announcedCount top count))
      else .error .numberTooLong := by
  have hzero : Number.isWritable 0 = true := by decide
  cases top with
  | none =>
    rw [announcedCount, hzero]
    rfl
  | some place =>
    rw [remainder, announcedCount]
    by_cases h : place < count
    · have hne : (count : Int) - place ≠ 0 := by omega
      rw [if_pos h, if_pos h, moreLines, if_neg hne, writeNumber]
      cases Number.isWritable (count - place) <;> rfl
    · rw [if_neg h, if_neg h, hzero]
      rfl

/-- The amounts of the total and of the rows that are shown are in range, and the number of the rows
that are left can be written. -/
structure AmountsInRange (s : Snapshot) (x : EffectiveStakes) (top : Option Int) : Prop where
  total : isInRange scaleDigits x.total.natAbs = true
  rows : ∀ row ∈ shownRows top (ranked x.byNode), ∃ n,
    Table.find? s.lookups.nodeByAddress row.1 = some n ∧ RowInRange row n
  announced : Number.isWritable (announcedCount top x.byNode.length) = true

/-- The listing of calculated stakes needs the amounts and the shares of the rows that are shown. -/
theorem exists_listing_iff {scale : Bool} {threads : Int} (hi : s.Indexed)
    (h : s.effectiveStakes scale threads = .ok stakes) :
    (∃ lines, listing s stakes top = .ok lines) ↔ AmountsInRange s stakes top ∧
      ∀ row ∈ shownRows top (ranked stakes.byNode), ∃ text, share row.2 stakes.total = .ok text := by
  have hrows : (∃ rowLines, (shownRows top (ranked stakes.byNode)).mapM (stakeRow s stakes.total) =
      .ok rowLines) ↔ ∀ row ∈ shownRows top (ranked stakes.byNode),
        (∃ n, Table.find? s.lookups.nodeByAddress row.1 = some n ∧ RowInRange row n) ∧
          ∃ text, share row.2 stakes.total = .ok text := by
    rw [exists_mapM_ok_iff]
    refine forall₂_congr fun row hrow => ?_
    -- a node is found for every row, so that only the texts may be missing
    obtain ⟨n, hn, -⟩ := Snapshot.exists_own_row hi h (mem_of_mem_shownRows hrow)
    constructor
    · rintro ⟨line, hline⟩
      obtain ⟨hrange, text, htext, -⟩ := (stakeRow_eq_ok_iff hn).1 hline
      exact ⟨⟨n, hn, hrange⟩, text, htext⟩
    · rintro ⟨⟨n', hn', hrange⟩, text, htext⟩
      exact ⟨_, (stakeRow_eq_ok_iff hn').2 ⟨hrange, text, htext, rfl⟩⟩
  have hleft : (∃ left, remainder top stakes.byNode.length = .ok left) ↔
      Number.isWritable (announcedCount top stakes.byNode.length) = true := by
    rw [remainder_eq]
    cases Number.isWritable (announcedCount top stakes.byNode.length) <;> simp
  constructor
  · rintro ⟨lines, hlines⟩
    obtain ⟨htotal, rowLines, hshown, left, hremainder, -⟩ := listing_eq_ok_iff.1 hlines
    have hall := hrows.1 ⟨rowLines, hshown⟩
    exact ⟨⟨htotal, fun row hrow => (hall row hrow).1, hleft.1 ⟨left, hremainder⟩⟩,
      fun row hrow => (hall row hrow).2⟩
  · rintro ⟨⟨htotal, hshown, hannounced⟩, hshares⟩
    obtain ⟨rowLines, hlines⟩ := hrows.2 fun row hrow => ⟨hshown row hrow, hshares row hrow⟩
    obtain ⟨left, hremainder⟩ := hleft.2 hannounced
    exact ⟨_, listing_eq_ok_iff.2 ⟨htotal, rowLines, hlines, left, hremainder, rfl⟩⟩

end Report

end StakeSnapshot
