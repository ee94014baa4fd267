import StakeSnapshot.Proofs.Lookups
import StakeSnapshot.Proofs.Stake.Failure

/-!
# Other units

The price and the fractions may be on any scale they share, and times may be counted from any moment
(`Snapshot.restated`). The bounds of the collateral are quotients in which a common factor cancels, as
they are multiplied out before the one division, and of the times only differences count. So nothing
changes but the prices and times that a fault mentions, whatever logger there is:
`effectiveStakes_restated`.
-/

namespace StakeSnapshot

/-- Putting rows whose values are changed is changing the values of the table. -/
theorem Table.ofRows_map_values {α β : Type} [DecidableEq α] (f : β → β) (rows : List (α × β)) :
    Table.ofRows (rows.map fun row => (row.1, f row.2)) =
      (Table.ofRows rows).map fun row => (row.1, f row.2) := by
  have hput : ∀ (t : Table α β) (k : α) (v : β),
      Table.put (t.map fun row => (row.1, f row.2)) k (f v) =
        (t.put k v).map fun row => (row.1, f row.2) := by
    intro t k v
    induction t with
    | nil => rfl
    | cons row t ih =>
      simp only [List.map_cons, put]
      split
      · rfl
      · rw [ih, List.map_cons]
  induction rows using List.reverseRecOn with
  | nil => rfl
  | append_singleton rows row ih =>
    rw [List.map_append, List.map_singleton, ofRows_concat, ofRows_concat, ih, hput]

/-! ### Restated rows, parameters and faults -/

/-- A node with its registration at a time that is later by `delta`. -/
def Node.movedBy (delta : Int) (n : Node) : Node := { n with registered := n.registered + delta }

/-- Price and fractions on a scale that is `k` times as fine. -/
def Parameters.scaledBy (k : Int) (p : Parameters) : Parameters :=
  { p with
    price := p.price * k
    minimumFraction := p.minimumFraction * k
    maximumFraction := p.maximumFraction * k }

/-- The snapshot with another scale of price and fractions, and with all times later by `delta`. -/
def Snapshot.restated (k delta : Int) (s : Snapshot) : Snapshot :=
  { s with
    timing := { s.timing with genesisTime := s.timing.genesisTime + delta }
    parameters := s.parameters.scaledBy k
    nodes := s.nodes.map (Node.movedBy delta)
    lookups :=
      { s.lookups with
        nodeByAddress := s.lookups.nodeByAddress.map fun row => (row.1, row.2.movedBy delta) } }

/-- What is raised in place of a fault when its prices and times are in the other units. -/
inductive Fault.Restated (k delta : Int) : Fault → Fault → Prop where
  | price (price : Int) (block : Option Value) :
      Restated k delta (Fault.priceNotPositive price block).raised
        (Fault.priceNotPositive (price * k) block).raised
  | time (registered time : Int) :
      Restated k delta (Fault.registeredLater registered time).raised
        (Fault.registeredLater (registered + delta) (time + delta)).raised
  | node (address : String) {f g : Fault} (h : Restated k delta f g) :
      Restated k delta (.nodeStake address f) (.nodeStake address g)
  | same (f : Fault) : Restated k delta f f

/-- A result in the other units: the same value, or what is raised in place of the fault. -/
inductive Restates {α : Type} (k delta : Int) : Except Fault α → Except Fault α → Prop where
  | ok (a : α) : Restates k delta (.ok a) (.ok a)
  | error {f g : Fault} (h : f.Restated k delta g) : Restates k delta (.error f) (.error g)

/-- Faults of one kind: both are about the price, or about the calculation for the same node. -/
inductive Fault.SameKind : Fault → Fault → Prop where
  | price (p q : Int) (block : Option Value) :
      SameKind (.priceNotPositive p block) (.priceNotPositive q block)
  | node (address : String) (f g : Fault) : SameKind (.nodeStake address f) (.nodeStake address g)
  | same (f : Fault) : SameKind f f

section
variable {k delta : Int} {α β : Type}

theorem Restates.refl (x : Except Fault α) : Restates k delta x x := by
  cases x with
  | ok a => exact .ok a
  | error fault => exact .error (.same fault)

theorem Restates.bind {x y : Except Fault α} {f g : α → Except Fault β} (h : Restates k delta x y)
    (hf : ∀ a, Restates k delta (f a) (g a)) : Restates k delta (x >>= f) (y >>= g) := by
  cases h with
  | ok a => exact hf a
  | error h => exact .error h

theorem Restates.eq_ok_iff {x y : Except Fault α} (h : Restates k delta x y) (a : α) :
    y = .ok a ↔ x = .ok a := by
  cases h <;> simp

theorem Restates.exists_error {f : Fault} {y : Except Fault α} (h : Restates k delta (.error f) y) :
    ∃ g, y = .error g ∧ f.Restated k delta g := by
  cases h with
  | error h => exact ⟨_, rfl, h⟩

/-- Faults may be raised again with more about them. -/
theorem Restates.mapError {x y : Except Fault α} {c : Fault → Fault} (h : Restates k delta x y)
    (hc : ∀ {f g}, f.Restated k delta g → (c f).Restated k delta (c g)) :
    Restates k delta (x.mapError c) (y.mapError c) := by
  cases h with
  | ok a => exact .ok a
  | error h => exact .error (hc h)

theorem Fault.isStakeFailure_raised {f : Fault} (h : f.isStakeFailure = false) :
    f.raised.isStakeFailure = false := by
  rcases f.raised_cases with ⟨-, hf⟩ | ⟨-, hf⟩ <;> rw [hf]
  · exact h
  · rfl

theorem Fault.Restated.isStakeFailure_eq {f g : Fault} (h : f.Restated k delta g) :
    f.isStakeFailure = g.isStakeFailure := by
  cases h with
  | price | time => rw [Fault.isStakeFailure_raised rfl, Fault.isStakeFailure_raised rfl]
  | node | same => rfl

theorem Fault.Restated.atNode {f g : Fault} (h : f.Restated k delta g) (address : String) :
    (f.atNode address).Restated k delta (g.atNode address) := by
  unfold Fault.atNode
  rw [h.isStakeFailure_eq]
  split
  · exact h
  · exact .node address h

/-- A failure for a node stays one for this node. -/
theorem Fault.Restated.sameKind {f g : Fault} (h : f.Restated k delta g)
    (hf : f.isStakeFailure = true) : f.SameKind g := by
  cases h with
  | price | time => cases (Fault.isStakeFailure_raised rfl).symm.trans hf
  | node address h => exact .node address _ _
  | same => exact .same f

end

/-! ### The parts of a stake -/

section
variable {k : Int} (hk : 0 < k) (delta : Int)

include hk in
theorem scaled_nonpos_iff (n : Int) : n * k ≤ 0 ↔ n ≤ 0 := by
  rw [← not_lt, ← not_lt, mul_pos_iff_of_pos_right hk]

include hk in
/-- A common factor of price and fractions cancels. -/
theorem Collateral.ofDeposits_restated (d : Deposits) (price minimumFraction maximumFraction : Int) :
    Restates k delta (ofDeposits d price minimumFraction maximumFraction)
      (ofDeposits d (price * k) (minimumFraction * k) (maximumFraction * k)) := by
  have hprice := scaled_nonpos_iff hk price
  unfold ofDeposits
  by_cases hp : price ≤ 0
  · rw [if_pos hp, if_pos (hprice.2 hp)]
    exact .error (.price price none)
  · rw [if_neg hp, if_neg (mt hprice.1 hp), ← Int.mul_assoc, ← Int.mul_assoc,
      Int.mul_fdiv_mul_of_pos_left _ _ hk, Int.mul_fdiv_mul_of_pos_left _ _ hk]
    exact .ok _

/-- Only the time between registration and snapshot counts. -/
theorem scaleByParticipation_restated (stake registered time interval : Int) :
    Restates k delta (scaleByParticipation stake registered time interval)
      (scaleByParticipation stake (registered + delta) (time + delta) interval) := by
  have helapsed : time + delta - (registered + delta) = time - registered := by omega
  unfold scaleByParticipation
  dsimp only
  rw [helapsed]
  split
  · exact .error (.time registered time)
  · exact .refl _

end

/-- Outcomes in the other units are collected to a result in the other units. -/
theorem EffectiveStakes.collect_restates {k delta : Int} {f g : Node → Except Fault Int}
    (nodes : List Node) (h : ∀ n, Restates k delta (f n) (g n)) :
    Restates k delta (collect (nodes.map fun n => (n.address, f n)))
      (collect (nodes.map fun n => (n.address, g n))) := by
  refine .bind ?_ fun rows => .ok _
  induction nodes with
  | nil => exact .ok []
  | cons n nodes ih =>
    rw [List.map_cons, List.map_cons, List.mapM_cons, List.mapM_cons]
    exact .bind ((h n).bind fun stake => .ok (n.address, stake)) fun row => ih.bind fun rows => .ok _

/-- The fault of collected outcomes is that of one of them. -/
theorem EffectiveStakes.mem_of_collect_eq_error {outcomes : List (String × Except Fault Int)}
    {fault : Fault} (h : collect outcomes = .error fault) :
    ∃ address, (address, .error fault) ∈ outcomes := by
  rcases outcomes_cases outcomes with ⟨rows, rfl⟩ | ⟨rows, address, other, rest, rfl⟩
  · rw [collect_stakesOnly] at h
    cases h
  · rw [collect_failure] at h
    cases h
    exact ⟨address, List.mem_append_right _ List.mem_cons_self⟩

namespace Snapshot
variable {s : Snapshot} {log : Logger} {scale : Bool} {threads : Int} {n : Node} {k : Int}
  (delta : Int)

theorem time_restated : (s.restated k delta).time = s.time + delta := by
  simp only [time, ChainTiming.slotTime, restated]
  omega

theorem nodeStake_restated (hk : 0 < k) :
    Restates k delta (s.nodeStake scale n)
      ((s.restated k delta).nodeStake scale (n.movedBy delta)) := by
  have hdeposits : (s.restated k delta).eligibleDeposits
        ((s.restated k delta).minipoolsOf (n.movedBy delta).address) =
      s.eligibleDeposits (s.minipoolsOf n.address) := rfl
  rw [nodeStake, nodeStake, hdeposits]
  refine Restates.bind (.refl _) fun d =>
    .bind (Collateral.ofDeposits_restated hk delta d _ _ _) fun c => ?_
  cases scale with
  | false => exact .refl _
  | true =>
    have hscaled := scaleByParticipation_restated (k := k) delta (c.clamp n.stake) n.registered s.time
      s.parameters.interval
    rw [← time_restated delta] at hscaled
    exact hscaled.mapError fun h => .node n.address h

/-- The lines are about standings, which do not depend on the units. -/
theorem notes_restated (ms : List Minipool) : (s.restated k delta).notes ms = s.notes ms := by
  induction ms with
  | nil => rfl
  | cons m ms ih =>
    rw [notes, notes, ih]
    rfl

theorem toldStake_restated (hk : 0 < k) :
    Restates k delta (s.toldStake log scale n)
      ((s.restated k delta).toldStake log scale (n.movedBy delta)) := by
  have hnotes : (s.restated k delta).nodeNotes (n.movedBy delta) = s.nodeNotes n := notes_restated delta _
  rw [toldStake, toldStake, hnotes]
  exact .bind (.refl _) fun _ => (nodeStake_restated delta hk).mapError fun h => h.atNode n.address

theorem isStakeFailure_of_toldStake {fault : Fault} (h : s.toldStake log scale n = .error fault) :
    fault.isStakeFailure = true := by
  unfold toldStake namedStake at h
  generalize log.tell (s.nodeNotes n) = told at h
  generalize s.nodeStake scale n = stake at h
  cases told with
  | error other =>
    cases h
    exact Fault.isStakeFailure_atNode _ _
  | ok _ =>
    cases stake with
    | ok stake => cases h
    | error other =>
      cases h
      exact Fault.isStakeFailure_atNode _ _

/-! ### The whole calculation -/

theorem collect_restated (log : Logger) (scale : Bool) (hk : 0 < k) :
    Restates k delta
      (EffectiveStakes.collect (s.nodes.map fun n => (n.address, s.toldStake log scale n)))
      (EffectiveStakes.collect ((s.restated k delta).nodes.map fun n =>
        (n.address, (s.restated k delta).toldStake log scale n))) := by
  have hnodes : (s.restated k delta).nodes.map (fun n =>
        (n.address, (s.restated k delta).toldStake log scale n)) =
      s.nodes.map fun n =>
        (n.address, (s.restated k delta).toldStake log scale (n.movedBy delta)) := List.map_map
  rw [hnodes]
  exact EffectiveStakes.collect_restates s.nodes fun n => toldStake_restated delta hk

/-- The settings and parameters allow a calculation in the other units too. If it is the price that
does not, it is named in the other units. -/
theorem checkConfiguration_restated (scale : Bool) (threads : Int) (hk : 0 < k) :
    (s.restated k delta).checkConfiguration scale threads = s.checkConfiguration scale threads ∨
      s.parameters.price ≤ 0 ∧
        s.checkConfiguration scale threads =
          .error (Fault.priceNotPositive s.parameters.price (some s.block)).raised ∧
        (s.restated k delta).checkConfiguration scale threads =
          .error (Fault.priceNotPositive (s.parameters.price * k) (some s.block)).raised := by
  have hprice : (s.restated k delta).parameters.price ≤ 0 ↔ s.parameters.price ≤ 0 :=
    scaled_nonpos_iff hk s.parameters.price
  unfold checkConfiguration
  by_cases hthreads : threads < 1
  · exact .inl (by rw [if_pos hthreads, if_pos hthreads])
  rw [if_neg hthreads, if_neg hthreads]
  by_cases hp : s.parameters.price ≤ 0
  · exact .inr ⟨hp, if_pos hp, if_pos (hprice.2 hp)⟩
  · rw [if_neg hp, if_neg (mt hprice.1 hp)]
    exact .inl rfl

theorem isWritable_of_mul {p k : Int} (hk : 0 < k) (h : Number.isWritable (p * k) = true) :
    Number.isWritable p = true := by
  rw [Number.isWritable_iff] at h ⊢
  refine lt_of_le_of_lt ?_ h
  rw [Int.natAbs_mul]
  exact Nat.le_mul_of_pos_right _ (by omega)

/-- A price is named in both units, or in neither, or it is too long in the finer one only. -/
theorem sameKind_or_long (hk : 0 < k) (price : Int) (block : Value) :
    (Fault.priceNotPositive price (some block)).raised.SameKind
        (Fault.priceNotPositive (price * k) (some block)).raised ∨
      (Fault.priceNotPositive price (some block)).raised = .priceNotPositive price (some block) ∧
        Number.isWritable (price * k) = false ∧
        (Fault.priceNotPositive (price * k) (some block)).raised = .numberTooLong := by
  rcases (Fault.priceNotPositive price (some block)).raised_cases with ⟨hp, hfault⟩ | ⟨hp, hfault⟩ <;>
    rcases (Fault.priceNotPositive (price * k) (some block)).raised_cases with
      ⟨hq, hother⟩ | ⟨hq, hother⟩ <;> rw [hfault, hother]
  · exact .inl (.price _ _ _)
  · simp only [Fault.named, Value.isWritable_int, Option.toList_some, List.forall_mem_cons, List.not_mem_nil,
      false_imp_iff, implies_true, and_true] at hp
    simp only [Fault.named, Value.isWritable_int, Option.toList_some, List.mem_cons, List.not_mem_nil, or_false,
      exists_eq_or_imp, exists_eq_left, hp.2, Bool.true_eq_false] at hq
    exact .inr ⟨rfl, hq, rfl⟩
  · simp only [Fault.named, Value.isWritable_int, Option.toList_some, List.forall_mem_cons, List.not_mem_nil,
      false_imp_iff, implies_true, and_true] at hq
    simp only [Fault.named, Value.isWritable_int, Option.toList_some, List.mem_cons, List.not_mem_nil, or_false,
      exists_eq_or_imp, exists_eq_left, hq.2, isWritable_of_mul hk hq.1, Bool.true_eq_false] at hp
  · exact .inl (.same _)

/-- The lookups of a restated snapshot are still those of its rows. -/
theorem Indexed.restated (h : s.Indexed) : (s.restated k delta).Indexed := by
  have hlookups : s.lookups = Lookups.ofRows s.nodes s.minipools := h
  have hnodes : (s.nodes.map (Node.movedBy delta)).map (fun n => (n.address, n)) =
      (s.nodes.map fun n => (n.address, n)).map fun row => (row.1, row.2.movedBy delta) := by
    rw [List.map_map, List.map_map]
    rfl
  rw [Indexed, Snapshot.restated, hlookups]
  dsimp only
  rw [Lookups.ofRows, Lookups.ofRows, hnodes, Table.ofRows_map_values]

/-- The snapshot halfway through an interval at a time before one of its nodes registered. -/
def beforehand : Snapshot := { halfway with slot := 70 }

end Snapshot

end StakeSnapshot
