import StakeSnapshot.Proofs.Lookups.Mirror
import StakeSnapshot.Proofs.Stake.Independence

/-!
# The total and the table of stakes

The total has the stake of every row, while the table keeps one row for each address: a row gives way
to the next one with the same address. The rows that give way are those whose key occurs again later
(`Table.superseded`). Together with the table they are all rows (`superseded_append_ofRows_perm`), so
the total and the sum over the table differ by exactly their stakes (`total_accounted`).
-/

namespace StakeSnapshot

open scoped List

namespace Table
variable {α β γ : Type} [DecidableEq α]

/-! ### Rows that give way -/

/-- The members of a list whose key occurs again later in the list. -/
def superseded (key : γ → α) : List γ → List γ
  | [] => []
  | x :: xs => if key x ∈ xs.map key then x :: superseded key xs else superseded key xs

theorem superseded_map {δ : Type} (key : γ → α) (f : δ → γ) (xs : List δ) :
    superseded key (xs.map f) = (superseded (fun x => key (f x)) xs).map f := by
  induction xs with
  | nil => rfl
  | cons x xs ih =>
    simp only [List.map_cons, superseded, List.map_map, Function.comp_def, ih]
    split <;> rfl

theorem superseded_of_nodup {key : γ → α} {xs : List γ} (h : (xs.map key).Nodup) :
    superseded key xs = [] := by
  induction xs with
  | nil => rfl
  | cons x xs ih =>
    obtain ⟨hx, hxs⟩ := List.nodup_cons.1 h
    rw [superseded, if_neg hx, ih hxs]

/-- A member at the end takes the place of the last one with its key. -/
theorem superseded_concat_perm (key : γ → α) (xs : List γ) (x : γ) :
    (superseded key (xs ++ [x])).Perm
      ((xs.filter (key · = key x)).getLast?.toList ++ superseded key xs) := by
  induction xs with
  | nil => exact .nil
  | cons y ys ih =>
    have hmem : key y ∈ (ys ++ [x]).map key ↔ key y ∈ ys.map key ∨ key y = key x := by
      rw [List.map_append, List.mem_append, List.map_singleton, List.mem_singleton]
    rw [List.cons_append, superseded, superseded, List.filter_cons]
    by_cases hlater : key y ∈ ys.map key
    · -- `y` has given way already, and there is a later one if it has the key of `x`
      have hlast : (if decide (key y = key x) = true then y :: ys.filter (key · = key x)
          else ys.filter (key · = key x)).getLast? = (ys.filter (key · = key x)).getLast? := by
        split
        · next hkey =>
          obtain ⟨z, hz, hzkey⟩ := List.mem_map.1 hlater
          have hmem : z ∈ ys.filter (key · = key x) :=
            List.mem_filter.2 ⟨hz, decide_eq_true (hzkey.trans (of_decide_eq_true hkey))⟩
          rw [List.getLast?_cons_of_ne_nil (List.ne_nil_of_mem hmem)]
        · rfl
      rw [if_pos (hmem.2 (.inl hlater)), if_pos hlater, hlast]
      exact (ih.cons y).trans List.perm_middle.symm
    · by_cases hkey : key y = key x
      · -- `y` was the last one with the key of `x`
        have hnone : ys.filter (key · = key x) = [] := by
          refine List.filter_eq_nil_iff.2 fun z hz hzkey => hlater ?_
          rw [hkey, ← of_decide_eq_true hzkey]
          exact List.mem_map_of_mem hz
        rw [hnone] at ih
        rw [if_pos (hmem.2 (.inr hkey)), if_neg hlater, if_pos (decide_eq_true hkey), hnone]
        exact ih.cons y
      · rw [if_neg (mt hmem.1 (not_or.2 ⟨hlater, hkey⟩)), if_neg hlater,
          if_neg (by simpa using hkey)]
        exact ih

/-! ### What a table keeps -/

/-- The row that a key has in a table, if there is one. -/
def row? (t : Table α β) (k : α) : Option (α × β) := (find? t k).map fun v => (k, v)

/-- Putting a row adds it and takes the old row of its key away. -/
theorem row?_append_put_perm (t : Table α β) (k : α) (v : β) :
    ((row? t k).toList ++ t.put k v).Perm (t ++ [(k, v)]) := by
  induction t with
  | nil => exact .refl _
  | cons row t ih =>
    obtain ⟨k', v'⟩ := row
    by_cases hkey : k' = k
    · subst hkey
      rw [row?, find?_cons_self, put, if_pos rfl]
      have hswap : [(k', v)] ++ t ~ t ++ [(k', v)] := List.perm_append_comm
      exact hswap.cons (k', v')
    · have hold : row? ((k', v') :: t) k = row? t k := by rw [row?, find?_cons_of_ne hkey, row?]
      rw [put, if_neg hkey, hold]
      exact List.perm_middle.trans (ih.cons (k', v'))

theorem row?_ofRows (rows : List (α × β)) (k : α) :
    row? (ofRows rows) k = (rows.filter (·.1 = k)).getLast? := by
  rw [row?, find?_ofRows, Option.map_map]
  cases hlast : (rows.filter (·.1 = k)).getLast? with
  | none => rfl
  | some row =>
    have hkey := (List.mem_filter.1 (List.mem_of_getLast? hlast)).2
    exact congrArg some (Prod.ext (of_decide_eq_true hkey).symm rfl)

/-- The rows that gave way and those that are left in the table are all rows, each in one place. -/
theorem superseded_append_ofRows_perm (rows : List (α × β)) :
    (superseded Prod.fst rows ++ ofRows rows).Perm rows := by
  induction rows using List.reverseRecOn with
  | nil => exact .nil
  | append_singleton rows row ih =>
    have hput := row?_append_put_perm (ofRows rows) row.1 row.2
    rw [row?_ofRows] at hput
    rw [ofRows_concat]
    calc superseded Prod.fst (rows ++ [row]) ++ (ofRows rows).put row.1 row.2
        ~ ((rows.filter (·.1 = row.1)).getLast?.toList ++ superseded Prod.fst rows) ++
            (ofRows rows).put row.1 row.2 := (superseded_concat_perm _ rows row).append_right _
      _ ~ superseded Prod.fst rows ++ ((rows.filter (·.1 = row.1)).getLast?.toList ++
            (ofRows rows).put row.1 row.2) := by
          rw [← List.append_assoc]
          exact List.perm_append_comm.append_right _
      _ ~ superseded Prod.fst rows ++ (ofRows rows ++ [row]) := hput.append_left _
      _ ~ rows ++ [row] := by
          rw [← List.append_assoc]
          exact ih.append_right [row]

end Table

/-! ### Stakes -/

/-- The total is the sum over the table and the rows that gave way. -/
theorem EffectiveStakes.total_ofRows (rows : List (String × Int)) :
    (ofRows rows).total =
      ((Table.superseded Prod.fst rows).map Prod.snd).sum + (ofRows rows).byNode.values.sum := by
  have hsum := ((Table.superseded_append_ofRows_perm rows).map Prod.snd).sum_eq
  rw [List.map_append, List.sum_append] at hsum
  exact hsum.symm

namespace Snapshot

variable {s : Snapshot} {scale : Bool} {threads : Int} {x : EffectiveStakes}

theorem nodeStake_of_namedStake {n : Node} {stake : Int} (h : s.namedStake scale n = .ok stake) :
    s.nodeStake scale n = .ok stake := by
  unfold namedStake at h
  cases hn : s.nodeStake scale n with
  | ok _ => rwa [hn] at h
  | error fault =>
    rw [hn] at h
    cases h

/-- Wherever stakes are calculated, every row has one. The total is their sum, and the addresses of the
table are those of the rows in order of first appearance. What the total has beyond the table are the
stakes of the rows whose address occurs again later; if no address does, there is a row of the table
for every row. -/
theorem total_accounted (h : s.effectiveStakes scale threads = .ok x) :
    ∃ stake : Node → Int, (∀ n ∈ s.nodes, s.nodeStake scale n = .ok (stake n)) ∧
      x.total = (s.nodes.map stake).sum ∧
      FirstsAmong (fun _ => True) (s.nodes.map (·.address)) x.byNode.keys ∧
      x.total - x.byNode.values.sum = ((Table.superseded (·.address) s.nodes).map stake).sum ∧
      ((s.nodes.map (·.address)).Nodup →
        x.byNode = s.nodes.map (fun n => (n.address, stake n)) ∧
          x.total = x.byNode.values.sum) := by
  obtain ⟨-, stake, hstake, rfl⟩ := effectiveStakes_eq_ok_iff.1 h
  have hbeyond := EffectiveStakes.total_ofRows (s.nodes.map fun n => (n.address, stake n))
  rw [Table.superseded_map, List.map_map] at hbeyond
  refine ⟨stake, fun n hn => nodeStake_of_namedStake (hstake n hn), ?_, ?_, ?_, fun hnodup => ?_⟩
  · rw [EffectiveStakes.ofRows, List.map_map]
    rfl
  · rw [EffectiveStakes.ofRows, Table.keys_ofRows, List.map_map]
    exact firstsAmong_eraseDups _
  · rw [hbeyond, add_sub_cancel_right]
    rfl
  · rw [Table.superseded_of_nodup hnodup] at hbeyond
    have hkeys : (Table.keys (s.nodes.map fun n => (n.address, stake n))).Nodup := by
      rwa [Table.keys, List.map_map]
    exact ⟨Table.ofRows_of_nodup hkeys, hbeyond.trans (zero_add _)⟩

/-- The first of the two rows of one node gives way, and its stake of 100 is in the total only. -/
theorem total_accounted_halfway :
    halfway.effectiveStakes true 4 = .ok ⟨[("0xa", 45), ("0xb", 12)], 157⟩ ∧
    ∃ stake : Node → Int, (∀ n ∈ halfway.nodes, halfway.nodeStake true n = .ok (stake n)) ∧
      157 - (45 + 12) = stake ⟨"0xa", 301, 900⟩ := by
  have hrun : halfway.effectiveStakes true 4 = .ok ⟨[("0xa", 45), ("0xb", 12)], 157⟩ := by decide
  obtain ⟨stake, hstake, -, -, hbeyond, -⟩ := total_accounted hrun
  have hrows : Table.superseded (·.address) halfway.nodes = [⟨"0xa", 301, 900⟩] := by decide
  rw [hrows] at hbeyond
  exact ⟨hrun, stake, hstake, hbeyond.trans (add_zero _)⟩

end Snapshot

end StakeSnapshot
