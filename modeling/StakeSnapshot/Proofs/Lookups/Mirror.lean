import Mathlib.Data.List.Flatten
import StakeSnapshot.Proofs.Lookups

/-!
# What lookups say about the rows

Rows are looked up by a key in two ways. A table of rows has the last row of each key
(`Table.LastRows`), and a table of groups has all rows of each key (`Table.Groups`); both have their
keys in the order in which they first appear among the rows (`FirstsAmong`). The lookups of a
snapshot are of these two kinds, whatever repeats in its lists (`Lookups.ofRows_mirrors`).
-/

namespace StakeSnapshot

variable {α β γ : Type} [DecidableEq α]

/-! ### First appearances -/

/-- The members of a list that have a property, each of them once, in the order in which they first
appear in the list. -/
structure FirstsAmong (p : α → Prop) (xs keys : List α) : Prop where
  nodup : keys.Nodup
  mem_iff : ∀ k, k ∈ keys ↔ k ∈ xs ∧ p k
  ordered : keys.Pairwise fun a b => xs.idxOf a < xs.idxOf b

theorem FirstsAmong.nil (p : α → Prop) : FirstsAmong p [] [] where
  nodup := List.nodup_nil
  mem_iff := by simp
  ordered := List.Pairwise.nil

section
variable {p : α → Prop} {xs keys : List α} {x : α}

/-- The members so far keep their order when the list grows. -/
theorem FirstsAmong.ordered_concat (h : FirstsAmong p xs keys) (x : α) :
    keys.Pairwise fun a b => (xs ++ [x]).idxOf a < (xs ++ [x]).idxOf b := by
  refine h.ordered.imp_of_mem fun {a b} ha hb hab => ?_
  rwa [List.idxOf_append_of_mem ((h.mem_iff a).1 ha).1,
    List.idxOf_append_of_mem ((h.mem_iff b).1 hb).1]

/-- A member that is there already, or that does not have the property, changes nothing. -/
theorem FirstsAmong.concat_old (h : FirstsAmong p xs keys) (hx : x ∈ xs ∨ ¬ p x) :
    FirstsAmong p (xs ++ [x]) keys where
  nodup := h.nodup
  mem_iff k := by
    rw [h.mem_iff, List.mem_append, List.mem_singleton]
    constructor
    · rintro ⟨hk, hp⟩
      exact ⟨.inl hk, hp⟩
    · rintro ⟨hk | rfl, hp⟩
      · exact ⟨hk, hp⟩
      · exact ⟨hx.resolve_right fun hn => hn hp, hp⟩
  ordered := h.ordered_concat x

/-- A new member goes to the end. -/
theorem FirstsAmong.concat_new (h : FirstsAmong p xs keys) (hx : x ∉ xs) (hp : p x) :
    FirstsAmong p (xs ++ [x]) (keys ++ [x]) where
  nodup := by
    have hk : x ∉ keys := fun hk => hx ((h.mem_iff x).1 hk).1
    exact List.nodup_append.2 ⟨h.nodup, List.nodup_singleton x, by
      rintro a ha b hb rfl
      exact hk (List.mem_singleton.1 hb ▸ ha)⟩
  mem_iff k := by
    rw [List.mem_append, List.mem_append, List.mem_singleton, h.mem_iff]
    constructor
    · rintro (⟨hk, hpk⟩ | rfl)
      · exact ⟨.inl hk, hpk⟩
      · exact ⟨.inr rfl, hp⟩
    · rintro ⟨hk | rfl, hpk⟩
      · exact .inl ⟨hk, hpk⟩
      · exact .inr rfl
  ordered := by
    refine List.pairwise_append.2 ⟨h.ordered_concat x, List.pairwise_singleton _ _, ?_⟩
    intro a ha b hb
    have hmem := ((h.mem_iff a).1 ha).1
    rw [List.mem_singleton.1 hb, List.idxOf_append_of_mem hmem, List.idxOf_append_of_notMem hx]
    have hlt := List.idxOf_lt_length_of_mem hmem
    omega

end

/-- Duplicates that are erased leave the first appearances. -/
theorem firstsAmong_eraseDups_filter (p : α → Prop) [DecidablePred p] (xs : List α) :
    FirstsAmong p xs (xs.filter p).eraseDups := by
  induction xs using List.reverseRecOn with
  | nil => exact .nil p
  | append_singleton xs x ih =>
    rw [List.filter_append]
    by_cases hp : p x
    · rw [List.filter_singleton, decide_eq_true hp, cond_true, Table.eraseDups_concat]
      by_cases hx : x ∈ xs
      · rw [if_pos (List.mem_filter.2 ⟨hx, by simpa using hp⟩)]
        exact ih.concat_old (.inl hx)
      · rw [if_neg fun h => hx (List.mem_filter.1 h).1]
        exact ih.concat_new hx hp
    · rw [List.filter_singleton, decide_eq_false hp, cond_false, List.append_nil]
      exact ih.concat_old (.inr hp)

theorem firstsAmong_eraseDups (xs : List α) : FirstsAmong (fun _ => True) xs xs.eraseDups := by
  have h := firstsAmong_eraseDups_filter (fun _ : α => True) xs
  rwa [List.filter_eq_self.2 (by simp)] at h

namespace Table

/-! ### The last row of each key -/

/-- The table has the last row of each key of a list of rows. -/
structure LastRows (key : γ → α) (rows : List γ) (t : Table α γ) : Prop where
  keys : FirstsAmong (fun _ => True) (rows.map key) t.keys
  last : ∀ k, find? t k = (rows.filter (key · = k)).getLast?
  none_iff : ∀ k, find? t k = none ↔ ∀ row ∈ rows, key row ≠ k

theorem lastRows_ofRows (key : γ → α) (rows : List γ) :
    LastRows key rows (ofRows (rows.map fun row => (key row, row))) := by
  have hlast : ∀ k, find? (ofRows (rows.map fun row => (key row, row))) k =
      (rows.filter (key · = k)).getLast? := by
    intro k
    rw [find?_ofRows, List.filter_map, List.getLast?_map, Option.map_map]
    exact congrFun Option.map_id _
  refine ⟨?_, hlast, fun k => ?_⟩
  · rw [keys_ofRows, List.map_map]
    exact firstsAmong_eraseDups _
  · rw [hlast, List.getLast?_eq_none_iff, List.filter_eq_nil_iff]
    simp

/-! ### All rows of each key -/

/-- The table has all rows of each key of a list of rows, in order, and each row in one place. -/
structure Groups [DecidableEq γ] (key : γ → α) (rows : List γ) (t : Table α (List γ)) : Prop where
  keys : FirstsAmong (fun _ => True) (rows.map key) t.keys
  group_iff : ∀ k group, find? t k = some group ↔
    group = rows.filter (key · = k) ∧ group ≠ []
  perm : t.values.flatten.Perm rows
  once : ∀ row ∈ rows, ∀ k group, (k, group) ∈ t →
    group.count row = if k = key row then rows.count row else 0

theorem keys_grouped (key : γ → α) (xs : List γ) :
    (grouped key xs).keys = (xs.map key).eraseDups := by
  induction xs using List.reverseRecOn with
  | nil => rfl
  | append_singleton xs x ih =>
    rw [grouped_concat, append, keys_put, ih, List.map_append, List.map_singleton, eraseDups_concat]
    simp only [List.mem_eraseDups]

/-- Gathering one more value adds it to what has been gathered. -/
theorem flatten_values_append (t : Table α (List β)) (k : α) (v : β) :
    (t.append k v).values.flatten.Perm (t.values.flatten ++ [v]) := by
  rw [append]
  induction t with
  | nil => simp [put, values]
  | cons row t ih =>
    by_cases hk : row.1 = k
    · simp only [put, find?, if_pos hk, values, List.map_cons, List.flatten_cons, Option.getD_some,
        List.append_assoc]
      exact List.perm_append_comm.append_left row.2
    · simp only [put, find?, if_neg hk, values, List.map_cons, List.flatten_cons,
        List.append_assoc]
      exact ih.append_left row.2

theorem groups_grouped [DecidableEq γ] (key : γ → α) (rows : List γ) :
    Groups key rows (grouped key rows) := by
  have hkeys : FirstsAmong (fun _ => True) (rows.map key) (grouped key rows).keys := by
    rw [keys_grouped]
    exact firstsAmong_eraseDups _
  have hgroup : ∀ k group, find? (grouped key rows) k = some group ↔
      group = rows.filter (key · = k) ∧ group ≠ [] := by
    intro k group
    rw [find?_grouped]
    cases h : rows.filter (key · = k) with
    | nil => simp
    | cons row rest =>
      rw [List.isEmpty_cons, if_neg Bool.false_ne_true, Option.some.injEq]
      constructor
      · rintro rfl
        exact ⟨rfl, List.cons_ne_nil _ _⟩
      · rintro ⟨rfl, -⟩
        rfl
  refine ⟨hkeys, hgroup, ?_, ?_⟩
  -- rows are added to the groups at their end
  · clear hkeys hgroup
    induction rows using List.reverseRecOn with
    | nil => exact .nil
    | append_singleton rows row ih =>
      rw [grouped_concat]
      exact (flatten_values_append _ _ _).trans (ih.append_right [row])
  · intro row hrow k group hmem
    obtain ⟨rfl, -⟩ := (hgroup k group).1 ((find?_eq_some_iff_mem hkeys.nodup).2 hmem)
    by_cases hk : k = key row
    · rw [if_pos hk, List.count_filter (by simp [hk])]
    · rw [if_neg hk, List.count_eq_zero]
      intro hfilter
      exact hk (of_decide_eq_true (List.mem_filter.1 hfilter).2).symm

end Table

/-! ### The lookups of a snapshot -/

namespace Lookups

/-- The lookups say what the rows say. -/
structure Mirrors (lookups : Lookups) (nodes : List Node) (minipools : List Minipool) : Prop where
  nodeByAddress : Table.LastRows (·.address) nodes lookups.nodeByAddress
  minipoolByAddress : Table.LastRows (·.address) minipools lookups.minipoolByAddress
  minipoolsByNode : Table.Groups (·.owner) minipools lookups.minipoolsByNode
  pubkeys : FirstsAmong (· ≠ unassignedPubkey) (minipools.map (·.pubkey)) lookups.pubkeys

/-- The lookups over any rows mirror them, also where addresses, owners and keys repeat. -/
theorem ofRows_mirrors (nodes : List Node) (minipools : List Minipool) :
    (ofRows nodes minipools).Mirrors nodes minipools where
  nodeByAddress := Table.lastRows_ofRows _ _
  minipoolByAddress := Table.lastRows_ofRows _ _
  minipoolsByNode := Table.groups_grouped _ _
  pubkeys := by
    rw [ofRows, Table.distinct_eq_eraseDups]
    exact firstsAmong_eraseDups_filter (· ≠ unassignedPubkey) _

end Lookups

end StakeSnapshot
