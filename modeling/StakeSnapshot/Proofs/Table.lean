import StakeSnapshot.Table
import Mathlib.Data.List.Induction
import Mathlib.Data.List.Nodup

/-!
# What tables of rows hold

`keys_ofRows` and `find?_ofRows` describe the table of a list of rows by the list alone: the keys
are the distinct first components in order of first appearance, and a key has the value of its last
row. `find?_grouped` does the same for lists that are gathered under a key: each key has the sublist
of everything that was put under it. What is found in a table whose keys do not repeat does not depend
on its order (`find?_of_perm`).
-/

namespace StakeSnapshot
namespace Table

variable {α β γ : Type} [DecidableEq α]

theorem putAll_append (t : Table α β) (rows more : List (α × β)) :
    t.putAll (rows ++ more) = (t.putAll rows).putAll more := by
  simp [putAll]

theorem ofRows_concat (rows : List (α × β)) (row : α × β) :
    ofRows (rows ++ [row]) = (ofRows rows).put row.1 row.2 := by
  rw [ofRows, putAll_append]
  rfl

theorem eraseDups_concat (xs : List α) (x : α) :
    (xs ++ [x]).eraseDups = if x ∈ xs then xs.eraseDups else xs.eraseDups ++ [x] := by
  rw [List.eraseDups_append]
  by_cases h : x ∈ xs <;> simp [List.removeAll, List.eraseDups_cons, h]

theorem put_of_notMem {t : Table α β} {k : α} (h : k ∉ t.keys) (v : β) :
    t.put k v = t ++ [(k, v)] := by
  induction t with
  | nil => rfl
  | cons row t ih =>
    rw [keys_cons, List.mem_cons, not_or] at h
    rw [put, if_neg (Ne.symm h.1), ih h.2, List.cons_append]

theorem mem_keys_put {t : Table α β} {k k' : α} {v : β} :
    k' ∈ (t.put k v).keys ↔ k' = k ∨ k' ∈ t.keys := by
  rw [keys_put]
  split
  · next h => exact ⟨.inr, fun hk => hk.elim (fun heq => heq ▸ h) id⟩
  · rw [List.mem_append, List.mem_singleton, or_comm]

theorem keys_erase (t : Table α β) (k : α) : (t.erase k).keys = t.keys.erase k := by
  induction t with
  | nil => rfl
  | cons row t ih =>
    by_cases h : row.1 = k
    · simp [erase, h]
    · rw [erase, if_neg h, keys_cons, keys_cons, List.erase_cons_tail (by simpa using h), ih]

theorem mem_put {t : Table α β} {k : α} {v : β} {row : α × β} (h : row ∈ t.put k v) :
    row = (k, v) ∨ row ∈ t := by
  induction t with
  | nil => exact .inl (List.mem_singleton.1 h)
  | cons first t ih =>
    rw [put] at h
    split at h
    · next hkey =>
      rcases List.mem_cons.1 h with h | h
      · exact .inl (hkey ▸ h)
      · exact .inr (List.mem_cons_of_mem _ h)
    · rcases List.mem_cons.1 h with h | h
      · exact .inr (h ▸ List.mem_cons_self)
      · exact (ih h).imp_right (List.mem_cons_of_mem _)

theorem mem_of_find? {t : Table α β} {k : α} {v : β} (h : find? t k = some v) : (k, v) ∈ t := by
  induction t with
  | nil => cases h
  | cons row t ih =>
    rw [find?] at h
    split at h
    · next hkey =>
      cases h
      rw [← hkey]
      exact List.mem_cons_self
    · exact List.mem_cons_of_mem row (ih h)

/-- Rows whose keys do not repeat are their own table. -/
theorem ofRows_of_nodup {rows : List (α × β)} (h : (keys rows).Nodup) : ofRows rows = rows := by
  induction rows using List.reverseRecOn with
  | nil => rfl
  | append_singleton rows row ih =>
    rw [keys, List.map_append, List.map_singleton] at h
    obtain ⟨hrows, -, hrow⟩ := List.nodup_append.1 h
    have hnew : row.1 ∉ keys rows := fun hmem => hrow _ hmem _ (List.mem_singleton.2 rfl) rfl
    rw [ofRows_concat, ih hrows, put_of_notMem hnew]

theorem mem_of_mem_ofRows {rows : List (α × β)} {row : α × β} (h : row ∈ ofRows rows) :
    row ∈ rows := by
  induction rows using List.reverseRecOn with
  | nil => exact h
  | append_singleton rows last ih =>
    rw [ofRows_concat] at h
    rcases mem_put h with rfl | h
    · exact List.mem_append_right _ (List.mem_singleton.2 rfl)
    · exact List.mem_append_left _ (ih h)

/-- The keys of a table of rows, in order of first appearance. -/
theorem keys_ofRows (rows : List (α × β)) :
    (ofRows rows).keys = (rows.map Prod.fst).eraseDups := by
  induction rows using List.reverseRecOn with
  | nil => rfl
  | append_singleton rows row ih =>
    rw [ofRows_concat, keys_put, ih, List.map_append, List.map_singleton, eraseDups_concat]
    simp only [List.mem_eraseDups]

theorem distinct_eq_eraseDups (xs : List α) : distinct xs = xs.eraseDups := by
  rw [distinct, keys_ofRows, List.map_map]
  exact congrArg List.eraseDups (List.map_id xs)

/-- A key of a table of rows has the value of its last row. -/
theorem find?_ofRows (rows : List (α × β)) (k : α) :
    find? (ofRows rows) k = (rows.filter (·.1 = k)).getLast?.map Prod.snd := by
  induction rows using List.reverseRecOn with
  | nil => rfl
  | append_singleton rows row ih =>
    rw [ofRows_concat, find?_put, ih, List.filter_append]
    by_cases h : row.1 = k <;> simp [h]

/-- Where all rows of a key agree, their order does not matter. -/
theorem find?_ofRows_eq_some_iff {rows : List (α × β)} {k : α} {v : β}
    (h : ∀ v v', (k, v) ∈ rows → (k, v') ∈ rows → v = v') :
    find? (ofRows rows) k = some v ↔ (k, v) ∈ rows := by
  rw [find?_ofRows, Option.map_eq_some_iff]
  constructor
  · rintro ⟨row, hrow, rfl⟩
    obtain ⟨hmem, hkey⟩ := List.mem_filter.1 (List.mem_of_getLast? hrow)
    rw [← of_decide_eq_true hkey]
    exact hmem
  · intro hmem
    have hfilter : (k, v) ∈ rows.filter (·.1 = k) := List.mem_filter.2 ⟨hmem, by simp⟩
    cases hlast : (rows.filter (·.1 = k)).getLast? with
    | none =>
      rw [List.getLast?_eq_none_iff.1 hlast] at hfilter
      cases hfilter
    | some row =>
      obtain ⟨hrow, hkey⟩ := List.mem_filter.1 (List.mem_of_getLast? hlast)
      rw [← Prod.eta row, of_decide_eq_true hkey] at hrow
      exact ⟨row, rfl, h row.2 v hrow hmem⟩

/-- In a table whose keys do not repeat, a key has the value that stands with it. -/
theorem find?_eq_some_iff_mem {t : Table α β} (h : t.keys.Nodup) {k : α} {v : β} :
    find? t k = some v ↔ (k, v) ∈ t := by
  refine ⟨mem_of_find?, fun hmem => ?_⟩
  rw [← ofRows_of_nodup h]
  refine (find?_ofRows_eq_some_iff fun v v' hv hv' => ?_).2 hmem
  exact congrArg Prod.snd (List.inj_on_of_nodup_map h hv hv' rfl)

/-- The order of a table whose keys do not repeat does not matter for what is found in it. -/
theorem find?_of_perm {t u : Table α β} (h : t.keys.Nodup) (hperm : t.Perm u) (k : α) :
    find? t k = find? u k := by
  have hu : u.keys.Nodup := (hperm.map Prod.fst).nodup_iff.1 h
  apply Option.ext
  intro v
  rw [find?_eq_some_iff_mem h, find?_eq_some_iff_mem hu, hperm.mem_iff]

/-! ### Distinct members -/

theorem nodup_distinct (xs : List α) : (distinct xs).Nodup := nodup_keys_ofRows _

theorem mem_distinct {xs : List α} {x : α} : x ∈ distinct xs ↔ x ∈ xs := by
  rw [distinct_eq_eraseDups, List.mem_eraseDups]

/-- Where a function tells members apart, it leaves them distinct. -/
theorem distinct_map_of_injective {γ : Type} [DecidableEq γ] {f : α → γ}
    (hf : Function.Injective f) (xs : List α) : distinct (xs.map f) = (distinct xs).map f := by
  simp only [distinct_eq_eraseDups]
  induction xs using List.reverseRecOn with
  | nil => rfl
  | append_singleton xs x ih =>
    rw [List.map_append, List.map_singleton, eraseDups_concat, eraseDups_concat, ih]
    by_cases hx : x ∈ xs
    · rw [if_pos hx, if_pos (List.mem_map_of_mem hx)]
    · have hfx : f x ∉ xs.map f := fun h => hx ((List.mem_map_of_injective hf).1 h)
      rw [if_neg hx, if_neg hfx, List.map_append, List.map_singleton]

/-- A list without repetitions is left as it is. -/
theorem distinct_of_nodup {xs : List α} (h : xs.Nodup) : distinct xs = xs := by
  rw [distinct_eq_eraseDups]
  induction xs using List.reverseRecOn with
  | nil => rfl
  | append_singleton xs x ih =>
    obtain ⟨hxs, -, hx⟩ := List.nodup_append.1 h
    rw [eraseDups_concat, if_neg (fun hmem => hx x hmem x (List.mem_singleton.2 rfl) rfl), ih hxs]

/-! ### Gathering under keys -/

/-- Gathers `xs` in lists, each under its key. -/
def grouped (key : γ → α) (xs : List γ) : Table α (List γ) :=
  xs.foldl (fun groups x => groups.append (key x) x) []

theorem grouped_concat (key : γ → α) (xs : List γ) (x : γ) :
    grouped key (xs ++ [x]) = (grouped key xs).append (key x) x := by
  simp [grouped]

theorem find?_append (t : Table α (List β)) (k k' : α) (v : β) :
    find? (t.append k' v) k =
      if k' = k then some ((find? t k).getD [] ++ [v]) else find? t k := by
  rw [append, find?_put]
  by_cases h : k' = k
  · rw [if_pos h, if_pos h, h]
  · rw [if_neg h, if_neg h]

/-- A key has all that was gathered under it, in order, and no list if there is nothing. -/
theorem find?_grouped (key : γ → α) (xs : List γ) (k : α) :
    find? (grouped key xs) k =
      if (xs.filter (key · = k)).isEmpty then none else some (xs.filter (key · = k)) := by
  induction xs using List.reverseRecOn with
  | nil => rfl
  | append_singleton xs x ih =>
    rw [grouped_concat, find?_append, ih, List.filter_append]
    by_cases h : key x = k
    · cases hxs : xs.filter (key · = k) <;> simp [h]
    · simp [h]

theorem getD_find?_grouped (key : γ → α) (xs : List γ) (k : α) :
    (find? (grouped key xs) k).getD [] = xs.filter (key · = k) := by
  rw [find?_grouped]
  cases h : xs.filter (key · = k) <;> simp

end Table

end StakeSnapshot
