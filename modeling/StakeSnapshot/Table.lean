/-!
# Tables in order of first insertion

A table is a list of keys with values. Putting a key that is already there replaces its value and
leaves it in its place, so the keys stay in order of first appearance and do not repeat. Looking a
key up after `put` and `putAll` gives the value that was put last.
-/

namespace StakeSnapshot

/-- Keys with their values, in order of first appearance. -/
abbrev Table (α β : Type) := List (α × β)

namespace Table
variable {α β : Type}

/-- The keys in order of first appearance. -/
def keys (t : Table α β) : List α := t.map Prod.fst

/-- The values in the order of their keys. -/
def values (t : Table α β) : List β := t.map Prod.snd

@[simp] theorem keys_nil : keys ([] : Table α β) = [] := rfl

@[simp] theorem keys_cons (row : α × β) (t : Table α β) :
    keys (row :: t) = row.1 :: keys t := rfl

variable [DecidableEq α]

/-- The table with `v` under `k`: in the place of the old value, or at the end. -/
def put : Table α β → α → β → Table α β
  | [], k, v => [(k, v)]
  | (k', v') :: t, k, v => if k' = k then (k', v) :: t else (k', v') :: put t k v

/-- The value under a key. -/
def find? : Table α β → α → Option β
  | [], _ => none
  | (k', v) :: t, k => if k' = k then some v else find? t k

/-- The table without a key. -/
def erase : Table α β → α → Table α β
  | [], _ => []
  | (k', v) :: t, k => if k' = k then t else (k', v) :: erase t k

/-- Puts one row after the other. -/
def putAll (t : Table α β) (rows : List (α × β)) : Table α β :=
  rows.foldl (fun t row => t.put row.1 row.2) t

/-- The table of the given rows; the last row of a key decides its value. -/
def ofRows (rows : List (α × β)) : Table α β := putAll [] rows

/-- Appends `v` to the list under `k`. -/
def append (t : Table α (List β)) (k : α) (v : β) : Table α (List β) :=
  t.put k ((t.find? k).getD [] ++ [v])

/-- The distinct members of a list, in order of first appearance. -/
def distinct (xs : List α) : List α := (ofRows (xs.map fun x => (x, ()))).keys

/-! ### Looking up -/

@[simp] theorem find?_nil (k : α) : find? ([] : Table α β) k = none := rfl

@[simp] theorem find?_cons_self (k : α) (v : β) (t : Table α β) :
    find? ((k, v) :: t) k = some v := by simp [find?]

theorem find?_cons_of_ne {k k' : α} (h : k' ≠ k) (v : β) (t : Table α β) :
    find? ((k', v) :: t) k = find? t k := by simp [find?, h]

@[simp] theorem find?_put_self (t : Table α β) (k : α) (v : β) :
    find? (t.put k v) k = some v := by
  induction t with
  | nil => simp [put]
  | cons row t ih =>
    by_cases h : row.1 = k
    · simp [put, h]
    · simp [put, find?, h, ih]

theorem find?_put_of_ne {k k' : α} (h : k' ≠ k) (t : Table α β) (v : β) :
    find? (t.put k' v) k = find? t k := by
  induction t with
  | nil => simp [put, find?, h]
  | cons row t ih =>
    by_cases hr : row.1 = k'
    · simp [put, find?, hr, h]
    · simp [put, find?, hr, ih]

theorem find?_put (t : Table α β) (k k' : α) (v : β) :
    find? (t.put k' v) k = if k' = k then some v else find? t k := by
  by_cases h : k' = k
  · subst h; simp
  · simp [h, find?_put_of_ne h]

theorem find?_erase_of_ne {k k' : α} (h : k' ≠ k) (t : Table α β) :
    find? (t.erase k') k = find? t k := by
  induction t with
  | nil => rfl
  | cons row t ih =>
    by_cases hr : row.1 = k'
    · simp [erase, find?, hr, h]
    · simp [erase, find?, hr, ih]

/-! ### Keys -/

theorem mem_keys_iff (t : Table α β) (k : α) : k ∈ t.keys ↔ (find? t k).isSome := by
  induction t with
  | nil => simp
  | cons row t ih =>
    by_cases h : row.1 = k
    · simp [find?, h]
    · simp [find?, h, ih, Ne.symm h]

/-- Putting a key that is there leaves the keys as they are, any other key goes to the end. -/
theorem keys_put (t : Table α β) (k : α) (v : β) :
    (t.put k v).keys = if k ∈ t.keys then t.keys else t.keys ++ [k] := by
  induction t with
  | nil => simp [put]
  | cons row t ih =>
    by_cases h : row.1 = k
    · simp [put, h]
    · by_cases hk : k ∈ keys t <;> simp [put, h, Ne.symm h, ih, hk]

theorem nodup_keys_put {t : Table α β} (h : t.keys.Nodup) (k : α) (v : β) :
    (t.put k v).keys.Nodup := by
  rw [keys_put]
  split
  · exact h
  · next hk =>
    refine List.nodup_append.2 ⟨h, by simp, ?_⟩
    rintro a ha b hb rfl
    exact hk (by simp_all)

theorem nodup_keys_putAll {t : Table α β} (h : t.keys.Nodup) (rows : List (α × β)) :
    (t.putAll rows).keys.Nodup := by
  induction rows generalizing t with
  | nil => exact h
  | cons row rows ih => exact ih (nodup_keys_put h row.1 row.2)

/-- The keys of a table of rows do not repeat. -/
theorem nodup_keys_ofRows (rows : List (α × β)) : (ofRows rows).keys.Nodup :=
  nodup_keys_putAll (by simp) rows

end Table

end StakeSnapshot
