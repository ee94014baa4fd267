import StakeSnapshot.Proofs.Lookups
import StakeSnapshot.Proofs.Table
import StakeSnapshot.Proofs.Value

/-!
# Lookups over rows

Rows that were stored are looked up by what their addresses are compared as. Where they are rows of
nodes and minipools, the lookups are those over the nodes and minipools (`RowLookups.ofRows_row`).
Of any rows, the keys of validators are told apart, and those that are texts are the ones that the
rows have (`RowLookups.nodup_pubkeys`, `RowLookups.text_mem_pubkeys_iff`).
-/

namespace StakeSnapshot

/-! ### Tables with other keys and values -/

namespace Table
variable {α β γ δ ε : Type} [DecidableEq α] [DecidableEq γ] {f : α → γ}

/-- The rows of a table with other keys and values. -/
def mapRows (f : α → γ) (g : β → δ) (t : Table α β) : Table γ δ := t.map (Prod.map f g)

section
variable (hf : Function.Injective f)
include hf

theorem mapRows_put (g : β → δ) (t : Table α β) (k : α) (v : β) :
    mapRows f g (t.put k v) = (mapRows f g t).put (f k) (g v) := by
  induction t with
  | nil => rfl
  | cons row t ih =>
    obtain ⟨k', v'⟩ := row
    by_cases h : k' = k
    · rw [put, if_pos h, h]
      exact (if_pos rfl).symm
    · rw [put, if_neg h]
      exact (congrArg ((f k', g v') :: ·) ih).trans (if_neg (hf.ne h)).symm

theorem find?_mapRows (g : β → δ) (t : Table α β) (k : α) :
    find? (mapRows f g t) (f k) = (find? t k).map g := by
  induction t with
  | nil => rfl
  | cons row t ih =>
    obtain ⟨k', v'⟩ := row
    by_cases h : k' = k
    · rw [h, find?_cons_self]
      exact find?_cons_self (f k) (g v') (mapRows f g t)
    · rw [find?_cons_of_ne h]
      exact (find?_cons_of_ne (hf.ne h) (g v') (mapRows f g t)).trans ih

theorem mapRows_ofRows (g : β → δ) (rows : List (α × β)) :
    mapRows f g (ofRows rows) = ofRows (rows.map (Prod.map f g)) := by
  induction rows using List.reverseRecOn with
  | nil => rfl
  | append_singleton rows row ih =>
    rw [List.map_append, List.map_singleton, ofRows_concat, ofRows_concat, mapRows_put hf, ih]
    rfl

/-- Groups with other keys are groups of other members. -/
theorem mapRows_grouped {key : β → α} {g : β → δ} {key' : δ → γ} (h : ∀ x, key' (g x) = f (key x))
    (xs : List β) : mapRows f (List.map g) (grouped key xs) = grouped key' (xs.map g) := by
  induction xs using List.reverseRecOn with
  | nil => rfl
  | append_singleton xs x ih =>
    rw [List.map_append, List.map_singleton, grouped_concat, grouped_concat, append, append,
      mapRows_put hf, ← ih, h, find?_mapRows hf]
    congr 1
    rw [List.map_append, List.map_singleton]
    cases find? (grouped key xs) (key x) <;> rfl

end

end Table

/-! ### Rows of nodes and minipools -/

/-- Lookups over nodes and minipools as lookups over their rows. -/
def Lookups.rows (l : Lookups) : RowLookups where
  nodeByAddress := l.nodeByAddress.mapRows .text Node.row
  minipoolByAddress := l.minipoolByAddress.mapRows .text Minipool.row
  minipoolsByNode := l.minipoolsByNode.mapRows .text (List.map Minipool.row)
  pubkeys := l.pubkeys.map .text

theorem Value.text_injective : Function.Injective text := fun _ _ => text.inj

namespace RowLookups

/-- A minipool with the keys of its row. -/
def keyedOf (m : Minipool) : Keyed := ⟨.text m.address, .text m.owner, .text m.pubkey, m.row⟩

theorem assigned_keyedOf (minipools : List Minipool) :
    assigned (minipools.map keyedOf) =
      (Table.distinct ((minipools.map (·.pubkey)).filter (· ≠ unassignedPubkey))).map .text := by
  have hrows : (minipools.map keyedOf).filter (fun r => r.row.pubkey ≠ .text unassignedPubkey) =
      (minipools.filter fun m => m.pubkey ≠ unassignedPubkey).map keyedOf := by
    rw [List.filter_map]
    congr 1
    refine List.filter_congr fun m _ => ?_
    simp [keyedOf, Minipool.row]
  have hkeys : (minipools.map (·.pubkey)).filter (· ≠ unassignedPubkey) =
      (minipools.filter fun m => m.pubkey ≠ unassignedPubkey).map (·.pubkey) := by
    rw [List.filter_map]
    rfl
  rw [assigned, hrows, hkeys]
  generalize minipools.filter (fun m => m.pubkey ≠ unassignedPubkey) = named
  have hmap : (named.map keyedOf).map (·.pubkey) = (named.map (·.pubkey)).map Value.text := by
    rw [List.map_map, List.map_map]
    rfl
  rw [hmap, Table.distinct_map_of_injective Value.text_injective, List.map_map]
  refine List.map_congr_left fun key _ => ?_
  -- the row that is found for a key has just this key
  rw [Function.comp_apply, List.find?_map]
  cases hfound : named.find? ((fun r => r.pubkey = .text key) ∘ keyedOf) with
  | none => rfl
  | some m => simpa [keyedOf, Minipool.row] using List.find?_some hfound

/-- Rows of nodes and minipools are indexed as the nodes and minipools are. -/
theorem ofRows_row (nodes : List Node) (minipools : List Minipool) :
    ofRows (nodes.map Node.row) (minipools.map Minipool.row) =
      .ok (Lookups.ofRows nodes minipools).rows := by
  have hnodes : (nodes.map Node.row).mapM keyedNode =
      .ok (nodes.map fun n => (.text n.address, n.row)) := by
    rw [List.mapM_map]
    exact List.mapM_pure
  have hminipools : (minipools.map Minipool.row).mapM keyed = .ok (minipools.map keyedOf) := by
    rw [List.mapM_map]
    exact List.mapM_pure
  -- the groups are made row by row in both, and the keys are all texts
  have hgroups : (minipools.map keyedOf).foldl
        (fun (groups : Table Value (List MinipoolRow)) m => groups.append m.owner m.row) [] =
      (Table.grouped (·.owner) minipools).mapRows Value.text (List.map Minipool.row) := by
    have howner : ∀ m : Minipool, m.row.owner = .text m.owner := fun _ => rfl
    rw [Table.mapRows_grouped Value.text_injective howner, Table.grouped, List.foldl_map,
      List.foldl_map]
    rfl
  rw [ofRows, hnodes, hminipools]
  change Except.ok (LookupsOf.mk _ _ _ _) = _
  rw [hgroups, assigned_keyedOf, Lookups.rows, Lookups.minipoolsByNode_ofRows]
  simp only [Lookups.ofRows, Table.mapRows_ofRows Value.text_injective, List.map_map]
  rfl

end RowLookups

/-- A snapshot with the rows of its nodes and minipools. -/
def Snapshot.rows (s : Snapshot) : RowSnapshot :=
  { s with
    nodes := s.nodes.map Node.row
    minipools := s.minipools.map Minipool.row
    lookups := Lookups.rows s.lookups }

/-- From its rows a snapshot is had back, and these are indexed as it is. -/
theorem Snapshot.Indexed.rows {s : Snapshot} (h : s.Indexed) :
    s.rows.typed? = some s ∧
      RowLookups.ofRows s.rows.nodes s.rows.minipools = .ok s.rows.lookups := by
  have hnodes : (s.nodes.map Node.row).mapM NodeRow.node? = some s.nodes := by
    rw [List.mapM_map]
    exact List.mapM_pure.trans (congrArg some (List.map_id _))
  have hminipools : (s.minipools.map Minipool.row).mapM MinipoolRow.minipool? = some s.minipools := by
    rw [List.mapM_map]
    exact List.mapM_pure.trans (congrArg some (List.map_id _))
  constructor
  · unfold SnapshotOf.typed? Snapshot.rows
    dsimp only
    rw [hnodes, hminipools]
    change some { s with lookups := Lookups.ofRows s.nodes s.minipools } = some s
    rw [← show s.lookups = _ from h]
  · unfold Snapshot.rows
    dsimp only
    rw [RowLookups.ofRows_row, ← show s.lookups = _ from h]

namespace RowLookups

/-! ### Rows of any kind -/

/-- Nothing else is compared as a value. -/
def IsOwnKey (v : Value) : Prop := ∀ w : Value, w.keyForm = .ok v → w = v

/-- A key that is compared as a value other than an integer, a number or bytes is this value. -/
theorem eq_of_keyForm {v w : Value} (h : w.keyForm = .ok v) (hint : ∀ n, v ≠ .int n)
    (hfloat : ∀ x, v ≠ .float x) (hbytes : ∀ form octets, v ≠ .bytes form octets) : w = v := by
  cases w with
  | bool b => exact absurd (Except.ok.inj h).symm (hint _)
  | float x =>
    change Except.ok (x.toInt?.elim (Value.float x) Value.int) = _ at h
    cases hx : x.toInt? with
    | none =>
      rw [hx] at h
      exact absurd (Except.ok.inj h).symm (hfloat x)
    | some n =>
      rw [hx] at h
      exact absurd (Except.ok.inj h).symm (hint n)
  | bytes form octets =>
    cases form with
    | view => exact absurd (Except.ok.inj h).symm (hbytes _ _)
    | buffer => cases h
    | constant => exact Except.ok.inj h
  | list | record | raggedRecord => cases h
  | null | int | text | ragged => exact Except.ok.inj h

theorem isOwnKey_text (s : String) : IsOwnKey (.text s) :=
  fun _ h => eq_of_keyForm h (by rintro n ⟨⟩) (by rintro x ⟨⟩) (by rintro form octets ⟨⟩)

theorem isOwnKey_ragged (points : List CodePoint) : IsOwnKey (.ragged points) :=
  fun _ h => eq_of_keyForm h (by rintro n ⟨⟩) (by rintro x ⟨⟩) (by rintro form octets ⟨⟩)

theorem keyed_ok {row : MinipoolRow} {k : Keyed} (h : keyed row = .ok k) :
    k.row = row ∧ row.pubkey.keyForm = .ok k.pubkey := by
  obtain ⟨address, -, h⟩ := Except.ok_of_bind h
  obtain ⟨owner, -, h⟩ := Except.ok_of_bind h
  obtain ⟨pubkey, hpubkey, h⟩ := Except.ok_of_bind h
  cases h
  exact ⟨rfl, hpubkey⟩

/-- The rows have what their keys are compared as. -/
def Compared (rows : List Keyed) : Prop :=
  ∀ r ∈ rows, r.row.pubkey.keyForm = .ok r.pubkey

/-- The first row with a key has a key of its own that is compared as this one. -/
theorem exists_first {rows : List Keyed} {key : Value} (h : key ∈ Table.distinct (rows.map (·.pubkey))) :
    ∃ r ∈ rows, r.pubkey = key ∧
      ((rows.find? fun r => r.pubkey = key).map (·.row.pubkey)).getD key = r.row.pubkey := by
  obtain ⟨r, hr, hkey⟩ := List.mem_map.1 (Table.mem_distinct.1 h)
  cases hfound : rows.find? fun r => r.pubkey = key with
  | none => exact absurd hkey (by simpa using List.find?_eq_none.1 hfound r hr)
  | some first =>
    have hfirst := List.find?_some hfound
    exact ⟨first, List.mem_of_find?_eq_some hfound, of_decide_eq_true hfirst, rfl⟩

theorem nodup_assigned {rows : List Keyed} (h : Compared rows) : (assigned rows).Nodup := by
  refine List.Nodup.map_on (fun key hkey key' hkey' heq => ?_) (Table.nodup_distinct _)
  obtain ⟨r, hr, rfl, hfirst⟩ := exists_first hkey
  obtain ⟨r', hr', rfl, hfirst'⟩ := exists_first hkey'
  have hform := h r (List.mem_filter.1 hr).1
  have hform' := h r' (List.mem_filter.1 hr').1
  rw [← hfirst, heq, hfirst', hform'] at hform
  exact (Except.ok.inj hform).symm

theorem exists_of_mem_assigned {rows : List Keyed} {v : Value} (h : v ∈ assigned rows) :
    (∃ r ∈ rows, r.row.pubkey = v) ∧ v ≠ .text unassignedPubkey := by
  obtain ⟨key, hkey, heq⟩ := List.mem_map.1 h
  obtain ⟨r, hr, -, hfirst⟩ := exists_first hkey
  obtain ⟨hr, hassigned⟩ := List.mem_filter.1 hr
  rw [hfirst] at heq
  exact ⟨⟨r, hr, heq⟩, heq ▸ of_decide_eq_true hassigned⟩

theorem mem_assigned {rows : List Keyed} (h : Compared rows) {r : Keyed} (hr : r ∈ rows)
    (hown : IsOwnKey r.row.pubkey) (hform : r.row.pubkey.keyForm = .ok r.row.pubkey)
    (hassigned : r.row.pubkey ≠ .text unassignedPubkey) : r.row.pubkey ∈ assigned rows := by
  have hkey : r.pubkey = r.row.pubkey := Except.ok.inj ((h r hr).symm.trans hform)
  have hmem : r ∈ rows.filter fun r => r.row.pubkey ≠ .text unassignedPubkey :=
    List.mem_filter.2 ⟨hr, decide_eq_true hassigned⟩
  have hdistinct := Table.mem_distinct.2 (List.mem_map_of_mem (f := (·.pubkey)) hmem)
  obtain ⟨first, hfirst, hsame, hget⟩ := exists_first hdistinct
  refine List.mem_map.2 ⟨_, hdistinct, hget.trans (hown _ ?_)⟩
  -- the first row with the key has one that is compared as it
  rw [h first (List.mem_filter.1 hfirst).1, hsame, hkey]

section
variable {nodes : List NodeRow} {minipools : List MinipoolRow} {lookups : RowLookups}

theorem compared_of_keyed {rows : List Keyed}
    (h : List.Forall₂ (fun row k => keyed row = .ok k) minipools rows) :
    Compared rows ∧ rows.map (·.row) = minipools := by
  induction h with
  | nil => exact ⟨fun r hr => (nomatch hr), rfl⟩
  | cons hrow _ ih =>
    obtain ⟨rfl, hpubkey⟩ := keyed_ok hrow
    exact ⟨List.forall_mem_cons.2 ⟨hpubkey, ih.1⟩, congrArg _ ih.2⟩

theorem pubkeys_ok (h : ofRows nodes minipools = .ok lookups) :
    ∃ rows, Compared rows ∧ rows.map (·.row) = minipools ∧ lookups.pubkeys = assigned rows := by
  obtain ⟨_, -, h⟩ := Except.ok_of_bind h
  obtain ⟨rows, hrows, h⟩ := Except.ok_of_bind h
  cases h
  obtain ⟨hcompared, hminipools⟩ := compared_of_keyed (forall₂_of_mapM hrows)
  exact ⟨rows, hcompared, hminipools, rfl⟩

/-- The keys to ask for do not repeat. -/
theorem nodup_pubkeys (h : ofRows nodes minipools = .ok lookups) : lookups.pubkeys.Nodup := by
  obtain ⟨rows, hrows, -, hpubkeys⟩ := pubkeys_ok h
  rw [hpubkeys]
  exact nodup_assigned hrows

/-- The texts among the keys to ask for are those of the rows, except for the text of no key. -/
theorem text_mem_pubkeys_iff (h : ofRows nodes minipools = .ok lookups) {key : String} :
    .text key ∈ lookups.pubkeys ↔
      (∃ row ∈ minipools, row.pubkey = .text key) ∧ key ≠ unassignedPubkey := by
  obtain ⟨rows, hrows, hminipools, hpubkeys⟩ := pubkeys_ok h
  rw [hpubkeys, ← hminipools]
  simp only [List.mem_map, exists_exists_and_eq_and]
  constructor
  · intro hmem
    obtain ⟨hrow, hassigned⟩ := exists_of_mem_assigned hmem
    exact ⟨hrow, fun heq => hassigned (congrArg Value.text heq)⟩
  · rintro ⟨⟨r, hr, hkey⟩, hassigned⟩
    rw [← hkey]
    refine mem_assigned hrows hr ?_ ?_ ?_ <;> rw [hkey]
    · exact isOwnKey_text key
    · rfl
    · exact fun heq => hassigned (Value.text.inj heq)

/-- A key with a lone surrogate is asked for as well. -/
theorem ragged_mem_pubkeys (h : ofRows nodes minipools = .ok lookups) {row : MinipoolRow}
    (hrow : row ∈ minipools) {points : List CodePoint} (hkey : row.pubkey = .ragged points) :
    .ragged points ∈ lookups.pubkeys := by
  obtain ⟨rows, hrows, rfl, hpubkeys⟩ := pubkeys_ok h
  obtain ⟨r, hr, rfl⟩ := List.mem_map.1 hrow
  rw [hpubkeys, ← hkey]
  refine mem_assigned hrows hr ?_ ?_ ?_ <;> rw [hkey]
  · exact isOwnKey_ragged points
  · rfl
  · rintro ⟨⟩

end

end RowLookups

end StakeSnapshot
