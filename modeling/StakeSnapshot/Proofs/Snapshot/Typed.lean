import StakeSnapshot.Proofs.Snapshot.Pinning
import StakeSnapshot.Proofs.Store.Genuine

/-!
# Snapshots of nodes and minipools

The rows of a snapshot are nodes and minipools if the chain answers with values of the types that its
functions declare, and if no list of other rows is in the store (`Sources.exists_typed`). Such a list
has to be put there from outside: what a snapshot stores before its lists are read is none, not even
where it is found under the key of another reading.
-/

namespace StakeSnapshot

open Reads
open Store (StoredReading)
open ChainReader (rowsOf rowsOf_list_map)

/-- The chain answers with values of the types that its functions declare: the addresses are texts, and
the keys of validators are bytes. -/
structure Outside.Declared (out : Outside) : Prop where
  addresses : out.Addresses Value.IsWholeText
  pubkeys : ∀ history c v, c.function = Contracts.ViewFunction.minipoolPubkey.name →
    out.chain history c = .ok v → ∃ form octets, v = .bytes form octets

/-- A row is that of a node. -/
def NodeRow.Typed (row : NodeRow) : Prop := ∃ n, row.node? = some n

/-- A row is that of a minipool. -/
def MinipoolRow.Typed (row : MinipoolRow) : Prop := ∃ m, row.minipool? = some m

/-- If a value is a list of rows, these are rows of nodes or of minipools. -/
structure Value.RowsTyped (v : Value) : Prop where
  nodes : ∀ rows, rowsOf NodeRow.ofValue v = .ok rows → ∀ row ∈ rows, row.Typed
  minipools : ∀ rows, rowsOf MinipoolRow.ofValue v = .ok rows → ∀ row ∈ rows, row.Typed

/-- The lists in a store have rows of nodes and minipools. -/
structure Store.RowsTyped (store : Store) : Prop where
  nodes : ∀ storage block v,
    store.load (StoredReading.nodes storage block).key = .ok (some v) → v.RowsTyped
  minipools : ∀ storage block v,
    store.load (StoredReading.minipools storage block).key = .ok (some v) → v.RowsTyped

/-- Work on a list has a result if it has one for each element. -/
theorem exists_mapM_eq_some {α β : Type} {f : α → Option β} {xs : List α}
    (h : ∀ x ∈ xs, ∃ y, f x = some y) : ∃ ys, xs.mapM f = some ys := by
  induction xs with
  | nil => exact ⟨[], rfl⟩
  | cons x xs ih =>
    obtain ⟨y, hy⟩ := h x List.mem_cons_self
    obtain ⟨ys, hys⟩ := ih fun z hz => h z (List.mem_cons_of_mem x hz)
    exact ⟨y :: ys, by rw [List.mapM_cons, hy, hys]; rfl⟩

/-! ### What is stored -/

theorem Store.rowsTyped_empty : Store.empty.RowsTyped := ⟨nofun, nofun⟩

theorem Value.rowsTyped_blockForm (n : Int) : (Value.record [("block", .int n)]).RowsTyped where
  nodes _ h := by
    change Except.error _ = _ at h
    cases h
  minipools _ h := by
    change Except.error _ = _ at h
    cases h

theorem MinipoolRow.ofValue_nodeRow (row : NodeRow) :
    ∃ fault, MinipoolRow.ofValue row.toValue = .error fault := ⟨_, rfl⟩

theorem NodeRow.ofValue_minipoolRow (row : MinipoolRow) :
    ∃ fault, NodeRow.ofValue row.toValue = .error fault := ⟨_, rfl⟩

/-- Rows of another kind cannot be read back, so that there are none. -/
theorem ChainReader.eq_nil_of_rowsOf {α β : Type} {ofValue : Value → Except Fault β}
    {toValue : α → Value} (hother : ∀ a, ∃ fault, ofValue (toValue a) = .error fault) {xs : List α}
    {rows : List β} (h : rowsOf ofValue (.list (xs.map toValue)) = .ok rows) : rows = [] := by
  cases xs with
  | nil =>
    cases h
    rfl
  | cons x xs =>
    obtain ⟨fault, hfault⟩ := hother x
    change (toValue x :: xs.map toValue).mapM ofValue = .ok rows at h
    rw [List.mapM_cons, hfault] at h
    cases h

theorem Value.rowsTyped_nodes {rows : List NodeRow} (h : ∀ row ∈ rows, row.Typed) :
    (Value.list (rows.map NodeRow.toValue)).RowsTyped where
  nodes found hfound := by
    rw [rowsOf_list_map NodeRow.ofValue_toValue] at hfound
    cases hfound
    exact h
  minipools found hfound := by
    rw [ChainReader.eq_nil_of_rowsOf MinipoolRow.ofValue_nodeRow hfound]
    exact fun row hrow => absurd hrow List.not_mem_nil

theorem Value.rowsTyped_minipools {rows : List MinipoolRow} (h : ∀ row ∈ rows, row.Typed) :
    (Value.list (rows.map MinipoolRow.toValue)).RowsTyped where
  nodes found hfound := by
    rw [ChainReader.eq_nil_of_rowsOf NodeRow.ofValue_minipoolRow hfound]
    exact fun row hrow => absurd hrow List.not_mem_nil
  minipools found hfound := by
    rw [rowsOf_list_map MinipoolRow.ofValue_toValue] at hfound
    cases hfound
    exact h

namespace Store

variable {store : Store} {v : Value}

/-- What is found after storing has been stored, or was found before. -/
theorem eq_or_load_of_load_set {q p : StoredReading} (hv : v.Regular) {w : Value}
    (h : (store.set q.key v).load p.key = .ok (some w)) :
    w = v ∨ store.load p.key = .ok (some w) := by
  by_cases hkey : q.key = p.key
  · rw [← hkey] at h ⊢
    have hcases : (store.set q.key v).load q.key = .ok v.nonNull? ∨
        (store.set q.key v).load q.key = store.load q.key :=
      load_set_cases (takes_key q.kind q.parts) hv
    rcases hcases with hload | hload
    · rw [hload] at h
      refine .inl ?_
      cases v <;> cases h <;> rfl
    · exact .inr (hload.symm.trans h)
  · rw [load_set_of_ne hkey] at h
    exact .inr h

theorem RowsTyped.set (h : store.RowsTyped) (q : StoredReading) (hv : v.Regular)
    (htyped : v.RowsTyped) : (store.set q.key v).RowsTyped where
  nodes storage block w hw := by
    rcases eq_or_load_of_load_set hv hw with rfl | hw
    · exact htyped
    · exact h.nodes storage block w hw
  minipools storage block w hw := by
    rcases eq_or_load_of_load_set hv hw with rfl | hw
    · exact htyped
    · exact h.minipools storage block w hw

end Store

/-! ### What is read -/

variable {out : Outside} {e : BeaconEndpoint} {r : ChainReader} {block : Value} {s t : Session}

/-- A block that is read leaves the lists in the store as they are. -/
theorem BeaconEndpoint.rowsTyped_of_block {slot : Int} (hs : s.store.RowsTyped)
    (h : e.block out slot s = .ok block t) : t.store.RowsTyped := by
  rw [block_eq_kept] at h
  have hend := keptEnd e.useStore (.block e.base slot) (·.field "block") blockForm?
    (e.freshBlock out slot) s
  have hstore := e.moves_freshBlock out slot (Session.admits_sameStore fun _ => True) trivial
  rw [h] at hend
  generalize hended : EStateM.Result.ok block t = x at hend
  cases hend with
  | barred | failed | refused => cases hended
  | unused =>
    have hsame : t.store = s.store := hstore.of_ok hended.symm
    rwa [hsame]
  | stored =>
    obtain ⟨-, rfl⟩ := Sources.ok_of_ended hended.symm
    exact ⟨hs.nodes, hs.minipools⟩
  | formless _ _ hfresh =>
    cases hended
    have hsame : t.store = s.opened.store := hstore.of_ok hfresh
    rw [hsame]
    exact ⟨hs.nodes, hs.minipools⟩
  | @formed _ v u _ _ hfresh hform =>
    cases hended
    have hsame : u.store = s.opened.store := hstore.of_ok hfresh
    have hopened : u.store.RowsTyped := by
      rw [hsame]
      exact ⟨hs.nodes, hs.minipools⟩
    have hnull : block ≠ .null := by
      rintro rfl
      cases hform
    -- the key of the block may be that of a list to the store, but what is stored is no list
    obtain ⟨n, rfl⟩ := int_of_freshBlock hfresh hnull
    cases hform
    dsimp only
    exact hopened.set (.block e.base slot) (regular_blockForm n) (Value.rowsTyped_blockForm n)

/-- A list that is read has rows of the right kind, if the fresh ones and the stored ones have, and so
have the lists in the store afterwards. -/
theorem ChainReader.typed_of_storedList {α : Type} {q : StoredReading}
    {ofValue : Value → Except Fault α} {toValue : α → Value} {fresh : Reads (List α)} {P : α → Prop}
    (hs : r.useStore = true → s.store.RowsTyped)
    (hstored : ∀ v rows, s.store.RowsTyped → s.store.load q.key = .ok (some v) →
      rowsOf ofValue v = .ok rows → ∀ row ∈ rows, P row)
    (hsame : Moves Session.SameStore fresh)
    (hfresh : ∀ {s t rows}, fresh s = .ok rows t → ∀ row ∈ rows, P row ∧ (toValue row).Regular)
    (hrows : ∀ {rows : List α}, (∀ row ∈ rows, P row) → (Value.list (rows.map toValue)).RowsTyped)
    {rows : List α} (h : r.storedList q ofValue toValue fresh s = .ok rows t) :
    (∀ row ∈ rows, P row) ∧ (r.useStore = true → t.store.RowsTyped) := by
  rw [storedList_eq_kept] at h
  have hend := keptEnd r.useStore q (rowsOf ofValue) (fun rows => some (.list (rows.map toValue)))
    fresh s
  rw [h] at hend
  generalize hended : EStateM.Result.ok rows t = x at hend
  cases hend with
  | barred | failed | refused => cases hended
  | unused _ huse =>
    refine ⟨fun row hrow => (hfresh hended.symm row hrow).1, fun huse' => ?_⟩
    cases huse.symm.trans huse'
  | stored huse hlook =>
    obtain ⟨hread, rfl⟩ := Sources.ok_of_ended hended.symm
    have hs := hs huse
    exact ⟨hstored _ _ hs (Store.load_of_look hlook) hread, fun _ => ⟨hs.nodes, hs.minipools⟩⟩
  | formless _ _ _ hform => cases hform
  | @formed _ _ u huse _ hwork hform =>
    cases hended
    cases hform
    have hall := hfresh hwork
    have hs := hs huse
    -- the work itself stores nothing, so that the list is put into the store of before
    have hstore : u.store = s.opened.store := hsame.of_ok hwork
    have hopened : u.store.RowsTyped := by
      rw [hstore]
      exact ⟨hs.nodes, hs.minipools⟩
    refine ⟨fun row hrow => (hall row hrow).1, fun _ => ?_⟩
    dsimp only
    exact hopened.set q (regular_list_map fun row hrow => (hall row hrow).2)
      (hrows fun row hrow => (hall row hrow).1)

section
variable (hout : out.Declared)
include hout

theorem ChainReader.typed_of_freshNodes {rows : List NodeRow}
    (h : r.freshNodes out block s = .ok rows t) :
    ∀ row ∈ rows, row.Typed ∧ row.toValue.Regular := by
  intro row hrow
  obtain ⟨heard, hheard, hlist⟩ := freshNodes_hears h
  have hmade := hlist.made hheard hout.addresses row hrow
  obtain ⟨address, haddress⟩ := hmade.address
  obtain ⟨stake, hstake⟩ := hmade.stake
  obtain ⟨registered, hregistered⟩ := hmade.registered
  refine ⟨⟨⟨address, stake, registered⟩, ?_⟩,
    (hlist.made hheard hout.addresses.isText row hrow).regular_toValue⟩
  rw [NodeRow.node?, haddress, hstake, hregistered]
  rfl

/-- The key of a minipool is a text, since the chain answers with bytes. -/
theorem ChainReader.MinipoolsHeard.exists_pubkey {rows : List MinipoolRow} {heard : List Exchange}
    (hrows : r.MinipoolsHeard block rows heard) (h : s.Hears out heard t) :
    ∀ row ∈ rows, ∃ key, row.pubkey = .text key := by
  intro row hrow
  obtain ⟨manager, resolved, list, rfl, -, hlist⟩ := hrows
  obtain ⟨-, about, habout, key, present, status, borrowed, bonded, n, k, rfl, hkey, -⟩ :=
    hlist.of_mem hrow
  obtain ⟨history, hanswer⟩ := h.exchanges.answered _
    (List.mem_append_right resolved (habout (List.mem_cons_of_mem _ List.mem_cons_self)))
  obtain ⟨form, octets, rfl⟩ := hout.pubkeys history _ key rfl hanswer
  obtain ⟨spelled, -, hspelled⟩ := Except.map_eq_ok_iff.1 hkey
  exact ⟨spelled, hspelled.symm⟩

theorem ChainReader.typed_of_freshMinipools {rows : List MinipoolRow}
    (h : r.freshMinipools out block s = .ok rows t) :
    ∀ row ∈ rows, row.Typed ∧ row.toValue.Regular := by
  intro row hrow
  obtain ⟨heard, hheard, hlist⟩ := freshMinipools_hears h
  have hmade := hlist.made hheard hout.addresses row hrow
  obtain ⟨address, haddress⟩ := hmade.address
  obtain ⟨owner, howner⟩ := hmade.owner
  obtain ⟨pubkey, hpubkey⟩ := hlist.exists_pubkey hout hheard row hrow
  obtain ⟨borrowed, hborrowed⟩ := hmade.borrowed
  obtain ⟨bonded, hbonded⟩ := hmade.bonded
  refine ⟨⟨⟨address, owner, pubkey, row.present.truth, row.status, borrowed, bonded⟩, ?_⟩,
    (hlist.made hheard hout.addresses.isText row hrow).regular_toValue⟩
  rw [MinipoolRow.minipool?, haddress, howner, hpubkey, hborrowed, hbonded]
  rfl

theorem ChainReader.typed_of_nodes {rows : List NodeRow} (h : r.nodes out block s = .ok rows t)
    (hs : r.useStore = true → s.store.RowsTyped) :
    (∀ row ∈ rows, row.Typed) ∧ (r.useStore = true → t.store.RowsTyped) :=
  typed_of_storedList hs (fun v rows hs hload => (hs.nodes _ _ v hload).nodes rows)
    (r.admitted_sameStore out block).moves_freshNodes (typed_of_freshNodes hout)
    Value.rowsTyped_nodes h

theorem ChainReader.typed_of_minipools {rows : List MinipoolRow}
    (h : r.minipools out block s = .ok rows t) (hs : r.useStore = true → s.store.RowsTyped) :
    (∀ row ∈ rows, row.Typed) ∧ (r.useStore = true → t.store.RowsTyped) :=
  typed_of_storedList hs (fun v rows hs hload => (hs.minipools _ _ v hload).minipools rows)
    (r.admitted_sameStore out block).moves_freshMinipools (typed_of_freshMinipools hout)
    Value.rowsTyped_minipools h

/-- A snapshot has rows of nodes and minipools if the chain answers with values of the types that its
functions declare, and the store, if it is used for the lists, has none with rows of other types. -/
theorem Sources.exists_typed {log : Logger} {slot : Int} {timing : ChainTiming} {rows : RowSnapshot}
    (hs : r.useStore = true → s.store.RowsTyped)
    (h : (ofReaders out e r).toldSnapshot log slot timing s = .ok rows t) :
    ∃ snap, rows.typed? = some snap := by
  obtain ⟨-, -, -, -, s₁, s₂, s₃, s₄, s₅, hblock, hparameters, hnodes, hminipools, -⟩ := snapshot_ok h
  have hs₁ : r.useStore = true → s₁.store.RowsTyped := fun huse =>
    BeaconEndpoint.rowsTyped_of_block (hs huse) hblock
  have hsame : s₂.store = s₁.store :=
    (moves_parameters out e r slot (r.admitted_sameStore out rows.block)).of_ok hparameters
  obtain ⟨u, hnodesRead, rfl⟩ :=
    ok_of_within (show within .nodes (r.nodes out rows.block) _ = _ from hnodes)
  obtain ⟨hnodeRows, hu⟩ :=
    ChainReader.typed_of_nodes hout hnodesRead fun huse => hsame ▸ hs₁ huse
  obtain ⟨v, hminipoolsRead, rfl⟩ :=
    ok_of_within (show within .minipools (r.minipools out rows.block) _ = _ from hminipools)
  obtain ⟨hminipoolRows, -⟩ := ChainReader.typed_of_minipools hout hminipoolsRead hu
  obtain ⟨nodes, hnodes⟩ := exists_mapM_eq_some hnodeRows
  obtain ⟨minipools, hminipools⟩ := exists_mapM_eq_some hminipoolRows
  exact ⟨_, by rw [SnapshotOf.typed?, hnodes, hminipools]; rfl⟩

end

/-! ### A chain with one node and one minipool -/

theorem declared_onlyOnes : onlyOnes.Declared where
  addresses history c v hc hv := by
    have hkey : c.function ≠ Contracts.ViewFunction.minipoolPubkey.name := by
      intro heq
      rw [heq] at hc
      revert hc
      decide
    simp only [onlyOnes, if_neg hkey] at hv
    cases hv
    exact ⟨"0x01", rfl⟩
  pubkeys history c v hc hv := by
    simp only [onlyOnes, if_pos hc] at hv
    cases hv
    exact ⟨.constant, [], rfl⟩

end StakeSnapshot
