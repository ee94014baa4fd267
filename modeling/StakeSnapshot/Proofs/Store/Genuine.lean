import StakeSnapshot.Proofs.Beacon.World
import StakeSnapshot.Proofs.Contracts.Exchange
import StakeSnapshot.Proofs.Contracts.World
import StakeSnapshot.Proofs.Json.RoundTrip
import StakeSnapshot.Proofs.Store.Readings

/-!
# What the store holds in a world that does not change

A value is genuine for a reading if it is the stored form of what the reading finds without the store
(`World.Genuine`). Readings whose keys have the same text share their genuine values, so a store with
genuine values keeps them when one more is stored (`Store.GenuineFor.set`). From such a store a reading
ends with the same result as without it (`ends_kept`).
-/

namespace StakeSnapshot

open Reads
open Store (StoredReading)

/-! ### Stored forms -/

theorem Value.IsText.regular {v : Value} (h : v.IsText) : v.Regular := by
  cases h with
  | text s => exact .text s
  | ragged points => exact .ragged points

theorem NodeRow.Made.regular_toValue {row : NodeRow} (h : row.Made Value.IsText) :
    row.toValue.Regular := by
  obtain ⟨n, hn⟩ := h.stake
  obtain ⟨k, hk⟩ := h.registered
  refine .record (by simp [Table.keys]) fun field hfield => ?_
  simp only [List.mem_cons, List.not_mem_nil, or_false, hn, hk] at hfield
  rcases hfield with rfl | rfl | rfl
  · exact h.address.regular
  · exact .int n
  · exact .int k

theorem MinipoolRow.Made.regular_toValue {row : MinipoolRow} (h : row.Made Value.IsText) :
    row.toValue.Regular := by
  obtain ⟨b, hb⟩ := h.present
  obtain ⟨n, hn⟩ := h.borrowed
  obtain ⟨k, hk⟩ := h.bonded
  refine .record (by simp [Table.keys]) fun field hfield => ?_
  simp only [List.mem_cons, List.not_mem_nil, or_false, hb, hn, hk] at hfield
  rcases hfield with rfl | rfl | rfl | rfl | rfl | rfl | rfl
  · exact h.address.regular
  · exact h.owner.regular
  · exact h.pubkey.regular
  · exact .bool b
  · exact .int _
  · exact .int n
  · exact .int k

theorem Value.IsText.depth {v : Value} (h : v.IsText) : v.depth = 0 := by
  cases h <;> rfl

theorem NodeRow.Made.depth_toValue {row : NodeRow} (h : row.Made Value.IsText) :
    row.toValue.depth ≤ 1 := by
  obtain ⟨n, hn⟩ := h.stake
  obtain ⟨k, hk⟩ := h.registered
  refine Value.depth_record_le_iff.2 ?_
  simp [h.address.depth, hn, hk, Value.depth]

theorem MinipoolRow.Made.depth_toValue {row : MinipoolRow} (h : row.Made Value.IsText) :
    row.toValue.depth ≤ 1 := by
  obtain ⟨b, hb⟩ := h.present
  obtain ⟨n, hn⟩ := h.borrowed
  obtain ⟨k, hk⟩ := h.bonded
  refine Value.depth_record_le_iff.2 ?_
  simp [h.address.depth, h.owner.depth, h.pubkey.depth, hb, hn, hk, Value.depth]

theorem regular_blockForm (n : Int) : (Value.record [("block", .int n)]).Regular := by
  refine .record (by simp [Table.keys]) fun field hfield => ?_
  rw [List.mem_singleton.1 hfield]
  exact .int n

theorem regular_list_map {α : Type} {toValue : α → Value} {rows : List α}
    (h : ∀ row ∈ rows, (toValue row).Regular) : (Value.list (rows.map toValue)).Regular :=
  .list (List.forall_mem_map.2 h)

theorem depth_list_map {α : Type} {toValue : α → Value} {rows : List α}
    (h : ∀ row ∈ rows, (toValue row).depth ≤ 1) :
    (Value.list (rows.map toValue)).depth ≤ Json.maxDepth := by
  refine Value.depth_list_le_iff.2 (List.forall_mem_map.2 fun row hrow => (h row hrow).trans ?_)
  decide

theorem ChainReader.rowsOf_list_map {α : Type} {ofValue : Value → Except Fault α}
    {toValue : α → Value} (h : ∀ a, ofValue (toValue a) = .ok a) (rows : List α) :
    rowsOf ofValue (.list (rows.map toValue)) = .ok rows := by
  change (rows.map toValue).mapM ofValue = .ok rows
  induction rows with
  | nil => rfl
  | cons a rows ih =>
    rw [List.map_cons, List.mapM_cons, h, ih]
    rfl

/-! ### Genuine values -/

/-- The stored form of what a reading finds without the store. -/
def World.Genuine (w : World) : StoredReading → Value → Prop
  | .block base slot, v =>
    ∃ n, v = .record [("block", .int n)] ∧ w.blockAt base slot = .ok (.int n)
  | .validators base slot batch, v => w.batchAt base slot batch = .ok v
  | .nodes storage block, v => ∃ rows : List NodeRow, v = .list (rows.map NodeRow.toValue) ∧
    Ends (Session.Knows w storage)
      (fun _ => ChainReader.freshNodes ⟨storage, false⟩ w.outside block) (.ok rows)
  | .minipools storage block, v => ∃ rows : List MinipoolRow,
    v = .list (rows.map MinipoolRow.toValue) ∧
    Ends (Session.Knows w storage)
      (fun _ => ChainReader.freshMinipools ⟨storage, false⟩ w.outside block) (.ok rows)

/-- Readings of the same text have the same genuine values. -/
theorem World.Genuine.of_text_eq {w : World} {p q : StoredReading} {v : Value} (hp : p.Plain)
    (hq : q.Plain) (h : p.text = q.text) (hv : w.Genuine p v) : w.Genuine q v := by
  have hkind := StoredReading.kind_eq_of_text_eq h
  have hparts := StoredReading.parts_eq_of_text_eq hp hq h
  cases p <;> cases q <;> try (simp [StoredReading.kind] at hkind; done)
  case validators.validators base slot batch base' slot' batch' =>
    simp only [StoredReading.parts, List.cons.injEq, and_true] at hparts
    obtain ⟨rfl, hslot, hjoined⟩ := hparts
    rw [Genuine, numberText_injective hslot] at hv
    rw [Genuine, ← w.batchAt_of_joined base slot' hjoined]
    exact hv
  case block.block base slot base' slot' =>
    simp only [StoredReading.parts, List.cons.injEq, and_true] at hparts
    obtain ⟨rfl, hslot⟩ := hparts
    rwa [numberText_injective hslot] at hv
  all_goals
    obtain ⟨n, rfl⟩ := hp
    obtain ⟨k, rfl⟩ := hq
    simp only [StoredReading.parts, List.cons.injEq, and_true, valueText_int] at hparts
    obtain ⟨rfl, hnumber⟩ := hparts
    rwa [numberText_injective hnumber] at hv

/-- What is found for the given readings, if anything is, is genuine. -/
def Store.GenuineFor (w : World) (readings : List StoredReading) (store : Store) : Prop :=
  ∀ q ∈ readings, ∃ v?, store.load q.key = .ok v? ∧ ∀ v, v? = some v → w.Genuine q v

/-- A genuine value that is stored leaves the others genuine, also where two readings share a key. -/
theorem Store.GenuineFor.set {w : World} {readings : List StoredReading} {store : Store}
    (h : store.GenuineFor w readings) (hsep : Store.Separates readings)
    (hplain : ∀ q ∈ readings, q.Plain) {q : StoredReading} (hq : q ∈ readings) {v : Value}
    (hv : w.Genuine q v) (hregular : v.Regular) : (store.set q.key v).GenuineFor w readings := by
  intro p hp
  by_cases hkey : q.key = p.key
  · rw [← hkey]
    have hcases : (store.set q.key v).load q.key = .ok v.nonNull? ∨
        (store.set q.key v).load q.key = store.load q.key :=
      Store.load_set_cases (Store.takes_key q.kind q.parts) hregular
    rcases hcases with hload | hload
    · refine ⟨v.nonNull?, hload, fun u hu => ?_⟩
      obtain rfl := Value.eq_of_nonNull? hu
      exact hv.of_text_eq (hplain q hq) (hplain p hp) (hsep q hq p hp hkey)
    · obtain ⟨v?, hv?, hgenuine⟩ := h p hp
      refine ⟨v?, hload.trans ?_, hgenuine⟩
      rw [← hv?]
      exact congrArg store.load hkey
  · rw [Store.load_set_of_ne hkey]
    exact h p hp

/-! ### Readings by way of a genuine store -/

variable {w : World} {storage : String} {readings : List StoredReading}

theorem exists_lookUp_genuine {q : StoredReading} (hq : q ∈ readings)
    (hkey : q.keyFault? = none) (useStore : Bool)
    {s : Session} (hs : s.Knows w storage (Store.GenuineFor w readings)) :
    ∃ v? t, lookUp useStore q s = .ok v? t ∧ t.Knows w storage (Store.GenuineFor w readings) ∧
      ∀ v, v? = some v → w.Genuine q v := by
  cases useStore with
  | false => exact ⟨none, s, lookUp_false hkey s, hs, by rintro v ⟨⟩⟩
  | true =>
    obtain ⟨v?, hload, hgenuine⟩ := hs.store q hq
    exact ⟨v?, _, lookUp_of_look ((Store.look_of_writable hkey).trans hload),
      ⟨hs.addresses, hs.store⟩, hgenuine⟩

section
variable (hsep : Store.Separates readings) (hplain : ∀ q ∈ readings, q.Plain)
include hsep hplain

theorem exists_remember_genuine {q : StoredReading} (hq : q ∈ readings) (useStore : Bool)
    {v : Value} (hv : w.Genuine q v) (hregular : v.Regular) (hdepth : v.depth ≤ Json.maxDepth)
    {s : Session} (hs : s.Knows w storage (Store.GenuineFor w readings)) :
    ∃ t, remember useStore q v s = .ok () t ∧
      t.Knows w storage (Store.GenuineFor w readings) := by
  cases useStore with
  | false => exact ⟨s, rfl, hs⟩
  | true =>
    refine ⟨_, remember_of_depth q hdepth s, hs.addresses, ?_⟩
    dsimp only
    exact hs.store.set hsep hplain hq hv hregular

/-- A reading by way of a genuine store ends with the result of the fresh work, whether the store is
used or not. -/
theorem ends_kept {α : Type} {q : StoredReading} (hq : q ∈ readings)
    {ofStored : Value → Except Fault α} {form? : α → Option Value} {fresh : Reads α}
    {result : Except Fault α} (hfresh : Ends (Session.Knows w storage) (fun _ => fresh) result)
    (hstored : ∀ v, w.Genuine q v → ofStored v = result)
    (hform : ∀ a v, result = .ok a → form? a = some v →
      w.Genuine q v ∧ v.Regular ∧ v.depth ≤ Json.maxDepth) :
    Ends (fun _ : Bool => Session.Knows w storage (Store.GenuineFor w readings))
      (fun useStore => kept useStore q ofStored form? fresh) (q.keyed result) := by
  intro useStore s hs
  dsimp only
  unfold StoredReading.keyed
  cases hkey : q.keyFault? with
  | some fault => exact ⟨s, kept_of_keyFault hkey useStore, hs⟩
  | none =>
  obtain ⟨v?, t, hlook, ht, hgenuine⟩ := exists_lookUp_genuine hq hkey useStore hs
  rw [kept, bind_of_ok hlook]
  cases v? with
  | some v =>
    rw [← hstored v (hgenuine v rfl)]
    exact ⟨t, Sources.lift_eq_ended _ t, ht⟩
  | none =>
    -- nothing is stored for the reading, or the store is not used
    obtain ⟨u, hwork, hu⟩ := hfresh _ t ht
    cases result with
    | error fault => exact ⟨u, bind_of_error hwork, hu⟩
    | ok a =>
      dsimp only
      rw [bind_of_ok hwork]
      cases hv : form? a with
      | none => exact ⟨u, rfl, hu⟩
      | some v =>
        obtain ⟨hv, hregular, hdepth⟩ := hform a v rfl hv
        obtain ⟨x, hremember, hx⟩ :=
          exists_remember_genuine hsep hplain hq useStore hv hregular hdepth hu
        exact ⟨x, bind_of_ok hremember, hx⟩

theorem ends_block (e : BeaconEndpoint) {slot : Int}
    (hq : .block e.base slot ∈ readings) :
    Ends (fun _ : Bool => Session.Knows w storage (Store.GenuineFor w readings))
      (fun useStore => BeaconEndpoint.block { e with useStore } w.outside slot)
      ((StoredReading.block e.base slot).keyed (w.blockAt e.base slot)) := by
  simp only [BeaconEndpoint.block_eq_kept]
  refine ends_kept hsep hplain hq (e.ends_freshBlock Session.Knows.asked slot) ?_ ?_
  · rintro v ⟨n, rfl, hn⟩
    exact hn.symm
  · intro a v ha hv
    rcases w.eq_null_or_int_of_blockAt e.base slot ha with rfl | ⟨n, rfl⟩
    · cases hv
    · cases hv
      exact ⟨⟨n, rfl, ha⟩, regular_blockForm n, BeaconEndpoint.depth_blockForm n⟩

theorem ends_batchValue (e : BeaconEndpoint) {slot : Int} {batch : List String}
    (hq : .validators e.base slot batch ∈ readings) :
    Ends (fun _ : Bool => Session.Knows w storage (Store.GenuineFor w readings))
      (fun useStore => BeaconEndpoint.batchValue { e with useStore } w.outside batch slot)
      ((StoredReading.validators e.base slot batch).keyed (w.batchAt e.base slot batch)) := by
  simp only [BeaconEndpoint.batchValue_eq_kept]
  refine ends_kept hsep hplain hq (e.ends_freshBatch Session.Knows.asked slot batch) ?_ ?_
  · exact fun v hv => hv.symm
  · intro a v ha hv
    cases hv
    have hv := Reply.decoded_of_data ha
    exact ⟨ha, hv.regular, hv.depth⟩

theorem steady_validators (e : BeaconEndpoint) {keys : List String} {slot : Int}
    (hq : ∀ batch ∈ BeaconEndpoint.batches e.batchSize (Table.distinct keys),
      .validators e.base slot batch ∈ readings) :
    Steady (fun _ : Bool => Session.Knows w storage (Store.GenuineFor w readings))
      (fun useStore => BeaconEndpoint.validators { e with useStore } w.outside keys slot) := by
  simp only [BeaconEndpoint.validators]
  refine .foldlM (fun batch hbatch found => ?_) []
  refine (ends_batchValue hsep hplain e (hq batch hbatch)).steady.bind fun data => ?_
  exact (Steady.lift data.items).bind fun entries =>
    .lift (BeaconEndpoint.addEntries found entries)

/-- A list that is stored is steady if the fresh list is, and its genuine values are the forms of the
fresh rows, which are kept in one way only and not too deep. -/
theorem steady_storedList {α : Type} (r : ChainReader) {q : StoredReading} (hq : q ∈ readings)
    {ofValue : Value → Except Fault α} {toValue : α → Value} {fresh : Reads (List α)}
    (hback : ∀ a, ofValue (toValue a) = .ok a)
    (hrows : ∀ {s t rows}, fresh s = .ok rows t →
      ∀ row ∈ rows, (toValue row).Regular ∧ (toValue row).depth ≤ 1)
    (hgenuine : ∀ v, w.Genuine q v ↔ ∃ rows : List α, v = .list (rows.map toValue) ∧
      Ends (Session.Knows w storage) (fun _ => fresh) (.ok rows))
    (hfresh : Steady (Session.Knows w storage) fun _ => fresh) :
    Steady (fun _ : Bool => Session.Knows w storage (Store.GenuineFor w readings))
      (fun useStore => ChainReader.storedList { r with useStore } q ofValue toValue fresh) := by
  obtain ⟨result, hresult⟩ := hfresh
  have hstart : (Session.start .empty).Knows w storage fun _ => True := .start .empty trivial
  refine ⟨q.keyed result, ?_⟩
  simp only [ChainReader.storedList_eq_kept]
  refine ends_kept hsep hplain hq hresult ?_ ?_
  · intro v hv
    obtain ⟨rows, rfl, hrows⟩ := (hgenuine v).1 hv
    rw [ChainReader.rowsOf_list_map hback]
    exact hrows.unique hresult hstart
  · rintro rows v rfl hv
    cases hv
    obtain ⟨t, hread, -⟩ := hresult _ _ hstart
    have hrows := hrows hread
    exact ⟨(hgenuine _).2 ⟨rows, rfl, hresult⟩, regular_list_map fun row hrow => (hrows row hrow).1,
      depth_list_map fun row hrow => (hrows row hrow).2⟩

variable (htexts : w.outside.Addresses Value.IsText)
include htexts

theorem steady_nodes (r : ChainReader) {block : Int}
    (hq : .nodes r.storage (.int block) ∈ readings) :
    Steady (fun _ : Bool => Session.Knows w r.storage (Store.GenuineFor w readings))
      (fun useStore => ChainReader.nodes { r with useStore } w.outside (.int block)) := by
  refine steady_storedList hsep hplain r hq NodeRow.ofValue_toValue (fun hread row hrow => ?_)
    (fun _ => Iff.rfl) (ChainReader.steady_freshNodes r block)
  obtain ⟨heard, hheard, hrows⟩ := ChainReader.freshNodes_hears hread
  have hmade := hrows.made hheard htexts row hrow
  exact ⟨hmade.regular_toValue, hmade.depth_toValue⟩

theorem steady_minipools (r : ChainReader) {block : Int}
    (hq : .minipools r.storage (.int block) ∈ readings) :
    Steady (fun _ : Bool => Session.Knows w r.storage (Store.GenuineFor w readings))
      (fun useStore => ChainReader.minipools { r with useStore } w.outside (.int block)) := by
  refine steady_storedList hsep hplain r hq MinipoolRow.ofValue_toValue (fun hread row hrow => ?_)
    (fun _ => Iff.rfl) (ChainReader.steady_freshMinipools r block)
  obtain ⟨heard, hheard, hrows⟩ := ChainReader.freshMinipools_hears hread
  have hmade := hrows.made hheard htexts row hrow
  exact ⟨hmade.regular_toValue, hmade.depth_toValue⟩

end

end StakeSnapshot
