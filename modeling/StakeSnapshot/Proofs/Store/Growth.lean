import Mathlib.Logic.Relation
import StakeSnapshot.Proofs.Beacon.Batches
import StakeSnapshot.Proofs.Effects
import StakeSnapshot.Proofs.Store.Transparency

/-!
# What stays in the store

Whatever is done over a store, by any readers and with any answers, a value that is stored stays
(`Store.KeptIn.of_later`). So work that ended with a result which is stored for it is done again
without asking anything, over this store and every later one: `Reads.Recalls`.
-/

namespace StakeSnapshot

open Reads
open Store (StoredReading)

/-! ### Values that stay -/

/-- The directory and all stored values are still there. -/
structure Store.KeptIn (store later : Store) : Prop where
  present : store.present = true → later.present = true
  values : ∀ k v, store.get? k = some v → later.get? k = some v

namespace Store

variable {a b c : Store}

theorem KeptIn.refl (a : Store) : a.KeptIn a := ⟨id, fun _ _ => id⟩

theorem KeptIn.trans (h : a.KeptIn b) (h' : b.KeptIn c) : a.KeptIn c where
  present hpresent := h'.present (h.present hpresent)
  values k v hv := h'.values k v (h.values k v hv)

theorem present_set (store : Store) (key : String) (v : Value) : (store.set key v).present = true := by
  unfold Store.set
  split
  · cases encode v with
    | ok contents => rfl
    | error refusal => cases refusal <;> rfl
  · rfl

theorem keptIn_ensured (store : Store) : store.KeptIn store.ensured := ⟨fun _ => rfl, fun _ _ => id⟩

/-- Storing a value where there is none keeps all others. -/
theorem keptIn_set {store : Store} {key : String} (h : store.get? key = none) (v : Value) :
    store.KeptIn (store.set key v) where
  present _ := present_set store key v
  values k w hw := by
    rw [get?_set_of_ne ?_, hw]
    rintro rfl
    cases h.symm.trans hw

end Store

/-- What is stored stays from one session to another. -/
def Session.StoreKept (s t : Session) : Prop := s.store.KeptIn t.store

instance : IsPreorder Session Session.StoreKept where
  refl s := .refl s.store
  trans _ _ _ h h' := Store.KeptIn.trans h h'

theorem Session.StoreKept.of_eq {s t : Session} (h : t.store = s.store) : s.StoreKept t := by
  rw [StoreKept, h]
  exact .refl s.store

theorem Session.StoreKept.set (s : Session) (key : String) (v : Value)
    (h : s.store.get? key = none) : s.StoreKept { s with store := s.store.set key v } :=
  Store.keptIn_set h v

theorem Session.admitsStore_storeKept : AdmitsStore (fun _ => True) StoreKept where
  asked _ _ _ := .of_eq rfl
  remembered _ _ := .of_eq rfl
  switched _ _ := .of_eq rfl
  told _ _ := .of_eq rfl
  opened s := s.store.keptIn_ensured
  stored s q v h := StoreKept.set s q.key v h

/-! ### Anything done over a store -/

theorem BeaconEndpoint.moves_answer {R : Session → Session → Prop} [IsPreorder Session R]
    (hR : Session.AdmitsStore (fun _ => True) R) (e : BeaconEndpoint) (out : Outside)
    (q : BeaconQuery) : Moves R (e.answer out q) := by
  cases q with
  | block slot => exact e.moves_block out slot hR trivial
  | validators keys slot => exact e.moves_validators out slot hR (fun _ => trivial) keys

/-- The block that a query to a chain reader is about. -/
def ChainQuery.block : ChainQuery → Int
  | address _ block | price block | minimumFraction block | maximumFraction block
  | rewardIndex block | interval _ block | shares _ block | pendingRewards _ block
  | nodes block | minipools block => block

/-- A relation must allow for storing only where something is stored for the query. -/
theorem ChainReader.Admitted.moves_answer {R : Session → Session → Prop} [IsPreorder Session R]
    {r : ChainReader} {out : Outside} {q : ChainQuery} (h : r.Admitted out (.int q.block) R)
    (hR : r.stored q ≠ [] → Session.AdmitsStoring R) : Moves R (r.answer out q) := by
  cases q with
  | address contract block => exact h.resolved contract
  | shares index block => exact h.moves_shares index
  | nodes block => exact h.moves_nodes (hR (List.cons_ne_nil _ _))
  | minipools block => exact h.moves_minipools (hR (List.cons_ne_nil _ _))
  | price block | minimumFraction block | maximumFraction block | rewardIndex block
  | interval index block | pendingRewards index block =>
    exact h.moves_askResolved _ (by decide) _

/-- Something that is done over a store: an endpoint or a chain reader answers a query, or a snapshot
is built from both, with its progress told to a logger. -/
inductive Activity where
  | timing (e : BeaconEndpoint)
  | finalizedSlot (e : BeaconEndpoint)
  | beacon (e : BeaconEndpoint) (q : BeaconQuery)
  | chain (r : ChainReader) (q : ChainQuery)
  | snapshot (e : BeaconEndpoint) (r : ChainReader) (log : Logger) (slot : Int)
    (timing : ChainTiming)

/-- The session that an activity leaves behind, whether it succeeds or fails. -/
def Activity.after (out : Outside) (s : Session) : Activity → Session
  | timing e => Reads.after (e.timing out) s
  | finalizedSlot e => Reads.after (e.finalizedSlot out) s
  | beacon e q => Reads.after (e.answer out q) s
  | chain r q => Reads.after (r.answer out q) s
  | snapshot e r log slot clock =>
    Reads.after ((Sources.ofReaders out e r).toldSnapshot log slot clock) s

theorem Activity.storeKept_after (out : Outside) (activity : Activity) (s : Session) :
    s.StoreKept (activity.after out s) := by
  have hR := Session.admitsStore_storeKept
  cases activity with
  | timing e => exact e.moves_timing out hR.toAdmits (fun _ => trivial) s
  | finalizedSlot e => exact e.moves_finalizedSlot out hR.toAdmits (fun _ => trivial) s
  | beacon e q => exact e.moves_answer hR out q s
  | chain r q =>
    exact (hR.admitted r out fun _ _ => trivial).moves_answer (fun _ => hR.toAdmitsStoring) s
  | snapshot e r log slot clock =>
    refine Moves.bind (Sources.moves_pinnedBlock out e r slot hR trivial) (fun block => ?_) s
    exact Sources.moves_pinned out e r slot hR (fun _ _ => trivial) (fun _ => trivial) log clock

/-- One activity leads from a store to the next, whatever is answered and whatever is remembered from
before. -/
def Store.Next (store next : Store) : Prop :=
  ∃ (out : Outside) (activity : Activity) (s : Session),
    s.store = store ∧ (activity.after out s).store = next

/-- No stored value is lost, however many activities follow. -/
theorem Store.KeptIn.of_later {store later : Store}
    (h : Relation.ReflTransGen Store.Next store later) : store.KeptIn later := by
  induction h with
  | refl => exact .refl store
  | tail _ hnext ih =>
    obtain ⟨out, activity, s, rfl, rfl⟩ := hnext
    exact ih.trans (activity.storeKept_after out s)

/-! ### Work whose result is stored -/

namespace Reads

variable {α β : Type} {store : Store} {a : α} {b : β} {s t : Session}

/-- Over a store and any later one, work ends with the same result, and it asks and changes
nothing. -/
def Recalls (store : Store) (work : Reads α) (a : α) : Prop :=
  ∀ s : Session, store.KeptIn s.store → work s = .ok a s

theorem Recalls.mono {later : Store} {work : Reads α} (h : Recalls store work a)
    (hlater : store.KeptIn later) : Recalls later work a :=
  fun s hs => h s (hlater.trans hs)

theorem Recalls.pure (a : α) : Recalls store (Pure.pure a) a := fun _ _ => rfl

theorem Recalls.lift {x : Except Fault α} (h : x = .ok a) :
    Recalls store (liftM x) a := by
  rw [h]
  exact fun _ _ => rfl

theorem Recalls.bind {work : Reads α} {next : α → Reads β} (h : Recalls store work a)
    (hnext : Recalls store (next a) b) : Recalls store (work >>= next) b := by
  intro s hs
  rw [bind_of_ok (h s hs)]
  exact hnext s hs

theorem Recalls.within {work : Reads α} (h : Recalls store work a) (lane : Lane) :
    Recalls store (Reads.within lane work) a := by
  intro s hs
  rw [Reads.within, h { s with lane } hs]

theorem Recalls.of_within {work work' : Reads α} (lane : Lane)
    (hwork : ∀ {s t}, work s = .ok a t → Recalls t.store work' a)
    (h : Reads.within lane work s = .ok a t) : Recalls t.store (Reads.within lane work') a := by
  obtain ⟨u, hu, rfl⟩ := ok_of_within h
  exact (hwork hu).within lane

/-- A reading whose result can be stored is recalled as soon as it has succeeded, whatever the outside
answers from then on. -/
theorem recalls_kept {q : StoredReading} {ofStored : Value → Except Fault α}
    {form? : α → Option Value} {fresh : Reads α} (h : kept true q ofStored form? fresh s = .ok a t)
    (hform : ∀ u, fresh s.opened = .ok a u → t.history = u.history →
      ∃ v, form? a = some v ∧ Json.Storable Json.maxDepth v ∧ v ≠ .null ∧ ofStored v = .ok a)
    (form?' : α → Option Value) (fresh' : Reads α) :
    Recalls t.store (kept true q ofStored form?' fresh') a := by
  -- the value that gives the result was there before, or has been stored now
  obtain ⟨hpresent, v, hv, hback⟩ : t.store.present = true ∧
      ∃ v, t.store.get? q.key = some v ∧ ofStored v = .ok a := by
    have hend := keptEnd true q ofStored form? fresh s
    rw [h] at hend
    generalize hended : EStateM.Result.ok a t = x at hend
    cases hend with
    | barred | failed | refused => cases hended
    | unused _ huse => cases huse
    | stored _ hlook =>
      obtain ⟨hback, rfl⟩ := Sources.ok_of_ended hended.symm
      exact ⟨rfl, _, Store.get?_of_load (Store.load_of_look hlook), hback⟩
    | formless _ _ hfresh hnone =>
      cases hended
      obtain ⟨v, hv, -⟩ := hform _ hfresh rfl
      cases hnone.symm.trans hv
    | @formed c v u _ _ hfresh hv =>
      injection hended with hc ht
      subst hc
      obtain ⟨w, hw, hstorable, hnull, hback⟩ := hform u hfresh (by rw [ht])
      obtain rfl : v = w := Option.some.inj (hv.symm.trans hw)
      have htakes : Store.takes q.key := Store.takes_key q.kind q.parts
      have hstore : t.store = u.store.set q.key v := by rw [ht]
      rw [hstore]
      exact ⟨Store.present_set _ _ v, v,
        Store.get?_of_load (Store.load_set_of_storable htakes hstorable hnull), hback⟩
  intro s' hs'
  have hopened : s'.opened = s' := by
    -- the directory is there already
    have hthere : s'.store.present = true := hs'.present hpresent
    obtain ⟨⟨present, files⟩, _⟩ := s'
    cases hthere
    rfl
  have hlook : s'.store.look q = .ok (some v) := by
    rw [Store.look_of_writable (keyFault?_of_kept h), Store.load_of_get? (hs'.values _ v hv)]
  rw [kept_of_stored hlook, hback, hopened]
  rfl

end Reads

/-! ### Rows that can be stored -/

/-- The integers of a row can be written. -/
def NodeRow.Writable (row : NodeRow) : Prop :=
  row.stake.isWritable = true ∧ row.registered.isWritable = true

/-- The integers of a row can be written. -/
def MinipoolRow.Writable (row : MinipoolRow) : Prop :=
  row.borrowed.isWritable = true ∧ row.bonded.isWritable = true

theorem NodeRow.Made.textual_toValue {row : NodeRow} (h : row.Made Value.IsWholeText)
    (hints : row.Writable) : row.toValue.Textual := by
  obtain ⟨⟨address, haddress⟩, ⟨n, hn⟩, k, hk⟩ := h
  obtain ⟨hstake, hregistered⟩ := hints
  rw [hn, Value.isWritable_int] at hstake
  rw [hk, Value.isWritable_int] at hregistered
  refine .record fun field hfield => ?_
  simp only [List.mem_cons, List.not_mem_nil, or_false, haddress, hn, hk] at hfield
  rcases hfield with rfl | rfl | rfl
  · exact .text address
  · exact .int hstake
  · exact .int hregistered

theorem MinipoolRow.Made.textual_toValue {row : MinipoolRow} (h : row.Made Value.IsWholeText)
    (hints : row.Writable) (hwhole : ∀ points, row.pubkey ≠ .ragged points) :
    row.toValue.Textual := by
  obtain ⟨⟨address, haddress⟩, ⟨owner, howner⟩, hpubkey, ⟨b, hb⟩, ⟨n, hn⟩, k, hk⟩ := h
  obtain ⟨hborrowed, hbonded⟩ := hints
  rw [hn, Value.isWritable_int] at hborrowed
  rw [hk, Value.isWritable_int] at hbonded
  refine .record fun field hfield => ?_
  simp only [List.mem_cons, List.not_mem_nil, or_false, haddress, howner, hb, hn, hk] at hfield
  rcases hfield with rfl | rfl | rfl | rfl | rfl | rfl | rfl
  · exact .text address
  · exact .text owner
  · generalize row.pubkey = key at hpubkey hwhole
    cases hpubkey with
    | text key => exact .text key
    | ragged points => exact absurd rfl (hwhole points)
  · exact .bool b
  · exact .int (by cases row.status <;> decide)
  · exact .int hborrowed
  · exact .int hbonded

/-! ### The readings -/

variable {out : Outside} {s t : Session} {slot : Int}

namespace BeaconEndpoint

/-- No answer about the validators of a slot that is given on the way from one session to another has a
lone surrogate in it. -/
def WholeAnswers (out : Outside) (e : BeaconEndpoint) (slot : Int) (s t : Session) : Prop :=
  ∀ asked lane batch later v,
    t.history = s.history ++ asked ++ (lane, .request (e.batchRequest slot batch)) :: later →
      out.data (s.history ++ asked) (e.batchRequest slot batch) = .ok v → v.Whole

/-- What is answered on a part of the way is answered on the whole of it. -/
theorem WholeAnswers.mono {e : BeaconEndpoint} (h : e.WholeAnswers out slot s t) {s' t' : Session}
    (hs : s.AskedOnly (fun _ => True) s') (ht : t'.AskedOnly (fun _ => True) t) :
    e.WholeAnswers out slot s' t' := by
  obtain ⟨before, hs, -⟩ := hs
  obtain ⟨after, ht, -⟩ := ht
  intro asked lane batch later v hhistory hdata
  rw [hs, List.append_assoc s.history] at hhistory hdata
  refine h (before ++ asked) lane batch (later ++ after) v ?_ hdata
  rw [ht, hhistory]
  simp

section
variable {P : Question → Prop} {R : Session → Session → Prop} [IsPreorder Session R]
  {e : BeaconEndpoint} (hR : Session.AdmitsStore P R)
include hR

theorem moves_batchRows {batch : List String} (h : P (.request (e.batchRequest slot batch))) :
    Moves R (e.batchRows out slot batch) :=
  (e.moves_batchValue out slot hR h).bind fun _ => .lift _

theorem moves_batches (h : ∀ batch, P (.request (e.batchRequest slot batch)))
    (bs : List (List String)) : Moves R (bs.mapM (e.batchRows out slot)) :=
  .mapM (fun batch => moves_batchRows hR (h batch)) bs

end

variable {e e' : BeaconEndpoint} (huse : e.useStore = true) (huse' : e'.useStore = true)
  (hbase : e'.base = e.base) (out' : Outside)
include huse huse' hbase

theorem recalls_block {block : Value} (h : e.block out slot s = .ok block t) (hnull : block ≠ .null)
    (hblock : block.isWritable = true) :
    Recalls t.store (e'.block out' slot) block := by
  rw [block_eq_kept, huse] at h
  rw [block_eq_kept, huse', hbase]
  refine recalls_kept h (fun u hfresh _ => ?_) _ _
  obtain ⟨n, rfl⟩ := int_of_freshBlock hfresh hnull
  refine ⟨_, rfl, ?_, by simp, rfl⟩
  refine Json.storable_record (by simp [Table.keys]) fun field hfield => ?_
  rw [List.mem_singleton.1 hfield]
  rw [Value.isWritable_int] at hblock
  exact Json.storable_int hblock

theorem recalls_batchRows {batch : List String} {vs : List Validator}
    (hwhole : e.WholeAnswers out slot s t) (h : e.batchRows out slot batch s = .ok vs t) :
    Recalls t.store (e'.batchRows out' slot batch) vs := by
  obtain ⟨v, u, hv, h₁⟩ := ok_of_bind h
  obtain ⟨hlisted, rfl⟩ := ok_of_lift h₁
  rw [batchValue_eq_kept, huse] at hv
  refine Recalls.bind (a := v) ?_ (.lift hlisted)
  rw [batchValue_eq_kept, huse', hbase]
  refine recalls_kept hv (fun w hw hhistory => ⟨v, rfl, ?_, ?_, rfl⟩) _ _
  · rw [freshBatch_apply] at hw
    obtain ⟨hdata, rfl⟩ := Sources.ok_of_ended hw
    have hnow : t.history = s.history ++ [] ++ (s.lane, .request (e.batchRequest slot batch)) :: [] := by
      rw [hhistory, List.append_nil]
      rfl
    have hdata' : out.data (s.history ++ []) (e.batchRequest slot batch) = .ok v := by
      rw [List.append_nil]
      exact hdata
    exact (Reply.decoded_of_data hdata).storable (hwhole [] s.lane batch [] v hnow hdata')
  · rintro rfl
    cases hlisted

/-- What one batch leaves in the store is still there after the others. -/
theorem recalls_batches {bs : List (List String)} {vss : List (List Validator)}
    (hwhole : e.WholeAnswers out slot s t) (h : bs.mapM (e.batchRows out slot) s = .ok vss t) :
    Recalls t.store (bs.mapM (e'.batchRows out' slot)) vss := by
  induction bs generalizing s vss with
  | nil =>
    obtain ⟨rfl, -⟩ := ok_of_mapM_nil h
    rw [List.mapM_nil]
    exact .pure []
  | cons batch bs ih =>
    obtain ⟨vs, u, rest, hbatch, hrest, rfl⟩ := ok_of_mapM_cons h
    have hkept : u.StoreKept t :=
      (moves_batches Session.admitsStore_storeKept (fun _ => trivial) bs).of_ok hrest
    have hasked : s.AskedOnly (fun _ => True) u :=
      (moves_batchRows (Session.admitsStore_askedOnly _) trivial).of_ok hbatch
    have hasked' : u.AskedOnly (fun _ => True) t :=
      (moves_batches (Session.admitsStore_askedOnly _) (fun _ => trivial) bs).of_ok hrest
    rw [List.mapM_cons]
    exact ((recalls_batchRows huse huse' hbase out' (hwhole.mono (refl_of _ s) hasked')
      hbatch).mono hkept).bind ((ih (hwhole.mono hasked (refl_of _ t)) hrest).bind (.pure _))

theorem recalls_validators (hsize : e'.batchSize = e.batchSize) {keys : List String}
    {found : Table String Validator} (hwhole : e.WholeAnswers out slot s t)
    (h : e.validators out keys slot s = .ok found t) :
    Recalls t.store (e'.validators out' keys slot) found := by
  obtain ⟨vss, hrows⟩ := ok_of_validators h
  rw [validators_of_ok hrows] at h
  injection h with hfound
  have hbatches : e'.batchesOf keys = e.batchesOf keys := by rw [batchesOf, batchesOf, hsize]
  rw [validators_eq_mapM, ← bind_pure_comp, ← hfound, hbatches]
  exact (recalls_batches huse huse' hbase out' hwhole hrows).bind (.pure _)

theorem recalls_rowValidators (hsize : e'.batchSize = e.batchSize) {keys : List Value}
    {found : Table String Validator} (hwhole : e.WholeAnswers out slot s t)
    (h : e.rowValidators out keys slot s = .ok found t) :
    Recalls t.store (e'.rowValidators out' keys slot) found := by
  obtain ⟨texts, htexts⟩ := exists_texts_of_rowValidators h
  rw [rowValidators_of_distinct htexts] at h ⊢
  exact recalls_validators huse huse' hbase out' hsize hwhole h

end BeaconEndpoint

namespace ChainReader

variable {r r' : ChainReader} (huse : r.useStore = true) (huse' : r'.useStore = true)
include huse huse'

/-- A list is recalled if its rows can be stored and read back. -/
theorem recalls_storedList {α : Type} {q : StoredReading} {ofValue : Value → Except Fault α}
    {toValue : α → Value} {fresh : Reads (List α)} {rows : List α}
    (hback : ∀ a, ofValue (toValue a) = .ok a)
    (hrows : ∀ u, fresh s.opened = .ok rows u → ∀ a ∈ rows, Json.Storable 1 (toValue a))
    (h : r.storedList q ofValue toValue fresh s = .ok rows t) (fresh' : Reads (List α)) :
    Recalls t.store (r'.storedList q ofValue toValue fresh') rows := by
  rw [storedList_eq_kept, huse] at h
  rw [storedList_eq_kept, huse']
  refine recalls_kept h
    (fun u hfresh _ => ⟨_, rfl, ?_, by simp, rowsOf_list_map hback rows⟩) _ _
  refine (Json.storable_of_items fun v hv => ?_).mono (by decide : 1 + 1 ≤ Json.maxDepth)
  obtain ⟨a, ha, rfl⟩ := List.mem_map.1 hv
  exact hrows u hfresh a ha

variable {block : Value} (hstorage : r'.storage = r.storage)
  (htexts : out.Addresses Value.IsWholeText) (out' : Outside)
include hstorage htexts

theorem recalls_nodes {rows : List NodeRow} (hrows : ∀ row ∈ rows, row.Writable)
    (h : r.nodes out block s = .ok rows t) : Recalls t.store (r'.nodes out' block) rows := by
  rw [nodes, hstorage]
  refine recalls_storedList huse huse' NodeRow.ofValue_toValue (fun u hfresh row hrow => ?_) h _
  obtain ⟨heard, hheard, hlist⟩ := freshNodes_hears hfresh
  have hmade := hlist.made hheard htexts.isText row hrow
  exact ⟨hmade.regular_toValue,
    (hlist.made hheard htexts row hrow).textual_toValue (hrows row hrow), hmade.depth_toValue⟩

/-- The keys of the minipools must not have lone surrogates. -/
theorem recalls_minipools {rows : List MinipoolRow} (hrows : ∀ row ∈ rows, row.Writable)
    (hkeys : ∀ row ∈ rows, ∀ points, row.pubkey ≠ .ragged points)
    (h : r.minipools out block s = .ok rows t) :
    Recalls t.store (r'.minipools out' block) rows := by
  rw [minipools, hstorage]
  refine recalls_storedList huse huse' MinipoolRow.ofValue_toValue (fun u hfresh row hrow => ?_) h _
  obtain ⟨heard, hheard, hlist⟩ := freshMinipools_hears hfresh
  have hmade := hlist.made hheard htexts.isText row hrow
  have htextual := (hlist.made hheard htexts row hrow).textual_toValue (hrows row hrow)
    (hkeys row hrow)
  exact ⟨hmade.regular_toValue, htextual, hmade.depth_toValue⟩

end ChainReader

end StakeSnapshot
