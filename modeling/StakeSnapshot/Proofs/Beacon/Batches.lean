import StakeSnapshot.Proofs.Beacon.World
import StakeSnapshot.Proofs.Json.RoundTrip

/-!
# Batches of validators by way of the store

The validators are read batch by batch (`validators_eq_mapM`). What reading one batch does to a session
with a store is said once, by `BatchEnd`: the batch was stored, or its data were fetched and are stored
now, or there is nothing that can be stored. What is stored decides the result from then on, whatever the
node answers: the data are stored before they are read.
-/

namespace StakeSnapshot

open Reads
open Store (StoredReading)

/-- The data that a node answers to a request. -/
def Outside.data (out : Outside) (history : History) (r : Request) : Except Fault Value :=
  (out.beacon history r).data r.path false

theorem Outside.data_of_response {out : Outside} {history : History} {r : Request} {status : Int}
    {body : String} (h : out.beacon history r = .response status body)
    (hstatus : ¬ (400 ≤ status ∧ status < 600)) :
    out.data history r = BeaconEndpoint.payload body := by
  rw [Outside.data, h, Reply.data, if_neg (by simp), if_neg hstatus]

namespace BeaconEndpoint

variable {out : Outside} {e : BeaconEndpoint} {slot : Int} {batch keys : List String}
  {s t u : Session} {fault : Fault}

/-! ### One batch after the other -/

/-- The validators that the value for a batch lists. -/
def listed (v : Value) : Except Fault (List Validator) := ChainReader.rowsOf Validator.ofEntry v

/-- The validators of a batch. -/
def batchRows (e : BeaconEndpoint) (out : Outside) (slot : Int) (batch : List String) :
    Reads (List Validator) := do
  listed (← e.batchValue out batch slot)

theorem addEntries_eq_map (found : Table String Validator) (entries : List Value) :
    addEntries found entries =
      (entries.mapM Validator.ofEntry).map fun vs => found.putAll (validatorRows vs) := by
  induction entries generalizing found with
  | nil => rfl
  | cons entry entries ih =>
    rw [addEntries, List.foldlM_cons, List.mapM_cons]
    cases Validator.ofEntry entry with
    | error fault => rfl
    | ok v =>
      refine (ih _).trans ?_
      cases entries.mapM Validator.ofEntry <;> rfl

theorem addBatch_eq_map (found : Table String Validator) :
    e.addBatch out slot found batch =
      (fun vs => found.putAll (validatorRows vs)) <$> e.batchRows out slot batch := by
  rw [addBatch, batchRows, map_bind]
  refine congrArg (_ >>= ·) (funext fun v => ?_)
  rw [listed, ChainReader.rowsOf]
  cases v.items with
  | error fault => rfl
  | ok entries =>
    change (liftM (addEntries found entries) : Reads _) =
      _ <$> (liftM (entries.mapM Validator.ofEntry) : Reads _)
    rw [addEntries_eq_map]
    cases entries.mapM Validator.ofEntry <;> rfl

theorem foldlM_addBatch (bs : List (List String)) (found : Table String Validator) :
    bs.foldlM (e.addBatch out slot) found =
      (fun vss => found.putAll (validatorRows vss.flatten)) <$> bs.mapM (e.batchRows out slot) := by
  induction bs generalizing found with
  | nil => rfl
  | cons batch bs ih =>
    rw [List.foldlM_cons, List.mapM_cons, addBatch_eq_map, bind_map_left, map_bind]
    refine congrArg (_ >>= ·) (funext fun vs => ?_)
    rw [ih, map_bind, ← bind_pure_comp]
    refine congrArg (_ >>= ·) (funext fun vss => ?_)
    rw [map_pure, List.flatten_cons, validatorRows, validatorRows, validatorRows, List.map_append,
      Table.putAll_append]

/-- The batches in which validators are asked for. -/
def batchesOf (e : BeaconEndpoint) (keys : List String) : List (List String) :=
  batches e.batchSize (Table.distinct keys)

/-- The table of validators has the rows of one batch after the other. -/
theorem validators_eq_mapM (e : BeaconEndpoint) (out : Outside) (keys : List String) (slot : Int) :
    e.validators out keys slot = (fun vss => Table.ofRows (validatorRows vss.flatten)) <$>
      (e.batchesOf keys).mapM (e.batchRows out slot) := by
  rw [validators, foldlM_addBatch]
  rfl

theorem validators_of_error
    (h : (e.batchesOf keys).mapM (e.batchRows out slot) s = .error fault t) :
    e.validators out keys slot s = .error fault t := by
  rw [validators_eq_mapM]
  exact bind_of_error h

theorem validators_of_ok {vss : List (List Validator)}
    (h : (e.batchesOf keys).mapM (e.batchRows out slot) s = .ok vss t) :
    e.validators out keys slot s = .ok (Table.ofRows (validatorRows vss.flatten)) t := by
  rw [validators_eq_mapM]
  exact bind_of_ok h

theorem ok_of_validators {found : Table String Validator}
    (h : e.validators out keys slot s = .ok found t) :
    ∃ vss, (e.batchesOf keys).mapM (e.batchRows out slot) s = .ok vss t := by
  rw [validators_eq_mapM, ← bind_pure_comp] at h
  obtain ⟨vss, u, hrows, h⟩ := ok_of_bind h
  obtain ⟨-, rfl⟩ := ok_of_pure h
  exact ⟨vss, hrows⟩

theorem error_of_validators (h : e.validators out keys slot s = .error fault t) :
    (e.batchesOf keys).mapM (e.batchRows out slot) s = .error fault t := by
  cases hrows : (e.batchesOf keys).mapM (e.batchRows out slot) s with
  | ok vss u =>
    rw [validators_of_ok hrows] at h
    cases h
  | error other u =>
    rw [validators_of_error hrows] at h
    cases h
    rfl

/-! ### One batch -/

/-- The key under which a batch is stored. -/
abbrev batchKey (e : BeaconEndpoint) (slot : Int) (batch : List String) : String :=
  (StoredReading.validators e.base slot batch).key

/-- How reading a batch by way of the store ends, in what session and with what result: nothing can be
asked about the slot, the stored file is too deep, the batch was stored, it was fetched and is stored
now, it was fetched and cannot be stored, or the node does not answer with data. -/
inductive BatchEnd (out : Outside) (e : BeaconEndpoint) (slot : Int) (batch : List String)
    (s t : Session) (x : Except Fault (List Validator)) : Prop where
  | unasked (hslot : Number.isWritable slot = false) (hsame : ∀ k, t.store.load k = s.store.load k)
      (hx : x = .error .numberTooLong)
  | barred {fault : Fault} (hbarred : s.store.load (e.batchKey slot batch) = .error fault)
      (hsame : ∀ k, t.store.load k = s.store.load k) (hx : x = .error fault)
  | stored {v : Value} (hstored : s.store.load (e.batchKey slot batch) = .ok (some v))
      (hsame : ∀ k, t.store.load k = s.store.load k) (hx : listed v = x)
  | fetched {v : Value} (hnone : s.store.load (e.batchKey slot batch) = .ok none)
      (hdata : out.data s.history (e.batchRequest slot batch) = .ok v) (hwhole : v.Whole)
      (hstored : t.store.load (e.batchKey slot batch) = .ok (some v))
      (hsame : ∀ k, e.batchKey slot batch ≠ k → t.store.load k = s.store.load k)
      (hx : listed v = x)
  | unstored {v : Value} (hnone : s.store.load (e.batchKey slot batch) = .ok none)
      (hdata : out.data s.history (e.batchRequest slot batch) = .ok v) (hv : v = .null ∨ ¬ v.Whole)
      (hsame : ∀ k, t.store.load k = s.store.load k) (hx : listed v = x)
  | refused {fault : Fault} (hnone : s.store.load (e.batchKey slot batch) = .ok none)
      (hdata : out.data s.history (e.batchRequest slot batch) = .error fault)
      (hsame : ∀ k, t.store.load k = s.store.load k) (hx : x = .error fault)

theorem freshBatch_apply (s : Session) :
    e.freshBatch out slot batch s = Sources.ended (out.data s.history (e.batchRequest slot batch))
      (s.asked (.request (e.batchRequest slot batch))) :=
  e.fetch_apply out (validatorsPath slot) (some batch) false s

/-- Nothing can be asked about a slot whose number is too long. -/
theorem batchRows_of_long (hslot : Number.isWritable slot = false) (s : Session) :
    e.batchRows out slot batch s = .error .numberTooLong s := by
  refine bind_of_error ?_
  rw [batchValue_eq_kept]
  refine kept_of_keyFault ?_ e.useStore
  rw [StoredReading.keyFault?_int rfl, hslot, if_neg Bool.false_ne_true]

/-- Reading a batch by way of the store ends in one of these ways. -/
theorem exists_batchEnd (out : Outside) (huse : e.useStore = true) (slot : Int)
    (batch : List String) (s : Session) :
    ∃ x t, e.batchRows out slot batch s = Sources.ended x t ∧ BatchEnd out e slot batch s t x := by
  have htakes : Store.takes (e.batchKey slot batch) := Store.takes_key _ _
  have hvalue := congrFun (e.batchValue_eq_kept out batch slot) s
  have hfresh : e.freshBatch out slot batch s.opened = _ := freshBatch_apply s.opened
  rw [huse] at hvalue
  cases hslot : Number.isWritable slot with
  | false =>
    exact ⟨.error .numberTooLong, s, batchRows_of_long hslot s, .unasked hslot (fun _ => rfl) rfl⟩
  | true =>
  have hlook := Store.look_of_writable (s := s.store) (q := .validators e.base slot batch)
    ((StoredReading.keyFault?_eq_none_iff rfl).2 hslot)
  cases hload : s.store.load (e.batchKey slot batch) with
  | error fault =>
    rw [hload] at hlook
    obtain ⟨t, hkept, ht⟩ := exists_kept_of_barred .ok some (e.freshBatch out slot batch) hlook
    rw [hkept] at hvalue
    refine ⟨.error fault, t, bind_of_error hvalue, .barred hload (fun _ => ?_) rfl⟩
    rcases ht with rfl | rfl <;> rfl
  | ok v? =>
  rw [hload] at hlook
  cases v? with
  | some v =>
    rw [kept_of_stored hlook] at hvalue
    exact ⟨listed v, s.opened, (bind_of_ok hvalue).trans (Sources.lift_eq_ended _ _),
      .stored hload (fun _ => rfl) rfl⟩
  | none =>
    cases hdata : out.data s.history (e.batchRequest slot batch) with
    | error fault =>
      rw [show out.data s.opened.history _ = _ from hdata] at hfresh
      rw [kept_of_error hlook hfresh] at hvalue
      exact ⟨.error fault, _, bind_of_error hvalue, .refused hload hdata (fun _ => rfl) rfl⟩
    | ok v =>
      rw [show out.data s.opened.history _ = _ from hdata] at hfresh
      obtain ⟨t, hkept, hstore⟩ :=
        exists_kept_of_form .ok (e.shallow_batch out slot batch) hlook hfresh rfl
      rw [hkept] at hvalue
      refine ⟨listed v, t, (bind_of_ok hvalue).trans (Sources.lift_eq_ended _ _), ?_⟩
      have hsame : ∀ k, e.batchKey slot batch ≠ k → t.store.load k = s.store.load k := by
        intro k hk
        rw [hstore, Store.load_set_of_ne hk]
        rfl
      -- a null answer is stored but read as a miss, and one with a surrogate is not stored
      by_cases hnull : v = .null
      · cases hnull
        refine .unstored hload hdata (.inl rfl) (fun k => ?_) rfl
        by_cases hk : e.batchKey slot batch = k
        · rw [← hk, hload, hstore, Store.load_set_null htakes]
        · exact hsame k hk
      · by_cases hwhole : v.Whole
        · refine .fetched hload hdata hwhole ?_ hsame rfl
          rw [hstore,
            Store.load_set_of_storable htakes ((Reply.decoded_of_data hdata).storable hwhole) hnull]
        · refine .unstored hload hdata (.inr hwhole) (fun k => ?_) rfl
          rw [hstore, Store.load_set_of_ragged hwhole]
          rfl

theorem batchEnd_of_ok (huse : e.useStore = true) {vs : List Validator}
    (h : e.batchRows out slot batch s = .ok vs t) : BatchEnd out e slot batch s t (.ok vs) := by
  obtain ⟨x, u, hx, hend⟩ := exists_batchEnd out huse slot batch s
  obtain ⟨rfl, rfl⟩ := Sources.ok_of_ended (hx.symm.trans h)
  exact hend

theorem batchEnd_of_error (huse : e.useStore = true)
    (h : e.batchRows out slot batch s = .error fault t) :
    BatchEnd out e slot batch s t (.error fault) := by
  obtain ⟨x, u, hx, hend⟩ := exists_batchEnd out huse slot batch s
  obtain ⟨rfl, rfl⟩ := Sources.error_of_ended (hx.symm.trans h)
  exact hend

/-- Where the validators of a batch come from: from the store, or from what the node answers. -/
def Comes (out : Outside) (e : BeaconEndpoint) (slot : Int) (store : Store) (batch : List String)
    (vs : List Validator) : Prop :=
  (∃ v, store.load (e.batchKey slot batch) = .ok (some v) ∧ listed v = .ok vs) ∨
    store.load (e.batchKey slot batch) = .ok none ∧
      ∃ history v, out.data history (e.batchRequest slot batch) = .ok v ∧ listed v = .ok vs

/-- What is stored for a batch, if anything is, can be read. -/
def Readable (e : BeaconEndpoint) (slot : Int) (store : Store) (batch : List String) : Prop :=
  ∃ v?, store.load (e.batchKey slot batch) = .ok v? ∧
    ∀ v, v? = some v → ∃ vs, listed v = .ok vs

/-- A batch has been read: it is stored, or the node has answered with data that cannot be stored, as
there is a lone surrogate in them. -/
def HasRead (out : Outside) (e : BeaconEndpoint) (slot : Int) (store : Store)
    (batch : List String) : Prop :=
  (∃ v vs, store.load (e.batchKey slot batch) = .ok (some v) ∧ listed v = .ok vs) ∨
    store.load (e.batchKey slot batch) = .ok none ∧
      ∃ history v, out.data history (e.batchRequest slot batch) = .ok v ∧ ¬ v.Whole

theorem HasRead.readable {store : Store} (h : HasRead out e slot store batch) :
    e.Readable slot store batch := by
  rcases h with ⟨v, vs, hv, hvs⟩ | ⟨hnone, -⟩
  · exact ⟨some v, hv, by rintro _ ⟨⟩; exact ⟨vs, hvs⟩⟩
  · exact ⟨none, hnone, by rintro v ⟨⟩⟩

namespace BatchEnd

variable {x : Except Fault (List Validator)} {k : String} {vs : List Validator} {b : List String}

/-- Whatever is found in the store stays as it is. -/
theorem keeps (h : BatchEnd out e slot batch s t x) (hk : s.store.load k ≠ .ok none) :
    t.store.load k = s.store.load k := by
  cases h with
  | unasked _ hsame _ | barred _ hsame _ | stored _ hsame _ | unstored _ _ _ hsame _
  | refused _ _ hsame _ => exact hsame k
  | fetched hnone _ _ _ hsame _ =>
    refine hsame k ?_
    rintro rfl
    exact hk hnone

/-- What is stored for other readings stays as it is. -/
theorem frame (h : BatchEnd out e slot batch s t x) (hk : e.batchKey slot batch ≠ k) :
    t.store.load k = s.store.load k := by
  cases h with
  | unasked _ hsame _ | barred _ hsame _ | stored _ hsame _ | unstored _ _ _ hsame _
  | refused _ _ hsame _ => exact hsame k
  | fetched _ _ _ _ hsame _ => exact hsame k hk

/-- A batch that has been read is stored, unless it cannot be. -/
theorem of_ok (h : BatchEnd out e slot batch s t (.ok vs)) : HasRead out e slot t.store batch := by
  cases h with
  | unasked _ _ hx | barred _ _ hx | refused _ _ _ hx => cases hx
  | stored hstored hsame hx => exact .inl ⟨_, vs, (hsame _).trans hstored, hx⟩
  | fetched _ _ _ hstored _ hx => exact .inl ⟨_, vs, hstored, hx⟩
  | unstored hnone hdata hv hsame hx =>
    rcases hv with rfl | hv
    · cases hx
    · exact .inr ⟨(hsame _).trans hnone, _, _, hdata, hv⟩

/-- A batch that has been read adds no value that cannot be read. -/
theorem readable (h : BatchEnd out e slot batch s t (.ok vs)) (hb : e.Readable slot s.store b) :
    e.Readable slot t.store b := by
  by_cases hk : e.batchKey slot batch = e.batchKey slot b
  · have hread := h.of_ok.readable
    rwa [Readable, hk] at hread
  · rwa [Readable, h.frame hk]

/-- Batches that have been read before another one stay so. -/
theorem hasRead (h : BatchEnd out e slot batch s t (.ok vs)) (hb : HasRead out e slot s.store b) :
    HasRead out e slot t.store b := by
  rcases hb with ⟨v, ws, hv, hws⟩ | ⟨hnone, hdata⟩
  · refine .inl ⟨v, ws, (h.keeps ?_).trans hv, hws⟩
    rw [hv]
    nofun
  · by_cases hk : e.batchKey slot batch = e.batchKey slot b
    · rcases h.of_ok with hstored | ⟨hnone', -⟩
      · rw [hk] at hstored
        exact .inl hstored
      · rw [hk] at hnone'
        exact .inr ⟨hnone', hdata⟩
    · exact .inr ⟨(h.frame hk).trans hnone, hdata⟩

end BatchEnd

/-! ### All batches -/

/-- The node answers to the request for a batch with what can be read. -/
def WellAnswered (out : Outside) (e : BeaconEndpoint) (slot : Int) (batch : List String) : Prop :=
  ∀ history, ∃ v vs, out.data history (e.batchRequest slot batch) = .ok v ∧ listed v = .ok vs

variable {bs : List (List String)} {vss : List (List Validator)}

section
variable (huse : e.useStore = true)
include huse

/-- What is found in the store before batches are read stays, and they have been read afterwards. -/
theorem batches_of_ok (h : bs.mapM (e.batchRows out slot) s = .ok vss t) :
    (∀ k, s.store.load k ≠ .ok none → t.store.load k = s.store.load k) ∧
    (∀ b ∈ bs, HasRead out e slot t.store b) ∧
    (∀ b, HasRead out e slot s.store b → HasRead out e slot t.store b) ∧
    ∀ b, e.Readable slot s.store b → e.Readable slot t.store b := by
  induction bs generalizing s vss with
  | nil =>
    obtain ⟨-, rfl⟩ := ok_of_mapM_nil h
    exact ⟨fun _ _ => rfl, fun b hb => absurd hb List.not_mem_nil, fun _ hb => hb, fun _ hb => hb⟩
  | cons batch bs ih =>
    obtain ⟨vs, u, rest, hbatch, hrest, rfl⟩ := ok_of_mapM_cons h
    have hend := batchEnd_of_ok huse hbatch
    obtain ⟨hkeeps, hread, hstay, hreadable⟩ := ih hrest
    refine ⟨fun k hk => ?_, List.forall_mem_cons.2 ⟨hstay batch hend.of_ok, hread⟩,
      fun b hb => hstay b (hend.hasRead hb), fun b hb => hreadable b (hend.readable hb)⟩
    have hu := hend.keeps hk
    rw [hkeeps k (by rwa [hu]), hu]

/-- A batch that is stored is read from the store. -/
theorem exists_batchRows_of_stored (out : Outside) {v : Value} {x : Except Fault (List Validator)}
    (hslot : Number.isWritable slot = true)
    (hv : s.store.load (e.batchKey slot batch) = .ok (some v)) (hx : listed v = x) :
    ∃ t, e.batchRows out slot batch s = Sources.ended x t := by
  obtain ⟨y, t, hy, hend⟩ := exists_batchEnd out huse slot batch s
  cases hend with
  | unasked hlong _ _ => cases hlong.symm.trans hslot
  | barred hbarred _ _ => cases hv.symm.trans hbarred
  | stored hstored _ hlisted =>
    cases hv.symm.trans hstored
    rw [hx] at hlisted
    rw [← hlisted] at hy
    exact ⟨t, hy⟩
  | fetched hnone _ _ _ _ _ => cases hv.symm.trans hnone
  | unstored hnone _ _ _ _ => cases hv.symm.trans hnone
  | refused hnone _ _ _ => cases hv.symm.trans hnone

/-- A batch is read if what is stored for it can be read, or if nothing is and the node answers well. -/
theorem exists_batchRows_of_answered (hslot : Number.isWritable slot = true)
    (hs : e.Readable slot s.store batch)
    (hout : s.store.load (e.batchKey slot batch) = .ok none → WellAnswered out e slot batch) :
    ∃ vs t, e.batchRows out slot batch s = .ok vs t ∧ Comes out e slot s.store batch vs := by
  obtain ⟨x, t, hx, hend⟩ := exists_batchEnd out huse slot batch s
  obtain ⟨v?, hload, hs⟩ := hs
  cases hend with
  | unasked hlong _ _ => cases hlong.symm.trans hslot
  | barred hbarred _ _ => cases hload.symm.trans hbarred
  | stored hstored _ hlisted =>
    obtain ⟨vs, hvs⟩ := hs _ (Except.ok.inj (hload.symm.trans hstored))
    cases hlisted.symm.trans hvs
    exact ⟨vs, t, hx, .inl ⟨_, hstored, hvs⟩⟩
  | fetched hnone hdata _ _ _ hlisted | unstored hnone hdata _ _ hlisted =>
    obtain ⟨v, vs, hv, hvs⟩ := hout hnone s.history
    cases hdata.symm.trans hv
    cases hlisted.symm.trans hvs
    exact ⟨vs, t, hx, .inr ⟨hnone, s.history, _, hdata, hvs⟩⟩
  | refused hnone hdata _ _ =>
    obtain ⟨v, vs, hv, -⟩ := hout hnone s.history
    cases hdata.symm.trans hv

/-- All batches are read if what is stored for them can be read, and the node answers well where nothing
is. If they have keys of their own, each of them comes from the store or from the node. -/
theorem exists_batches_of_answered (hslot : bs ≠ [] → Number.isWritable slot = true)
    (hs : ∀ b ∈ bs, e.Readable slot s.store b)
    (hout : ∀ b ∈ bs, s.store.load (e.batchKey slot b) = .ok none → WellAnswered out e slot b) :
    ∃ vss t, bs.mapM (e.batchRows out slot) s = .ok vss t ∧
      ((bs.map (e.batchKey slot)).Nodup →
        List.Forall₂ (Comes out e slot s.store) bs vss) := by
  induction bs generalizing s with
  | nil => exact ⟨[], s, by rw [List.mapM_nil]; rfl, fun _ => .nil⟩
  | cons batch bs ih =>
    obtain ⟨hreadable, hrest⟩ := List.forall_mem_cons.1 hs
    obtain ⟨hanswered, hlater⟩ := List.forall_mem_cons.1 hout
    obtain ⟨vs, u, hbatch, hcomes⟩ :=
      exists_batchRows_of_answered huse (hslot (List.cons_ne_nil _ _)) hreadable hanswered
    have hend := batchEnd_of_ok huse hbatch
    have hunstored : ∀ k, u.store.load k = .ok none → s.store.load k = .ok none := by
      intro k hnone
      by_contra hsome
      exact hsome ((hend.keeps hsome).symm.trans hnone)
    obtain ⟨vss, t, hbatches, hall⟩ := ih (fun _ => hslot (List.cons_ne_nil _ _))
      (fun b hb => hend.readable (hrest b hb)) fun b hb hnone => hlater b hb (hunstored _ hnone)
    refine ⟨vs :: vss, t, mapM_of_ok hbatch hbatches, fun hnodup => .cons hcomes ?_⟩
    obtain ⟨hnew, hnodup⟩ := List.nodup_cons.1 hnodup
    have hsame : ∀ b ∈ bs, u.store.load (e.batchKey slot b) = s.store.load (e.batchKey slot b) :=
      fun b hb => hend.frame fun heq => hnew (heq ▸ List.mem_map_of_mem hb)
    refine (List.forall₂_and_left bs vss).2 ⟨hsame, hall hnodup⟩ |>.imp ?_
    rintro b ws ⟨hb, hcomes⟩
    rwa [Comes, hb] at hcomes

end

end BeaconEndpoint

end StakeSnapshot
