import StakeSnapshot.Beacon.Endpoint
import StakeSnapshot.Proofs.Session
import StakeSnapshot.Proofs.Table
import Mathlib.Data.List.Forall2

/-!
# What is read from a beacon node

Readings of a beacon node leave a session sound. `validators_ok` says what the table of validators
holds: the entries that the node answers for one batch of keys after the other, put in this order.
-/

namespace StakeSnapshot

/-! ### Validators from their entries -/

namespace BeaconEndpoint

/-- The validators as rows of their table. -/
def validatorRows (vs : List Validator) : List (String × Validator) :=
  vs.map fun v => (v.pubkey, v)

theorem addEntries_ok {entries : List Value} {found table : Table String Validator}
    (h : addEntries found entries = .ok table) :
    ∃ vs, List.Forall₂ (fun entry v => Validator.ofEntry entry = .ok v) entries vs ∧
      table = found.putAll (validatorRows vs) := by
  induction entries generalizing found with
  | nil =>
    cases h
    exact ⟨[], .nil, rfl⟩
  | cons entry entries ih =>
    rw [addEntries, List.foldlM_cons] at h
    obtain ⟨more, hmore, hrest⟩ := Except.ok_of_bind h
    obtain ⟨v, hv, hput⟩ := Except.ok_of_bind hmore
    cases hput
    obtain ⟨vs, hvs, rfl⟩ := ih hrest
    exact ⟨v :: vs, .cons hv hvs, rfl⟩

variable {out : Outside} {chain : Call → Except Fault Value} {storage : String}
  {readings : List Store.StoredReading} {s t : Session} {e : BeaconEndpoint}

/-! ### Requests -/

/-- A request is answered with data. -/
def Answered (out : Outside) (r : Request) (data : Value) : Prop :=
  ∃ history status body, out.beacon history r = .response status body ∧
    ¬ (400 ≤ status ∧ status < 600) ∧ payload body = .ok data

theorem payload_of_read {body : String} {v : Value} (h : Json.read body.toList = .ok v) :
    payload body = v.field "data" := by
  rw [payload, h]

/-- The data of a response could be read where there is a little less room than there is. -/
theorem decoded_of_payload {body : String} {data : Value} (h : payload body = .ok data) :
    Json.Decoded Json.maxDepth data := by
  unfold payload at h
  split at h
  · next v hv => exact ((Json.decoded_of_read hv).of_field h).mono (Nat.le_succ _)
  · cases h
  · cases h
  · cases h

/-- Whatever is fetched has been read, or is null. -/
theorem decoded_of_fetch {path : String} {keys : Option (List String)} {mayBeMissing : Bool}
    {data : Value} (h : e.fetch out path keys mayBeMissing s = .ok data t) :
    Json.Decoded Json.maxDepth data := by
  obtain ⟨reply, u, -, h⟩ := Reads.ok_of_bind h
  cases reply with
  | broken fault => cases h
  | failed kind message => cases h
  | response status body =>
    dsimp only at h
    split at h
    · cases h
      exact Json.storable_null.decoded
    · split at h
      · cases h
      · exact decoded_of_payload (Reads.ok_of_lift h).1

theorem fetch_ok (hs : s.Sound chain storage readings) {path : String}
    {keys : Option (List String)} {mayBeMissing : Bool} {data : Value}
    (h : e.fetch out path keys mayBeMissing s = .ok data t) :
    (mayBeMissing = false → Answered out ⟨e.base, path, keys, e.timeout⟩ data) ∧
      t.Sound chain storage readings := by
  obtain ⟨reply, u, hreply, h₁⟩ := Reads.ok_of_bind h
  obtain ⟨hanswer, hu⟩ := hs.request hreply
  cases reply with
  | broken fault => cases h₁
  | failed kind message => cases h₁
  | response status body =>
    dsimp only at h₁
    by_cases hmissing : mayBeMissing = true ∧ status = 404
    · rw [if_pos hmissing] at h₁
      cases h₁
      refine ⟨fun hfalse => ?_, hu⟩
      rw [hmissing.1] at hfalse
      cases hfalse
    · rw [if_neg hmissing] at h₁
      by_cases hrefused : 400 ≤ status ∧ status < 600
      · rw [if_pos hrefused] at h₁
        cases h₁
      · rw [if_neg hrefused] at h₁
        obtain ⟨hdata, rfl⟩ := Reads.ok_of_lift h₁
        exact ⟨fun _ => ⟨s.history, status, body, hanswer.symm, hrefused, hdata⟩, hu⟩

theorem fetch_of_response {path : String} {keys : Option (List String)} {status : Int}
    {body : String} {data : Value}
    (h : out.beacon s.history ⟨e.base, path, keys, e.timeout⟩ = .response status body)
    (hstatus : ¬ (400 ≤ status ∧ status < 600)) (hdata : payload body = .ok data) :
    ∃ t, e.fetch out path keys false s = .ok data t := by
  obtain ⟨u, hrequest⟩ : ∃ u, Reads.request out ⟨e.base, path, keys, e.timeout⟩ s =
      .ok (.response status body) u := by
    rw [Reads.request, h]
    exact ⟨_, rfl⟩
  refine ⟨u, ?_⟩
  rw [fetch, Reads.bind_of_ok hrequest]
  dsimp only
  rw [if_neg (by simp), if_neg hstatus, hdata]
  rfl

/-! ### Blocks -/

/-- A block that is not stored is an integer, if there is one. -/
theorem block_ok (hs : s.Sound chain storage readings) {slot : Int} {v : Value}
    (hq : e.useStore = true → ∀ p ∈ readings, p.key ≠ (Store.StoredReading.block e.base slot).key)
    (h : e.block out slot s = .ok v t) :
    (v = .null ∨ ∃ n, v = .int n) ∧ t.Sound chain storage (.block e.base slot :: readings) := by
  obtain ⟨v?, u, hlook, h₁⟩ := Reads.ok_of_bind h
  obtain ⟨rfl, hu⟩ := hs.lookUp hq hlook
  obtain ⟨data, w, hdata, h₂⟩ := Reads.ok_of_bind h₁
  have hw := (fetch_ok hu hdata).2
  split at h₂
  · obtain ⟨rfl, rfl⟩ := Reads.ok_of_pure h₂
    exact ⟨.inl rfl, hw.mono (List.subset_cons_self _ readings)⟩
  · obtain ⟨n, w', hn, h₃⟩ := Reads.ok_of_bind h₂
    obtain ⟨-, rfl⟩ := Reads.ok_of_lift hn
    obtain ⟨_, x, hremember, h₄⟩ := Reads.ok_of_bind h₃
    obtain ⟨rfl, rfl⟩ := Reads.ok_of_pure h₄
    exact ⟨.inr ⟨n, rfl⟩, hw.remember hremember⟩

/-! ### Validators -/

/-- The path at which a beacon node has the validators of a slot. -/
def validatorsPath (slot : Int) : String :=
  "/eth/v1/beacon/states/" ++ numberText slot ++ "/validators"

/-- The request for the validators with the keys of a batch. -/
def batchRequest (e : BeaconEndpoint) (slot : Int) (batch : List String) : Request :=
  ⟨e.base, validatorsPath slot, some batch, e.timeout⟩

theorem batchValue_ok (hs : s.Sound chain storage readings) {slot : Int} {batch : List String}
    {data : Value}
    (hq : e.useStore = true →
      ∀ p ∈ readings, p.key ≠ (Store.StoredReading.validators e.base slot batch).key)
    (h : e.batchValue out batch slot s = .ok data t) :
    Answered out (e.batchRequest slot batch) data ∧
      t.Sound chain storage (.validators e.base slot batch :: readings) := by
  obtain ⟨v?, u, hlook, h₁⟩ := Reads.ok_of_bind h
  obtain ⟨rfl, hu⟩ := hs.lookUp hq hlook
  obtain ⟨found, v, hfetch, h₂⟩ := Reads.ok_of_bind h₁
  obtain ⟨hanswered, hv⟩ := fetch_ok hu hfetch
  obtain ⟨_, w, hremember, h₃⟩ := Reads.ok_of_bind h₂
  obtain ⟨rfl, rfl⟩ := Reads.ok_of_pure h₃
  exact ⟨hanswered rfl, hv.remember hremember⟩

/-- The readings of batches that are stored. -/
def batchReadings (e : BeaconEndpoint) (slot : Int) (bs : List (List String)) :
    List Store.StoredReading :=
  bs.map (.validators e.base slot)

/-- The readings of the batches have keys of their own, which none of the given readings has. -/
def NewBatches (e : BeaconEndpoint) (slot : Int) (readings : List Store.StoredReading)
    (bs : List (List String)) : Prop :=
  ((e.batchReadings slot bs).map (·.key)).Nodup ∧
    ∀ p ∈ readings, ∀ q ∈ e.batchReadings slot bs, p.key ≠ q.key

theorem NewBatches.head {slot : Int} {batch : List String} {bs : List (List String)}
    (h : e.NewBatches slot readings (batch :: bs)) :
    ∀ p ∈ readings, p.key ≠ (Store.StoredReading.validators e.base slot batch).key :=
  fun p hp => h.2 p hp _ List.mem_cons_self

/-- When the first batch has been read, the others are still new. -/
theorem NewBatches.tail {slot : Int} {batch : List String} {bs : List (List String)}
    (h : e.NewBatches slot readings (batch :: bs)) :
    e.NewBatches slot (.validators e.base slot batch :: readings) bs := by
  obtain ⟨hnodup, hapart⟩ := h
  rw [batchReadings, List.map_cons, List.map_cons, List.nodup_cons] at hnodup
  refine ⟨hnodup.2, fun p hp q hq => ?_⟩
  rcases List.mem_cons.1 hp with rfl | hp
  · intro heq
    refine hnodup.1 ?_
    rw [heq]
    exact List.mem_map_of_mem hq
  · exact hapart p hp q (List.mem_cons_of_mem _ hq)

/-- The entries in what a node answers for a batch. -/
def BatchEntries (out : Outside) (e : BeaconEndpoint) (slot : Int) (batch : List String)
    (entries : List Value) : Prop :=
  ∃ data, Answered out (e.batchRequest slot batch) data ∧ data.items = .ok entries

/-- One batch after the other, where all of them are new to the store. -/
theorem batches_ok {slot : Int} {bs : List (List String)} {found table : Table String Validator}
    (hs : s.Sound chain storage readings)
    (hnew : e.useStore = true → e.NewBatches slot readings bs)
    (h : bs.foldlM (e.addBatch out slot) found s = .ok table t) :
    ∃ answers vs, List.Forall₂ (BatchEntries out e slot) bs answers ∧
      List.Forall₂ (fun entry v => Validator.ofEntry entry = .ok v) answers.flatten vs ∧
      table = found.putAll (validatorRows vs) := by
  induction bs generalizing readings s found with
  | nil =>
    obtain ⟨rfl, rfl⟩ := Reads.ok_of_pure h
    exact ⟨[], [], .nil, .nil, rfl⟩
  | cons batch bs ih =>
    rw [List.foldlM_cons] at h
    obtain ⟨more, u, hmore, hrest⟩ := Reads.ok_of_bind h
    obtain ⟨data, u₁, hdata, h₁⟩ := Reads.ok_of_bind hmore
    obtain ⟨entries, u₂, hitems, h₂⟩ := Reads.ok_of_bind h₁
    obtain ⟨hentries, rfl⟩ := Reads.ok_of_lift hitems
    obtain ⟨hadd, rfl⟩ := Reads.ok_of_lift h₂
    obtain ⟨hanswered, hu⟩ := batchValue_ok hs (fun huse => (hnew huse).head) hdata
    obtain ⟨vs, hvs, rfl⟩ := addEntries_ok hadd
    obtain ⟨answers, later, hanswers, hlaterRows, rfl⟩ :=
      ih hu (fun huse => (hnew huse).tail) hrest
    refine ⟨entries :: answers, vs ++ later, .cons ⟨data, hanswered, hentries⟩ hanswers, ?_, ?_⟩
    · rw [List.flatten_cons]
      exact List.rel_append hvs hlaterRows
    · rw [← Table.putAll_append, validatorRows, validatorRows, validatorRows, List.map_append]

/-- A batch that is not stored is added from the response to its request. -/
theorem exists_addBatch {slot : Int} {batch : List String} {status : Int} {body : String}
    {data : Value} {entries : List Value} {found table : Table String Validator}
    (hslot : Number.isWritable slot = true)
    (hstored : s.store.load (Store.StoredReading.validators e.base slot batch).key = .ok none)
    (hreply : ∀ history, out.beacon history (e.batchRequest slot batch) = .response status body)
    (hstatus : ¬ (400 ≤ status ∧ status < 600)) (hdata : payload body = .ok data)
    (hitems : data.items = .ok entries) (hadd : addEntries found entries = .ok table) :
    ∃ t, e.addBatch out slot found batch s = .ok table t := by
  obtain ⟨u, hlook⟩ := Reads.exists_lookUp e.useStore (q := .validators e.base slot batch)
    ((Store.StoredReading.keyFault?_eq_none_iff rfl).2 hslot) hstored
  obtain ⟨v, hfetch⟩ := fetch_of_response (hreply u.history) hstatus hdata
  obtain ⟨w, hremember⟩ :=
    Reads.exists_remember e.useStore (.validators e.base slot batch)
      (decoded_of_payload hdata).depth v
  have hvalue : e.batchValue out batch slot s = .ok data w := by
    refine (Reads.bind_of_ok hlook).trans ?_
    refine (Reads.bind_of_ok hfetch).trans ?_
    exact Reads.bind_of_ok hremember
  refine ⟨w, (Reads.bind_of_ok hvalue).trans ?_⟩
  rw [hitems]
  change (liftM (addEntries found entries) : Reads _) w = _
  rw [hadd]
  rfl

/-- The validators with the given keys, by key. -/
theorem validators_ok {slot : Int} {keys : List String} {table : Table String Validator}
    (hs : s.Sound chain storage readings)
    (hnew : e.useStore = true →
      e.NewBatches slot readings (batches e.batchSize (Table.distinct keys)))
    (h : e.validators out keys slot s = .ok table t) :
    ∃ answers vs,
      List.Forall₂ (BatchEntries out e slot) (batches e.batchSize (Table.distinct keys)) answers ∧
      List.Forall₂ (fun entry v => Validator.ofEntry entry = .ok v) answers.flatten vs ∧
      table = Table.ofRows (validatorRows vs) := by
  exact batches_ok hs hnew h

/-! ### Keys that are texts -/

theorem batches_map {α β : Type} (f : α → β) (size : Nat) (xs : List α) :
    batches size (xs.map f) = (batches size xs).map (List.map f) := by
  fun_induction batches size xs with
  | case1 => rw [List.map_nil, batches, List.map_nil]
  | case2 x rest ih =>
    rw [List.map_cons, batches, ← List.map_take, ← List.map_drop, ih]
    rfl

theorem mapM_text? (batch : List String) : (batch.map Value.text).mapM Value.text? = some batch := by
  induction batch with
  | nil => rfl
  | cons key batch ih =>
    rw [List.map_cons, List.mapM_cons, ih]
    rfl

theorem batchKeys_text (e : BeaconEndpoint) (slot : Int) (batch : List String) :
    e.batchKeys slot (batch.map Value.text) = .ok batch := by
  have hnone : (batch.map Value.text).findIdx? (fun key => key.typeName ≠ "str") = none := by
    simp [Value.typeName]
  rw [batchKeys, hnone, mapM_text?]

theorem eq_map_text_of_mapM {batch : List Value} {keys : List String}
    (h : batch.mapM Value.text? = some keys) : batch = keys.map .text := by
  induction batch generalizing keys with
  | nil => cases h; rfl
  | cons key batch ih =>
    rw [List.mapM_cons] at h
    obtain ⟨k, hk, h⟩ := Option.bind_eq_some_iff.1 h
    obtain ⟨rest, hrest, h⟩ := Option.bind_eq_some_iff.1 h
    cases h
    cases key <;> cases hk
    rw [ih hrest, List.map_cons]

/-- The keys of a batch are made only where all of them are texts. -/
theorem eq_map_text_of_batchKeys {e : BeaconEndpoint} {slot : Int} {batch : List Value}
    {keys : List String} (h : e.batchKeys slot batch = .ok keys) : batch = keys.map .text := by
  unfold batchKeys at h
  split at h
  · cases h
  · split at h
    · next hkeys =>
      cases h
      exact eq_map_text_of_mapM hkeys
    · split at h <;> cases h

/-- The validators with keys from rows that are texts. -/
theorem rowValidators_of_distinct {e : BeaconEndpoint} {out : Outside} {slot : Int}
    {keys : List Value} {texts : List String} (h : Table.distinct keys = texts.map .text) :
    e.rowValidators out keys slot = e.validators out texts slot := by
  have hnodup : texts.Nodup := by
    refine List.Nodup.of_map Value.text ?_
    rw [← h]
    exact Table.nodup_distinct keys
  rw [rowValidators, validators, h, Table.distinct_of_nodup hnodup, batches_map, List.foldlM_map]
  congr 1
  funext found batch
  rw [addRowBatch, batchKeys_text]
  rfl

theorem rowValidators_text (e : BeaconEndpoint) (out : Outside) (keys : List String) (slot : Int) :
    e.rowValidators out (keys.map .text) slot =
      e.validators out (Table.distinct keys) slot :=
  rowValidators_of_distinct (Table.distinct_map_of_injective (fun _ _ h => Value.text.inj h) keys)

/-- Validators are read only where all keys are texts. -/
theorem exists_texts_of_rowValidators {e : BeaconEndpoint} {out : Outside} {slot : Int}
    {keys : List Value} {found : Table String Validator}
    (h : e.rowValidators out keys slot s = .ok found t) :
    ∃ texts : List String, Table.distinct keys = texts.map .text := by
  suffices ∀ (bs : List (List Value)) (s : Session) (before : Table String Validator),
      bs.foldlM (e.addRowBatch out slot) before s = .ok found t →
        ∃ texts : List String, bs.flatten = texts.map .text by
    rw [← flatten_batches e.batchSize (Table.distinct keys)]
    exact this _ _ _ h
  intro bs
  induction bs with
  | nil => exact fun _ _ _ => ⟨[], rfl⟩
  | cons batch bs ih =>
    intro s before h
    rw [List.foldlM_cons] at h
    obtain ⟨more, u, hmore, hrest⟩ := Reads.ok_of_bind h
    obtain ⟨texts, u', htexts, -⟩ := Reads.ok_of_bind hmore
    obtain ⟨later, hlater⟩ := ih _ _ hrest
    refine ⟨texts ++ later, ?_⟩
    rw [List.flatten_cons, hlater, List.map_append,
      eq_map_text_of_batchKeys (Reads.ok_of_lift htexts).1]

end BeaconEndpoint

end StakeSnapshot
