import StakeSnapshot.Proofs.Beacon.Entries
import StakeSnapshot.Proofs.Beacon.Slices
import StakeSnapshot.Proofs.Lookups.Mirror

/-!
# The size of the batches does not matter

A node holds a list of entries and answers a request with those that are asked for, in the order of
the list (`Serves`). An entry is asked for in one batch only, so the entries for a key come in their
order whatever the batches are, and the table has the validator of the last of them (`ListsLast`). A
key of zeros only is not an assigned one: what is listed for it stands under the key for those
(`tableKey`).
-/

namespace StakeSnapshot

open Reads

/-! ### The keys of entries -/

/-- The text of an entry's key, in lower case. -/
def Value.listedKey? (w : Value) : Option (List Char) :=
  match w.field "validator" with
  | .ok part =>
    match part.field "pubkey" with
    | .ok (.text s) => some (Text.lower s.toList)
    | _ => none
  | _ => none

/-- An entry is one for a key. -/
def Value.Names (w : Value) (key : String) : Prop := w.listedKey? = some key.toList

instance (w : Value) (key : String) : Decidable (w.Names key) :=
  inferInstanceAs (Decidable (w.listedKey? = some key.toList))

/-- An entry's key is among the ids that are asked for. -/
def Value.RequestedBy (w : Value) (r : Request) : Prop := ∃ id ∈ r.ids, w.listedKey? = some id

instance (w : Value) (r : Request) : Decidable (w.RequestedBy r) :=
  inferInstanceAs (Decidable (∃ id ∈ r.ids, w.listedKey? = some id))

theorem Value.Names.unique {w : Value} {key key' : String} (h : w.Names key) (h' : w.Names key') :
    key = key' :=
  String.toList_inj.1 (Option.some.inj (h.symm.trans h'))

/-- The validator of an entry for a key in normal form has this key, as tables have it. -/
theorem Validator.pubkey_of_names {w : Value} {v : Validator} {key : String} (hkey : NormalKey key)
    (hw : w.Names key) (hv : ofEntry w = .ok v) : v.pubkey = tableKey key := by
  obtain ⟨part, hpart, ⟨spelled, hspelled, hpubkey⟩, -⟩ := parts_of_ofEntry hv
  rw [Value.Names, Value.listedKey?, hpart] at hw
  dsimp only at hw
  rw [hspelled] at hw
  cases spelled with
  | text s =>
    rw [toPubkey_of_lower hkey (Option.some.inj hw)] at hpubkey
    exact (Except.ok.inj hpubkey).symm
  | _ => cases hw

/-! ### The entries of batches -/

/-- The entries of a list for any of some keys. -/
def entriesFor (held : List Value) (keys : List String) : List Value :=
  held.filter fun w => ∃ key ∈ keys, w.Names key

theorem mem_entriesFor {held : List Value} {keys : List String} {w : Value} :
    w ∈ entriesFor held keys ↔ w ∈ held ∧ ∃ key ∈ keys, w.Names key := by
  rw [entriesFor, List.mem_filter, decide_eq_true_eq]

/-- The entries for one of the keys are all there, in order. -/
theorem filter_entriesFor (held : List Value) (keys : List String) (key : String) :
    (entriesFor held keys).filter (·.Names key) =
      if key ∈ keys then held.filter (·.Names key) else [] := by
  rw [entriesFor, List.filter_filter]
  by_cases hkey : key ∈ keys
  · rw [if_pos hkey]
    refine List.filter_congr fun w _ => ?_
    rw [Bool.and_eq_left_iff_imp, decide_eq_true_eq, decide_eq_true_eq]
    exact fun hw => ⟨key, hkey, hw⟩
  · rw [if_neg hkey, List.filter_eq_nil_iff]
    rintro w - hw
    rw [Bool.and_eq_true, decide_eq_true_eq, decide_eq_true_eq] at hw
    obtain ⟨hw, key', hkey', hw'⟩ := hw
    exact hkey (hw.unique hw' ▸ hkey')

/-- A key is in one batch only, so its entries come once and in order. -/
theorem filter_flatMap_entriesFor (held : List Value) {bs : List (List String)}
    (h : bs.flatten.Nodup) (key : String) :
    (bs.flatMap (entriesFor held)).filter (·.Names key) =
      if key ∈ bs.flatten then held.filter (·.Names key) else [] := by
  induction bs with
  | nil => rfl
  | cons batch bs ih =>
    rw [List.flatten_cons] at h ⊢
    obtain ⟨-, hbs, hapart⟩ := List.nodup_append.1 h
    rw [List.flatMap_cons, List.filter_append, filter_entriesFor, ih hbs]
    by_cases hkey : key ∈ batch
    · have hnew : key ∉ bs.flatten := fun hmem => hapart key hkey key hmem rfl
      rw [if_pos hkey, if_neg hnew, if_pos (List.mem_append_left _ hkey), List.append_nil]
    · rw [if_neg hkey, List.nil_append]
      simp only [List.mem_append, hkey, false_or]

theorem mem_flatMap_entriesFor {held : List Value} {bs : List (List String)} {w : Value} :
    w ∈ bs.flatMap (entriesFor held) ↔ w ∈ entriesFor held bs.flatten := by
  simp only [List.mem_flatMap, mem_entriesFor, List.mem_flatten]
  constructor
  · rintro ⟨batch, hbatch, hw, key, hkey, hnames⟩
    exact ⟨hw, key, ⟨batch, hbatch, hkey⟩, hnames⟩
  · rintro ⟨hw, key, ⟨batch, hbatch, hkey⟩, hnames⟩
    exact ⟨batch, hbatch, hw, key, hkey, hnames⟩

/-! ### The table of the last entries -/

/-- A table has the validator of the last entry for each of some keys, and nothing else. -/
structure ListsLast (held : List Value) (keys : List String) (table : Table String Validator) :
    Prop where
  nodup : table.keys.Nodup
  find_iff : ∀ k v, Table.find? table k = some v ↔ ∃ key ∈ keys, tableKey key = k ∧
    ∃ w, (held.filter (·.Names key)).getLast? = some w ∧ Validator.ofEntry w = .ok v

/-- Two tables of the last entries differ in their order only. -/
theorem ListsLast.perm {held : List Value} {keys : List String} {t u : Table String Validator}
    (ht : ListsLast held keys t) (hu : ListsLast held keys u) : t.Perm u := by
  refine (List.perm_ext_iff_of_nodup (.of_map _ ht.nodup) (.of_map _ hu.nodup)).2 ?_
  rintro ⟨k, v⟩
  rw [← Table.find?_eq_some_iff_mem ht.nodup, ← Table.find?_eq_some_iff_mem hu.nodup, ht.find_iff,
    hu.find_iff]

/-- The last result is the one for the last member. -/
theorem getLast?_eq_some_iff_of_forall₂ {α β : Type} {f : α → Except Fault β} {xs : List α}
    {ys : List β} (h : List.Forall₂ (fun x y => f x = .ok y) xs ys) {y : β} :
    ys.getLast? = some y ↔ ∃ x, xs.getLast? = some x ∧ f x = .ok y := by
  have hreverse := List.forall₂_reverse_iff.2 h
  rw [← List.head?_reverse, ← List.head?_reverse]
  generalize xs.reverse = xs', ys.reverse = ys' at hreverse
  cases hreverse with
  | nil => simp
  | cons hlast _ => simp [hlast]

section
variable {keys : List String} {ws : List Value} {vs : List Validator}
  (hkeys : ∀ key ∈ keys, NormalKey key) (hws : ∀ w ∈ ws, ∃ key ∈ keys, w.Names key)
  (hvs : List.Forall₂ (fun w v => Validator.ofEntry w = .ok v) ws vs)
include hkeys hws hvs

/-- The entries for a key have the validators with the key. -/
theorem forall₂_filter_names {key : String} (hkey : key ∈ keys) :
    List.Forall₂ (fun w v => Validator.ofEntry w = .ok v)
      (ws.filter (·.Names key)) (vs.filter (·.pubkey = tableKey key)) := by
  have hnamed := (List.forall₂_and_left ws vs).2 ⟨hws, hvs⟩
  refine (List.rel_filter ?_ hnamed).imp fun _ _ h => h.2
  rintro w v ⟨⟨own, hown, hw⟩, hv⟩
  dsimp only
  rw [decide_eq_true_eq, decide_eq_true_eq, Validator.pubkey_of_names (hkeys own hown) hw hv]
  constructor
  · intro hw'
    rw [hw.unique hw']
  · intro heq
    exact tableKey_injOn (hkeys own hown) (hkeys key hkey) heq ▸ hw

/-- The table of the validators of entries has for each key the validator of the last entry. -/
theorem find?_ofRows_of_names {k : String} {v : Validator} :
    Table.find? (Table.ofRows (BeaconEndpoint.validatorRows vs)) k = some v ↔
      ∃ key ∈ keys, tableKey key = k ∧
        ∃ w, (ws.filter (·.Names key)).getLast? = some w ∧ Validator.ofEntry w = .ok v := by
  rw [BeaconEndpoint.validatorRows, (Table.lastRows_ofRows (·.pubkey) vs).last]
  constructor
  · intro h
    obtain ⟨hmem, hpubkey⟩ := List.mem_filter.1 (List.mem_of_getLast? h)
    obtain ⟨w, hw, hv⟩ := BeaconEndpoint.exists_of_mem_right hvs hmem
    obtain ⟨key, hkey, hnames⟩ := hws w hw
    have hk : tableKey key = k := by
      rw [← Validator.pubkey_of_names (hkeys key hkey) hnames hv]
      exact of_decide_eq_true hpubkey
    subst hk
    have hlast := forall₂_filter_names hkeys hws hvs hkey
    exact ⟨key, hkey, rfl, (getLast?_eq_some_iff_of_forall₂ hlast).1 h⟩
  · rintro ⟨key, hkey, rfl, hw⟩
    exact (getLast?_eq_some_iff_of_forall₂ (forall₂_filter_names hkeys hws hvs hkey)).2 hw

end

namespace BeaconEndpoint

/-! ### Nodes that serve a list -/

/-- A node answers a request for validators of a slot with exactly those entries of a list whose keys,
in lower case, are among the ids, in the order of the list. -/
def Serves (out : Outside) (base : String) (slot : Int) (held : List Value) : Prop :=
  ∀ history r, r.base = base → r.path = validatorsPath slot → r.keys ≠ none →
    out.data history r = .ok (.list (held.filter (·.RequestedBy r)))

variable {out : Outside} {e e' : BeaconEndpoint} {slot : Int} {held : List Value}
  {keys batch : List String} {s s' : Session}

/-- A node that answers every request with those entries of a list that are asked for. -/
def servingOutside (held : List Value) : Outside where
  chain _ _ := .ok .null
  beacon _ r :=
    let data := Value.list (held.filter (·.RequestedBy r))
    .response 200 (String.ofList
      ((Json.write Json.maxDepth (.record [("data", data)])).toOption.getD []))

theorem serves_servingOutside (h : ∀ w ∈ held, Json.Storable 2 w) (base : String) (slot : Int) :
    Serves (servingOutside held) base slot held := by
  rintro history r - - -
  have hlist : Json.Storable 3 (.list (held.filter (·.RequestedBy r))) :=
    Json.storable_of_items fun w hw => h w (List.mem_filter.1 hw).1
  have hrecord : Json.Storable 4 (.record [("data", .list (held.filter (·.RequestedBy r)))]) :=
    Json.storable_record (List.nodup_singleton "data") (List.forall_mem_singleton.2 hlist)
  obtain ⟨text, htext⟩ := (hrecord.mono (by decide : 4 ≤ Json.maxDepth)).exists_write
  have hregular := hrecord.regular
  have hreply : (servingOutside held).beacon history r = .response 200 (String.ofList text) := by
    dsimp only [servingOutside]
    rw [htext]
    rfl
  have hread : Json.read (String.ofList text).toList = _ :=
    (congrArg Json.read String.toList_ofList).trans (Json.read_of_write hregular htext)
  rw [Outside.data_of_response hreply (by decide), payload_of_read hread]
  rfl

/-- The entry of a validator that has started and has no exit, under a text. -/
def entryUnder (text index : String) : Value :=
  .record [("index", .text index), ("status", .text "on"), ("balance", .text "1"),
    ("validator", .record [("pubkey", .text text), ("effective_balance", .text "1"),
      ("slashed", .bool false), ("activation_epoch", .text "0"), ("exit_epoch", .null),
      ("withdrawable_epoch", .null)])]

theorem storable_entryUnder (text index : String) : Json.Storable 2 (entryUnder text index) := by
  have hvalidator : Json.Storable 1 (.record [("pubkey", .text text),
      ("effective_balance", .text "1"), ("slashed", .bool false), ("activation_epoch", .text "0"),
      ("exit_epoch", .null), ("withdrawable_epoch", .null)]) := by
    refine Json.storable_record (by simp) ?_
    simp only [List.forall_mem_cons, Json.storable_text, Json.storable_null, Json.storable_bool,
      List.not_mem_nil, false_imp_iff, implies_true, and_self]
  refine Json.storable_record (by simp) ?_
  simp only [List.forall_mem_cons, Json.storable_text, hvalidator, List.not_mem_nil, false_imp_iff,
    implies_true, and_self]

/-- Two keys that are assigned, and the one of zeros only. -/
def firstKey : String := String.ofList (keyChars (List.replicate 48 0xab))

def secondKey : String := String.ofList (keyChars (List.replicate 48 0xcd))

def zeroKey : String := String.ofList (keyChars (List.replicate 48 0))

/-- Two entries for one key in different spellings. -/
def twiceListed : List Value :=
  [entryUnder (String.ofList ('0' :: 'X' :: (List.replicate 48 ['A', 'b']).flatten)) "1",
    entryUnder firstKey "2"]

theorem names_twiceListed : ∀ w ∈ twiceListed, w.Names firstKey := by
  simp only [twiceListed, List.forall_mem_cons]
  exact ⟨by decide +kernel, by decide +kernel, List.forall_mem_nil _⟩

theorem exists_ofEntry_twiceListed : ∀ w ∈ twiceListed, ∃ v, Validator.ofEntry w = .ok v := by
  simp only [twiceListed, List.forall_mem_cons]
  exact ⟨⟨⟨firstKey, 1, "on", 1, 1, false, 0, farFutureEpoch, farFutureEpoch⟩, by decide +kernel⟩,
    ⟨⟨firstKey, 2, "on", 1, 1, false, 0, farFutureEpoch, farFutureEpoch⟩, by decide +kernel⟩,
    List.forall_mem_nil _⟩

/-- An endpoint that asks for one key at a time, and one that asks for many and uses the store. -/
def keyByKey : BeaconEndpoint := ⟨"http://node:5052", 30, 1, false, Nat.one_pos⟩

def allAtOnce : BeaconEndpoint := ⟨"http://node:5052", 30, 50, true, by decide⟩

/-! ### Batches of a node that serves a list -/

theorem flatten_batchesOf (e : BeaconEndpoint) (keys : List String) :
    (e.batchesOf keys).flatten = Table.distinct keys :=
  flatten_batches e.batchSize (Table.distinct keys)

theorem batchesOf_nil (e : BeaconEndpoint) : e.batchesOf [] = [] := by
  rw [batchesOf, show Table.distinct ([] : List String) = [] from rfl, batches]

theorem batchesOf_ne_nil (e : BeaconEndpoint) (h : keys ≠ []) : e.batchesOf keys ≠ [] := by
  intro hnil
  obtain ⟨key, hkey⟩ := List.exists_mem_of_ne_nil keys h
  have hmem : key ∈ (e.batchesOf keys).flatten := by
    rw [flatten_batchesOf]
    exact Table.mem_distinct.2 hkey
  rw [hnil] at hmem
  cases hmem

/-- The answer for a batch are the entries for its keys. -/
theorem Serves.data_batchRequest (h : Serves out e.base slot held)
    (hkeys : ∀ key ∈ keys, NormalKey key) (hbatch : batch ∈ e.batchesOf keys) (history : History) :
    out.data history (e.batchRequest slot batch) = .ok (.list (entriesFor held batch)) := by
  obtain ⟨hne, hsub⟩ := of_mem_batches e.positive hbatch
  have hids : (e.batchRequest slot batch).ids = batch.map String.toList :=
    splitOn_intercalate_keys hne fun key hkey =>
      (hkeys key (Table.mem_distinct.1 (hsub hkey))).comma_notMem
  rw [h history (e.batchRequest slot batch) rfl rfl nofun, entriesFor]
  refine congrArg (fun ws => Except.ok (Value.list ws)) (List.filter_congr fun w _ => ?_)
  refine decide_eq_decide.2 ?_
  rw [Value.RequestedBy, hids]
  simp only [List.mem_map, exists_exists_and_eq_and]
  exact Iff.rfl

/-- How asking for validators ends, of a node that serves a list: with the table of the last entries,
if the slot can be asked about and all entries that are asked for can be read. The batches are slices of the distinct keys in order of
first appearance, and without the store they are what is asked for, one after the other. -/
structure Batched (e : BeaconEndpoint) (slot : Int) (held : List Value) (keys : List String)
    (s : Session) (result : Except Fault (Table String Validator)) (t : Session) : Prop where
  ok_iff : (∃ table, result = .ok table) ↔
    (keys = [] ∨ Number.isWritable slot = true) ∧
      ∀ w ∈ entriesFor held keys, ∃ v, Validator.ofEntry w = .ok v
  lists : ∀ table, result = .ok table → ListsLast held keys table
  firsts : FirstsAmong (fun _ => True) keys (e.batchesOf keys).flatten
  slices : Slices e.batchSize (e.batchesOf keys).flatten (e.batchesOf keys)
  asked : e.useStore = false → ∃ read, read <+: e.batchesOf keys ∧
    t.history = s.history ++ read.map (e.entryOf slot s) ∧
    ∀ table, result = .ok table → read = e.batchesOf keys

/-- The rows of the batches can be read exactly if all entries can. -/
theorem exists_rows_iff :
    (∃ vss, ((e.batchesOf keys).mapM fun b => listed (.list (entriesFor held b))) = .ok vss) ↔
      ∀ w ∈ entriesFor held keys, ∃ v, Validator.ofEntry w = .ok v := by
  have hmem : ∀ w, w ∈ entriesFor held keys ↔
      ∃ b ∈ e.batchesOf keys, w ∈ entriesFor held b := by
    intro w
    rw [← List.mem_flatMap, mem_flatMap_entriesFor, flatten_batchesOf]
    simp only [mem_entriesFor, Table.mem_distinct]
  rw [exists_mapM_ok_iff]
  simp only [hmem]
  constructor
  · rintro h w ⟨b, hb, hw⟩
    exact exists_mapM_ok_iff.1 (h b hb) w hw
  · intro h b hb
    exact exists_mapM_ok_iff.2 fun w hw => h w ⟨b, hb, hw⟩

/-- The table of the rows of the batches is the table of the last entries. -/
theorem listsLast_of_rows (hkeys : ∀ key ∈ keys, NormalKey key) {vss : List (List Validator)}
    (h : ((e.batchesOf keys).mapM fun b => listed (.list (entriesFor held b))) = .ok vss) :
    ListsLast held keys (Table.ofRows (validatorRows vss.flatten)) := by
  have hrows : List.Forall₂ (fun w v => Validator.ofEntry w = .ok v)
      ((e.batchesOf keys).flatMap (entriesFor held)) vss.flatten := by
    refine List.rel_flatten (List.forall₂_map_left_iff.2 ?_)
    exact (forall₂_of_mapM h).imp fun b vs hvs => forall₂_of_mapM hvs
  have hnamed : ∀ w ∈ (e.batchesOf keys).flatMap (entriesFor held), ∃ key ∈ keys, w.Names key := by
    intro w hw
    rw [mem_flatMap_entriesFor, flatten_batchesOf, mem_entriesFor] at hw
    obtain ⟨-, key, hkey, hnames⟩ := hw
    exact ⟨key, Table.mem_distinct.1 hkey, hnames⟩
  refine ⟨Table.nodup_keys_ofRows _, fun k v => ?_⟩
  rw [find?_ofRows_of_names hkeys hnamed hrows]
  refine exists_congr fun key => and_congr_right fun hkey => ?_
  rw [filter_flatMap_entriesFor held (flatten_batchesOf e keys ▸ Table.nodup_distinct keys),
    flatten_batchesOf, if_pos (Table.mem_distinct.2 hkey)]

theorem exists_batched (hserves : Serves out e.base slot held)
    (hkeys : ∀ key ∈ keys, NormalKey key)
    (hs : e.Faithful slot (fun b => .list (entriesFor held b)) s.store (e.batchesOf keys)) :
    ∃ result t, e.validators out keys slot s = Sources.ended result t ∧
      e.Batched slot held keys s result t := by
  have hfirsts : FirstsAmong (fun _ => True) keys (e.batchesOf keys).flatten := by
    rw [flatten_batchesOf, Table.distinct_eq_eraseDups]
    exact firstsAmong_eraseDups keys
  have hslices : Slices e.batchSize (e.batchesOf keys).flatten (e.batchesOf keys) := by
    rw [flatten_batchesOf]
    exact slices_batches e.positive _
  -- without keys there is no request, and the slot need not be written
  by_cases hslot : keys = [] ∨ Number.isWritable slot = true
  · obtain ⟨read, t, hread, hprefix, hall, hhistory⟩ := exists_batches_of_faithful
      (fun hne => hslot.resolve_left fun hnil => hne (by rw [hnil]; exact batchesOf_nil e))
      (fun history b hb => hserves.data_batchRequest hkeys hb history) hs
    cases hrows : (e.batchesOf keys).mapM fun b => listed (.list (entriesFor held b)) with
    | error fault =>
      rw [hrows] at hread
      refine ⟨.error fault, t, validators_of_error hread,
        ⟨?_, nofun, hfirsts, hslices, fun huse => ⟨read, hprefix, hhistory huse, nofun⟩⟩⟩
      rw [and_iff_right hslot, ← exists_rows_iff (e := e), hrows]
      exact iff_of_false nofun nofun
    | ok vss =>
      rw [hrows] at hread
      refine ⟨.ok (Table.ofRows (validatorRows vss.flatten)), t, validators_of_ok hread,
        ⟨?_, ?_, hfirsts, hslices, fun huse =>
          ⟨read, hprefix, hhistory huse, fun _ _ => hall vss hrows⟩⟩⟩
      · rw [and_iff_right hslot, ← exists_rows_iff (e := e), hrows]
        exact iff_of_true ⟨_, rfl⟩ ⟨_, rfl⟩
      · rintro table ⟨⟩
        exact listsLast_of_rows hkeys hrows
  · -- not even the first batch is asked for
    obtain ⟨hne, hlong⟩ := not_or.1 hslot
    obtain ⟨batch, rest, hbatches⟩ := List.exists_cons_of_ne_nil (batchesOf_ne_nil e hne)
    have hread : (e.batchesOf keys).mapM (e.batchRows out slot) s = .error .numberTooLong s := by
      rw [hbatches, List.mapM_cons]
      exact bind_of_error (batchRows_of_long (Bool.eq_false_iff.2 hlong) s)
    refine ⟨.error .numberTooLong, s, validators_of_error hread,
      ⟨iff_of_false nofun fun h => hslot h.1, nofun, hfirsts, hslices, fun _ =>
        ⟨[], List.nil_prefix, (List.append_nil _).symm, nofun⟩⟩⟩

/-- The size of the batches does not matter. Two endpoints of a node that serves a list either both read
the validators of keys in normal form or both do not, and their tables differ in their order only. -/
theorem validators_batched (hserves : Serves out e.base slot held) (hbase : e'.base = e.base)
    (hkeys : ∀ key ∈ keys, NormalKey key)
    (hs : e.Faithful slot (fun b => .list (entriesFor held b)) s.store (e.batchesOf keys))
    (hs' : e'.Faithful slot (fun b => .list (entriesFor held b)) s'.store (e'.batchesOf keys)) :
    ∃ result t result' t',
      e.validators out keys slot s = Sources.ended result t ∧
      e'.validators out keys slot s' = Sources.ended result' t' ∧
      e.Batched slot held keys s result t ∧ e'.Batched slot held keys s' result' t' ∧
      ((∃ table, result = .ok table) ↔ ∃ table, result' = .ok table) ∧
      ∀ table table', result = .ok table → result' = .ok table' → table.Perm table' := by
  obtain ⟨result, t, hread, hbatched⟩ := exists_batched hserves hkeys hs
  obtain ⟨result', t', hread', hbatched'⟩ := exists_batched (hbase ▸ hserves) hkeys hs'
  refine ⟨result, t, result', t', hread, hread', hbatched, hbatched', ?_, ?_⟩
  · rw [hbatched.ok_iff, hbatched'.ok_iff]
  · intro table table' htable htable'
    exact (hbatched.lists table htable).perm (hbatched'.lists table' htable')

/-- Both find the last entry for the key that is listed twice, and none for the other one. -/
theorem validators_batched_twiceListed :
    Serves (servingOutside twiceListed) keyByKey.base 64 twiceListed ∧
    (∀ key ∈ [secondKey, firstKey, secondKey], NormalKey key) ∧
    allAtOnce.Faithful 64 (fun b => .list (entriesFor twiceListed b)) (Session.start .empty).store
      (allAtOnce.batchesOf [secondKey, firstKey, secondKey]) ∧
    ∃ table t table' t',
      keyByKey.validators (servingOutside twiceListed) [secondKey, firstKey, secondKey] 64
        (.start .empty) = .ok table t ∧
      allAtOnce.validators (servingOutside twiceListed) [secondKey, firstKey, secondKey] 64
        (.start .empty) = .ok table' t' ∧
      table.Perm table' ∧
      Table.find? table firstKey =
        some ⟨firstKey, 2, "on", 1, 1, false, 0, farFutureEpoch, farFutureEpoch⟩ ∧
      Table.find? table secondKey = none := by
  have hserves : Serves (servingOutside twiceListed) keyByKey.base 64 twiceListed :=
    serves_servingOutside (List.forall_mem_cons.2 ⟨storable_entryUnder _ _,
      List.forall_mem_singleton.2 (storable_entryUnder _ _)⟩) _ _
  have hbase : allAtOnce.base = keyByKey.base := rfl
  have hkeys : ∀ key ∈ [secondKey, firstKey, secondKey], NormalKey key := by
    have hfirst : NormalKey firstKey := normalKey_ofList rfl
    have hsecond : NormalKey secondKey := normalKey_ofList rfl
    simp [hfirst, hsecond]
  have hbatches : allAtOnce.batchesOf [secondKey, firstKey, secondKey] = [[secondKey, firstKey]] := by
    have hdistinct : Table.distinct [secondKey, firstKey, secondKey] = [secondKey, firstKey] := by
      decide +kernel
    rw [batchesOf, hdistinct, show allAtOnce.batchSize = 50 from rfl]
    simp [batches]
  have hnoStore : keyByKey.Faithful 64 (fun b => .list (entriesFor twiceListed b))
      (Session.start .empty).store (keyByKey.batchesOf [secondKey, firstKey, secondKey]) := by
    rintro ⟨⟩
  have hstore : allAtOnce.Faithful 64 (fun b => .list (entriesFor twiceListed b))
      (Session.start .empty).store (allAtOnce.batchesOf [secondKey, firstKey, secondKey]) := by
    refine fun _ => ⟨fun _ _ => ⟨none, rfl, by rintro v ⟨⟩⟩, ?_⟩
    rw [hbatches]
    exact List.nodup_singleton _
  obtain ⟨result, t, result', t', hread, hread', hbatched, hbatched', hiff, hperm⟩ :=
    validators_batched hserves hbase hkeys hnoStore hstore
  obtain ⟨table, rfl⟩ := hbatched.ok_iff.2 ⟨.inr rfl, fun w hw =>
    exists_ofEntry_twiceListed w (mem_entriesFor.1 hw).1⟩
  obtain ⟨table', rfl⟩ := hiff.1 ⟨table, rfl⟩
  have hlists := hbatched.lists table rfl
  refine ⟨hserves, hkeys, hstore, table, t, table', t', hread, hread', hperm table table' rfl rfl,
    ?_, ?_⟩
  · refine (hlists.find_iff _ _).2 ⟨firstKey, by simp, by decide +kernel, ?_⟩
    rw [List.filter_eq_self.2 fun w hw => decide_eq_true (names_twiceListed w hw)]
    exact ⟨_, rfl, by decide +kernel⟩
  · rw [Option.eq_none_iff_forall_ne_some]
    intro v hv
    obtain ⟨key, hkey, heq, w, hw, -⟩ := (hlists.find_iff _ _).1 hv
    have hmem := List.mem_filter.1 (List.mem_of_getLast? hw)
    -- the entry is one for the first key, which is not the key of this place of the table
    rw [← (names_twiceListed w hmem.1).unique (of_decide_eq_true hmem.2)] at heq
    exact absurd heq (by decide +kernel)

/-- What is listed for the key of zeros only is found under the key that is not assigned, which was not
asked for, and nothing is found under the key that was. -/
theorem validators_zeroKey :
    Serves (servingOutside [entryUnder zeroKey "1"]) keyByKey.base 64 [entryUnder zeroKey "1"] ∧
    NormalKey zeroKey ∧ (entryUnder zeroKey "1").Names zeroKey ∧
    ∃ table t, keyByKey.validators (servingOutside [entryUnder zeroKey "1"]) [zeroKey] 64
        (.start .empty) = .ok table t ∧
      Table.find? table zeroKey = none ∧ unassignedPubkey ∈ table.keys ∧
      unassignedPubkey ∉ [zeroKey] := by
  have hserves : Serves (servingOutside [entryUnder zeroKey "1"]) keyByKey.base 64
      [entryUnder zeroKey "1"] :=
    serves_servingOutside (List.forall_mem_singleton.2 (storable_entryUnder _ _)) _ _
  have hkey : NormalKey zeroKey := normalKey_ofList rfl
  have hnames : (entryUnder zeroKey "1").Names zeroKey := by decide +kernel
  have hunassigned : tableKey zeroKey = unassignedPubkey := by decide +kernel
  have hv : Validator.ofEntry (entryUnder zeroKey "1") =
      .ok ⟨unassignedPubkey, 1, "on", 1, 1, false, 0, farFutureEpoch, farFutureEpoch⟩ := by
    decide +kernel
  obtain ⟨result, t, hread, hbatched⟩ := exists_batched (e := keyByKey) (s := .start .empty) hserves
    (List.forall_mem_singleton.2 hkey) nofun
  obtain ⟨table, rfl⟩ := hbatched.ok_iff.2 ⟨.inr rfl, fun w hw => by
    rw [List.mem_singleton.1 (mem_entriesFor.1 hw).1]
    exact ⟨_, hv⟩⟩
  have hlists := hbatched.lists table rfl
  refine ⟨hserves, hkey, hnames, table, t, hread, ?_, ?_, by decide +kernel⟩
  · rw [Option.eq_none_iff_forall_ne_some]
    intro v hfind
    obtain ⟨key, hmem, heq, -⟩ := (hlists.find_iff _ _).1 hfind
    rw [List.mem_singleton.1 hmem, hunassigned] at heq
    exact absurd heq (by decide +kernel)
  · rw [Table.mem_keys_iff, Option.isSome_iff_exists]
    refine ⟨_, (hlists.find_iff _ _).2 ⟨zeroKey, List.mem_singleton_self _, hunassigned, _, ?_, hv⟩⟩
    simp [hnames]

end BeaconEndpoint

end StakeSnapshot
