import StakeSnapshot.Proofs.Beacon.Entries
import StakeSnapshot.Proofs.Snapshot.Run
import StakeSnapshot.Proofs.Stake.Live
import StakeSnapshot.Proofs.Value

/-!
# Eligibility across the two layers

A minipool that is staking on the chain counts if the beacon node holds an active validator for its
key. The chain has the key as bytes, the node as text; on the way from one to the other it is spelled
in one way, asked for in batches, parsed, and looked up. The main statement is
`Snapshot.standing_eligible_iff`: a row of a snapshot counts exactly if this is so at its index.
-/

namespace StakeSnapshot

open Contracts BeaconEndpoint

/-- Whatever the chain answers about the key of a minipool has the length of a key. -/
def AnswersPubkeys (chain : Call → Except Fault Value) : Prop :=
  ∀ manager address block v,
    chain ⟨manager, ViewFunction.minipoolPubkey.name, some (.value address), block⟩ = .ok v →
      ∃ form octets, v = .bytes form octets ∧ octets.length = pubkeyLength

/-- At a block, the chain says of a minipool that it exists, is staking, and has a key which is not
all zeros. -/
def StakingAt (chain : Call → Except Fault Value) (storage : String) (block : Value) (i : Nat)
    (key : List UInt8) : Prop :=
  ∃ manager address form, Registered chain storage minipoolManager block manager ∧
    chain ⟨manager, ViewFunction.minipoolAt.name, some (.index i), block⟩ = .ok address ∧
    (∃ v, chain ⟨manager, ViewFunction.minipoolExists.name, some (.value address), block⟩ = .ok v ∧
      v.truth = true) ∧
    (∃ v, chain ⟨address, ViewFunction.minipoolStatus.name, none, block⟩ = .ok v ∧
      v.toInteger 0 = .ok 2) ∧
    chain ⟨manager, ViewFunction.minipoolPubkey.name, some (.value address), block⟩ =
      .ok (.bytes form key) ∧
    ∃ octet ∈ key, octet ≠ 0

/-- A minipool has what decides whether a row counts: its addresses and deposits do not matter. -/
structure MinipoolRow.Shows (row : MinipoolRow) (m : Minipool) : Prop where
  pubkey : row.pubkey = .text m.pubkey
  present : row.present.truth = m.present
  status : row.status = m.status

/-- A snapshot has what decides which rows of another one count: their lists do not matter. -/
structure RowSnapshot.Shows (rows : RowSnapshot) (s : Snapshot) : Prop where
  slot : rows.slot = s.slot
  timing : rows.timing = s.timing
  validators : rows.validators = s.validators

/-- The minipool of a row has what decides whether the row counts. -/
theorem MinipoolRow.Shows.of_minipool {row : MinipoolRow} {m : Minipool} (h : row.minipool? = some m) :
    row.Shows m := by
  obtain ⟨address, -, h⟩ := Option.bind_eq_some_iff.1 h
  obtain ⟨owner, -, h⟩ := Option.bind_eq_some_iff.1 h
  obtain ⟨pubkey, hpubkey, h⟩ := Option.bind_eq_some_iff.1 h
  obtain ⟨borrowed, -, h⟩ := Option.bind_eq_some_iff.1 h
  obtain ⟨bonded, -, h⟩ := Option.bind_eq_some_iff.1 h
  cases h
  refine ⟨?_, rfl, rfl⟩
  generalize row.pubkey = v at hpubkey
  cases v <;> cases hpubkey
  rfl

/-- The nodes and minipools of a snapshot do not change what decides which rows count. -/
theorem RowSnapshot.Shows.of_typed {rows : RowSnapshot} {s : Snapshot} (h : rows.typed? = some s) :
    rows.Shows s := by
  obtain ⟨nodes, -, h⟩ := Option.bind_eq_some_iff.1 h
  obtain ⟨minipools, -, h⟩ := Option.bind_eq_some_iff.1 h
  cases h
  exact ⟨rfl, rfl, rfl⟩

theorem exists_ne_zero_iff {octets : List UInt8} :
    (∃ octet ∈ octets, octet ≠ 0) ↔ ¬ octets.all (· == 0) := by
  simp

theorem MinipoolStatus.code_eq_two_iff {status : MinipoolStatus} :
    status.code = 2 ↔ status = .staking := by
  cases status <;> simp [code]

theorem Registered.unique {chain : Call → Except Fault Value} {storage contract : String}
    {block address address' : Value}
    (h : Registered chain storage contract block address)
    (h' : Registered chain storage contract block address') : address = address' := by
  rw [Registered, h] at h'
  cases h'
  rfl

section
variable {chain : Call → Except Fault Value} {storage : String} {manager block : Value}
  {rows : List MinipoolRow} (hpubkeys : AnswersPubkeys chain)

include hpubkeys in
/-- The key of a row is the one spelling of the bytes that the chain has. -/
theorem MinipoolRow.IsRow.exists_key {row : MinipoolRow} (h : row.IsRow chain manager block) :
    ∃ form octets,
      chain ⟨manager, ViewFunction.minipoolPubkey.name, some (.value row.address), block⟩ =
        .ok (.bytes form octets) ∧ row.pubkey = .text (pubkeyOf octets) := by
  obtain ⟨v, hanswer, hkey⟩ := h.pubkey
  obtain ⟨form, octets, rfl, hlength⟩ := hpubkeys _ _ _ v hanswer
  rw [Value.pubkeyForm, toPubkey_bytes hlength] at hkey
  · exact ⟨form, octets, hanswer, (Except.ok.inj hkey).symm⟩
  · rintro points ⟨⟩

include hpubkeys in
/-- Each row has a key that is a text, and is there or not. -/
theorem MinipoolRow.IsRow.exists_shows {row : MinipoolRow} (h : row.IsRow chain manager block) :
    ∃ m, row.Shows m := by
  obtain ⟨form, octets, -, hkey⟩ := h.exists_key hpubkeys
  exact ⟨⟨"", "", pubkeyOf octets, row.present.truth, row.status, 0, 0⟩, hkey, rfl, rfl⟩

include hpubkeys in
theorem assigned_textKeys {s : RowSnapshot}
    (hindex : RowLookups.ofRows s.nodes s.minipools = .ok s.lookups)
    (h : MinipoolRow.AreRows chain manager block s.minipools) : Assigned s.textKeys := by
  intro key hkey
  obtain ⟨⟨row, hrow, hpubkey⟩, hassigned⟩ := (RowSnapshot.mem_textKeys_iff hindex).1 hkey
  obtain ⟨i, hi, rfl⟩ := List.getElem_of_mem hrow
  obtain ⟨form, octets, -, hspelled⟩ := (h.2 i hi).2.exists_key hpubkeys
  rw [hpubkey] at hspelled
  cases hspelled
  exact ⟨octets, pubkeyOf_ne_unassigned_iff.1 hassigned, rfl⟩

include hpubkeys in
/-- What a row says of its minipool is what the chain says of it. -/
theorem stakingAt_iff (hmanager : Registered chain storage minipoolManager block manager)
    (h : MinipoolRow.AreRows chain manager block rows) {i : Nat} (hi : i < rows.length)
    {key : List UInt8} :
    StakingAt chain storage block i key ↔
      rows[i].present.truth = true ∧ rows[i].status = .staking ∧ ¬ key.all (· == 0) ∧
        rows[i].pubkey = .text (pubkeyOf key) := by
  obtain ⟨haddress, hrow⟩ := h.2 i hi
  obtain ⟨present, hpresent, htruth⟩ := hrow.present
  obtain ⟨status, hstatus, hcode⟩ := hrow.status
  obtain ⟨form, octets, hanswer, hspelled⟩ := hrow.exists_key hpubkeys
  rw [htruth]
  constructor
  · rintro ⟨manager', address, form', hmanager', hat, ⟨v, hv, hvtruth⟩, ⟨w, hw, hwcode⟩, hkey, hne⟩
    cases hmanager'.unique hmanager
    rw [haddress] at hat
    cases hat
    rw [hpresent] at hv
    cases hv
    rw [hstatus] at hw
    cases hw
    rw [hanswer] at hkey
    cases hkey
    rw [hcode] at hwcode
    refine ⟨hvtruth, ?_, exists_ne_zero_iff.1 hne, hspelled⟩
    exact MinipoolStatus.code_eq_two_iff.1 (Except.ok.inj hwcode)
  · rintro ⟨hp, hs, hzero, hkey⟩
    have hbytes : octets = key := by
      rw [hkey] at hspelled
      exact (eq_of_pubkeyOf_eq hzero (Value.text.inj hspelled)).symm
    rw [hbytes] at hanswer
    refine ⟨manager, rows[i].address, form, hmanager, haddress, ⟨present, hpresent, hp⟩,
      ⟨status, hstatus, ?_⟩, hanswer, exists_ne_zero_iff.2 hzero⟩
    rw [hcode, hs]
    rfl

end

namespace Snapshot

variable {out : Outside} {chain : Call → Except Fault Value} {e : BeaconEndpoint} {r : ChainReader}
  {slot : Int} {timing : ChainTiming} {held : List BeaconEntry} {rows : RowSnapshot} {t : Session}

/-- Take a chain whose answers depend on the calls alone, and a beacon node that holds at most one
entry for each key and answers with those that are asked for. In a snapshot that is read from both,
with or without a store that is empty at first, there is a row for each minipool of the chain, and it
counts exactly if the chain says that the minipool is staking with some key, and the node holds an
entry for this key which is active in the epoch of the slot. If readings are stored, their digests
must not coincide where the texts differ. -/
theorem standing_eligible_iff (hchain : ∀ history c, out.chain history c = chain c)
    (hpubkeys : AnswersPubkeys chain) (hheld : (held.map (·.key)).Nodup)
    (hanswers : AnswersFrom out e slot held) (hepochs : timing.slotsPerEpoch ≠ 0)
    (hdigests : e.useStore = true ∨ r.useStore = true →
      Store.Separates (Store.snapshotReadings e.base r.storage slot rows.block
        (batches e.batchSize rows.textKeys)))
    (h : (Sources.ofReaders out e r).snapshot slot timing (Session.start .empty) = .ok rows t) :
    (∃ manager, Registered chain r.storage minipoolManager rows.block manager ∧
      MinipoolRow.AreRows chain manager rows.block rows.minipools) ∧
    (∀ row ∈ rows.minipools, ∃ m, row.Shows m) ∧
    ∀ s : Snapshot, rows.Shows s →
      ∀ (i : Nat) (hi : i < rows.minipools.length) (m : Minipool), rows.minipools[i].Shows m →
        (s.standing m = .ok .eligible ↔
          ∃ key, StakingAt chain r.storage rows.block i key ∧
            ∃ b ∈ held, b.key = key ∧ b.ActiveIn (slot.fdiv timing.slotsPerEpoch)) := by
  obtain ⟨⟨manager, hmanager, hrows⟩, hvalidators⟩ := Sources.readers_snapshot_ok hchain hdigests h
  obtain ⟨hslot, htiming, -, hindex, -⟩ := Sources.snapshot_ok h
  have hassigned := assigned_textKeys hpubkeys hindex hrows
  obtain ⟨answers, vs, hbatches, hvs, htable⟩ := hvalidators hassigned.comma_notMem
  refine ⟨⟨manager, hmanager, hrows⟩, fun row hrow => ?_, fun s hs i hi m hm => ?_⟩
  · obtain ⟨i, hi, rfl⟩ := List.getElem_of_mem hrow
    exact (hrows.2 i hi).2.exists_shows hpubkeys
  have hepoch : s.slotEpoch = slot.fdiv timing.slotsPerEpoch := by
    rw [slotEpoch, ← hs.slot, ← hs.timing, hslot, htiming]
  rw [← htiming, hs.timing] at hepochs
  rw [standing_eq_eligible_iff hepochs, Live, hepoch, validatorOf, ← hs.validators, htable,
    ← hm.present, ← hm.status]
  constructor
  · rintro ⟨hpresent, hstaking, v, hfind, hactive⟩
    -- the key that was looked up is the spelling of the bytes that the chain has answered with
    obtain ⟨form, octets, -, hspelled⟩ := (hrows.2 i hi).2.exists_key hpubkeys
    have hkey := ((find?_validators_iff hanswers hassigned hheld hbatches hvs).1 hfind).1
    have hsame : m.pubkey = pubkeyOf octets := Value.text.inj (hm.pubkey.symm.trans hspelled)
    have hzero : ¬ octets.all (· == 0) := by
      rw [← pubkeyOf_ne_unassigned_iff, ← hsame]
      exact ((RowSnapshot.mem_textKeys_iff hindex).1 hkey).2
    rw [hsame] at hfind hkey
    refine ⟨octets, ?_, ?_⟩
    · exact (stakingAt_iff hpubkeys hmanager hrows hi).2 ⟨hpresent, hstaking, hzero, hspelled⟩
    · exact (exists_active_iff hanswers hassigned hheld hbatches hvs hzero hkey).1
        ⟨v, hfind, hactive⟩
  · rintro ⟨octets, hchainStaking, hnode⟩
    obtain ⟨hpresent, hstaking, hzero, hspelled⟩ :=
      (stakingAt_iff hpubkeys hmanager hrows hi).1 hchainStaking
    have hkey : pubkeyOf octets ∈ rows.textKeys :=
      (RowSnapshot.mem_textKeys_iff hindex).2
        ⟨⟨_, List.getElem_mem hi, hspelled⟩, pubkeyOf_ne_unassigned_iff.2 hzero⟩
    rw [Value.text.inj (hm.pubkey.symm.trans hspelled)]
    exact ⟨hpresent, hstaking,
      (exists_active_iff hanswers hassigned hheld hbatches hvs hzero hkey).2 hnode⟩

/-! ### One minipool and its validator -/

/-- What each function answers, whatever it is asked; all others answer zero. -/
def onePoolAnswers : Table String Value :=
  [("getAddress", .text "0x01"), ("getRPLPrice", .int 1), ("getMinipoolCount", .int 1),
    ("getMinipoolAt", .text "0x02"), ("getNodeAddress", .text "0x03"), ("getNodeAt", .text "0x03"),
    ("getMinipoolPubkey", .bytes .constant (List.replicate 48 0xab)),
    ("getMinipoolExists", .bool true), ("getStatus", .int 2)]

/-- A chain with one minipool, which is staking. -/
def onePoolChain (c : Call) : Except Fault Value :=
  .ok ((Table.find? onePoolAnswers c.function).getD (.int 0))

/-- The key of the minipool as a node spells it. -/
def mixedCase : List Char := '0' :: 'x' :: (List.replicate 48 ['A', 'b']).flatten

/-- The text of the answer of a node with one entry, up to the key and from it on. -/
def oneEntryText : List Char :=
  "\x7b\"data\":[\x7b\"index\":\"1\",\"status\":\"on\",\"balance\":\"1\",\"validator\":\x7b\"pubkey\":\"".toList ++
    mixedCase ++
  "\",\"effective_balance\":\"1\",\"slashed\":false,\"activation_epoch\":\"0\",\"exit_epoch\":null,\"withdrawable_epoch\":null\x7d\x7d]\x7d".toList

/-- The entry of a validator that has started and has no exit. -/
def oneEntry : BeaconEntry where
  value := .record [("index", .text "1"), ("status", .text "on"), ("balance", .text "1"),
    ("validator", .record [("pubkey", .text (String.ofList mixedCase)),
      ("effective_balance", .text "1"), ("slashed", .bool false), ("activation_epoch", .text "0"),
      ("exit_epoch", .null), ("withdrawable_epoch", .null)])]
  key := List.replicate 48 0xab
  spelling := String.ofList mixedCase
  length_key := by decide
  spelled := by
    rw [String.toList_ofList]
    decide
  pubkey_eq := by decide +kernel

/-- A node that holds this entry, and has block 7 at slot 64. -/
def oneEntryOutside : Outside where
  chain _ c := onePoolChain c
  beacon _ r :=
    if r.path = "/eth/v2/beacon/blocks/64" then
      .response 200
        "\x7b\"data\":\x7b\"message\":\x7b\"body\":\x7b\"execution_payload\":\x7b\"block_number\":\"7\"\x7d\x7d\x7d\x7d\x7d"
    else if oneEntry.Requested r then
      .response 200 (String.ofList oneEntryText)
    else .response 200 "\x7b\"data\":[]\x7d"

/-- A beacon endpoint and a chain reader that both use the store. -/
def onePoolEndpoint : BeaconEndpoint := ⟨"http://node:5052", 30, 100, true, by decide⟩

def onePoolReader : ChainReader := ⟨"0x00", true⟩

/-- The minipool. -/
def onePool : Minipool := ⟨"0x02", "0x03", pubkeyOf oneEntry.key, true, .staking, 0, 0⟩

/-- What is read from both at slot 64. -/
def onePoolSnapshot : Snapshot where
  block := 7
  slot := 64
  timing := ⟨0, 12, 32⟩
  parameters := ⟨1, 0, 0, 0, 0, ⟨0, 0, 0⟩, 0⟩
  nodes := []
  minipools := [onePool]
  validators := [(pubkeyOf oneEntry.key, ⟨pubkeyOf oneEntry.key, 1, "on", 1, 1, false, 0,
    farFutureEpoch, farFutureEpoch⟩)]
  lookups := Lookups.ofRows [] [onePool]

theorem indexed_onePoolSnapshot : onePoolSnapshot.Indexed := rfl

theorem payload_oneEntryText :
    payload (String.ofList oneEntryText) = .ok (.list [oneEntry.value]) := by
  have hread : Json.read (String.ofList oneEntryText).toList =
      .ok (.record [("data", .list [oneEntry.value])]) := by
    rw [String.toList_ofList]
    exact by decide +kernel
  rw [payload_of_read hread]
  rfl

theorem whole_oneEntry : (Value.list [oneEntry.value]).Whole := by
  refine .list (List.forall_mem_singleton.2 (.record ?_))
  simp only [List.forall_mem_cons]
  exact ⟨.text _, .text _, .text _, .record (by
    simp only [List.forall_mem_cons]
    exact ⟨.text _, .text _, .bool _, .text _, .null, .null, List.forall_mem_nil _⟩),
    List.forall_mem_nil _⟩

theorem answersPubkeys_onePoolChain : AnswersPubkeys onePoolChain := by
  intro manager address block v h
  have hfind : Table.find? onePoolAnswers ViewFunction.minipoolPubkey.name =
      some (.bytes .constant (List.replicate 48 0xab)) := rfl
  rw [onePoolChain, hfind] at h
  cases h
  exact ⟨_, _, rfl, by decide⟩

/-- The node answers a request for validators with its entry or with nothing. -/
theorem beacon_oneEntryOutside (history : History) (batch : List String) :
    oneEntryOutside.beacon history (onePoolEndpoint.batchRequest 64 batch) =
      if oneEntry.Requested (onePoolEndpoint.batchRequest 64 batch) then
        .response 200 (String.ofList oneEntryText)
      else .response 200 "\x7b\"data\":[]\x7d" := by
  have hpath : (onePoolEndpoint.batchRequest 64 batch).path ≠ "/eth/v2/beacon/blocks/64" := by
    change validatorsPath 64 ≠ _
    decide +kernel
  rw [oneEntryOutside]
  dsimp only
  rw [if_neg hpath]

theorem answersFrom_oneEntryOutside :
    AnswersFrom oneEntryOutside onePoolEndpoint 64 [oneEntry] := by
  rintro batch data ⟨history, status, body, hreply, -, hdata⟩
  rw [beacon_oneEntryOutside] at hreply
  by_cases hids : oneEntry.Requested (onePoolEndpoint.batchRequest 64 batch)
  · rw [if_pos hids] at hreply
    cases hreply
    rw [payload_oneEntryText] at hdata
    cases hdata
    exact ⟨_, rfl, fun w => by simp [hids, eq_comm]⟩
  · rw [if_neg hids] at hreply
    cases hreply
    have hempty : payload "\x7b\"data\":[]\x7d" = .ok (.list []) :=
      by decide +kernel
    rw [hempty] at hdata
    cases hdata
    exact ⟨_, rfl, fun w => by simp [hids]⟩

/-- All but the validators is read, and no answer for their batch is stored yet. -/
theorem listed_onePool :
    ∃ t, (Sources.ofReaders oneEntryOutside onePoolEndpoint onePoolReader).listed 64
        (Session.start .empty) =
          .ok (7, onePoolSnapshot.parameters, [], onePoolSnapshot.rows.minipools) t ∧
      t.store.load (Store.StoredReading.validators onePoolEndpoint.base 64
        [pubkeyOf oneEntry.key]).key = .ok none := by
  have hrun : (match (Sources.ofReaders oneEntryOutside onePoolEndpoint onePoolReader).listed 64
      (Session.start .empty) with
    | .ok read t => decide (read = (7, onePoolSnapshot.parameters, [], onePoolSnapshot.rows.minipools) ∧
        t.store.load (Store.StoredReading.validators onePoolEndpoint.base 64
          [pubkeyOf oneEntry.key]).key = .ok none)
    | .error .. => false) = true := by
    decide +kernel
  split at hrun
  · next read t hresult =>
    obtain ⟨rfl, hstored⟩ := of_decide_eq_true hrun
    rw [hresult]
    exact ⟨t, rfl, hstored⟩
  · cases hrun

theorem pubkeys_onePoolSnapshot :
    onePoolSnapshot.rows.lookups.pubkeys = [pubkeyOf oneEntry.key].map .text := by
  decide +kernel

theorem rowValidators_onePool (out : Outside) :
    onePoolEndpoint.rowValidators out onePoolSnapshot.rows.lookups.pubkeys 64 =
      onePoolEndpoint.validators out [pubkeyOf oneEntry.key] 64 := by
  rw [pubkeys_onePoolSnapshot, rowValidators_text,
    Table.distinct_of_nodup (List.nodup_singleton _)]

/-- The validator is read from the response for its batch. -/
theorem onePoolSnapshot_built :
    ∃ t, (Sources.ofReaders oneEntryOutside onePoolEndpoint onePoolReader).snapshot 64 ⟨0, 12, 32⟩
      (Session.start .empty) = .ok onePoolSnapshot.rows t := by
  obtain ⟨t, hlisted, hstored⟩ := listed_onePool
  have hbatches : batches onePoolEndpoint.batchSize [pubkeyOf oneEntry.key] =
      [[pubkeyOf oneEntry.key]] := by
    rw [show onePoolEndpoint.batchSize = 100 from rfl]
    simp [batches]
  have hassigned : Assigned [pubkeyOf oneEntry.key] := by
    intro key hkey
    exact ⟨oneEntry.key, by decide, List.mem_singleton.1 hkey⟩
  have hrequested : oneEntry.Requested (onePoolEndpoint.batchRequest 64 [pubkeyOf oneEntry.key]) :=
    (requested_iff hassigned (by simp) (List.Subset.refl _)).2 ⟨by decide, by simp⟩
  have hadd : addEntries [] [oneEntry.value] = .ok onePoolSnapshot.validators := by decide +kernel
  obtain ⟨u, hu⟩ := exists_addBatch (s := t.told .indexed) rfl hstored
    (fun history => (beacon_oneEntryOutside history _).trans (if_pos hrequested)) (by decide)
    payload_oneEntryText rfl hadd
  have hvalidators : onePoolEndpoint.rowValidators oneEntryOutside
      onePoolSnapshot.rows.lookups.pubkeys 64 (t.told .indexed) =
        .ok onePoolSnapshot.validators u := by
    rw [rowValidators_onePool, validators, Table.distinct_of_nodup (List.nodup_singleton _),
      hbatches, List.foldlM_cons]
    exact (Reads.bind_of_ok hu).trans rfl
  exact ⟨_, Sources.snapshot_of_listed hlisted indexed_onePoolSnapshot.rows.2 hvalidators⟩

theorem separates_onePoolSnapshot :
    Store.Separates (Store.snapshotReadings onePoolEndpoint.base onePoolReader.storage 64
      onePoolSnapshot.block (batches onePoolEndpoint.batchSize onePoolSnapshot.rows.textKeys)) := by
  unfold Store.Separates
  decide +kernel

/-- The one minipool counts, since the node holds an active entry for its key. -/
theorem standing_eligible_onePool :
    (∃ t, (Sources.ofReaders oneEntryOutside onePoolEndpoint onePoolReader).snapshot 64 ⟨0, 12, 32⟩
      (Session.start .empty) = .ok onePoolSnapshot.rows t) ∧
    onePoolSnapshot.rows.typed? = some onePoolSnapshot ∧
    ∀ m ∈ onePoolSnapshot.minipools, onePoolSnapshot.standing m = .ok .eligible := by
  obtain ⟨t, ht⟩ := onePoolSnapshot_built
  have htyped := indexed_onePoolSnapshot.rows.1
  refine ⟨⟨t, ht⟩, htyped, ?_⟩
  have hheld : ([oneEntry].map (·.key)).Nodup := List.nodup_singleton _
  have hiff := (standing_eligible_iff (fun _ _ => rfl) answersPubkeys_onePoolChain hheld
    answersFrom_oneEntryOutside (by decide) (fun _ => separates_onePoolSnapshot) ht).2.2
      onePoolSnapshot (.of_typed htyped) 0 (by decide) onePool (.of_minipool rfl)
  intro m hm
  rw [List.mem_singleton.1 hm]
  refine hiff.2 ⟨oneEntry.key, ?_, oneEntry, by simp, rfl, 0, farFutureEpoch, ?_, ?_, ?_⟩
  · exact ⟨.text "0x01", .text "0x02", .constant, rfl, rfl, ⟨_, rfl, rfl⟩, ⟨_, rfl, rfl⟩, rfl, 0xab,
      by decide, by decide⟩
  · decide +kernel
  · decide +kernel
  · decide

end Snapshot

end StakeSnapshot
