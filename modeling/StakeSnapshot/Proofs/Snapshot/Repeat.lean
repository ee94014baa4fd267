import StakeSnapshot.Proofs.Snapshot.Eligibility
import StakeSnapshot.Proofs.Snapshot.Pinning
import StakeSnapshot.Proofs.Store.Growth

/-!
# Building a snapshot again

When a snapshot has been built by way of the store, its block, both of its lists and its batches of
validators are stored. No later work changes that, so the snapshot can be built again with nothing but
the parameters asked for, and it is the same (`Sources.snapshot_repeated`).
-/

namespace StakeSnapshot

open Reads

/-- All integers that are stored for a snapshot, other than what the node answered, can be written. -/
structure RowSnapshot.Writable (snap : RowSnapshot) : Prop where
  block : snap.block.isWritable = true
  nodes : ∀ row ∈ snap.nodes, row.Writable
  minipools : ∀ row ∈ snap.minipools, row.Writable

/-- A question to a contract. -/
def Question.IsCall : Question → Prop
  | .request _ => False
  | .call _ => True

namespace Sources

variable {out out' : Outside} {e e' : BeaconEndpoint} {r r' : ChainReader} {slot : Int} {block : Value}
  {timing : ChainTiming} {s t u : Session}

/-- The block and the lists of a snapshot that was built are recalled. -/
structure RecallsLists (src : Sources Session Value NodeRow MinipoolRow) (slot : Int)
    (snap : RowSnapshot) (store : Store) : Prop where
  block : Recalls store (src.block slot) snap.block
  nodes : Recalls store (src.nodes snap.block) snap.nodes
  minipools : Recalls store (src.minipools snap.block) snap.minipools

/-- The sessions between the readings of a snapshot that is built follow each other along every relation
that allows for readings. -/
theorem stages_of_ok {R : Session → Session → Prop} [IsPreorder Session R]
    (hR : Session.AdmitsStore (fun _ => True) R) {parameters : Parameters} {nodes : List NodeRow}
    {minipools : List MinipoolRow} {validators : Table String Validator} {keys : List Value}
    {s₁ s₂ s₃ s₄ s₅ : Session} (hblock : e.block out slot s = .ok block s₁)
    (hparameters : (ofReaders out e r).parameters block slot s₁ = .ok parameters s₂)
    (hnodes : within .nodes (r.nodes out block) (s₂.told (.started block slot)) = .ok nodes s₃)
    (hminipools : within .minipools (r.minipools out block) s₃ = .ok minipools s₄)
    (hvalidators : e.rowValidators out keys slot
      (((s₄.told .nodesRead).told .minipoolsRead).told .indexed) = .ok validators s₅) :
    R s s₁ ∧ R s₁ s₂ ∧ R s₂ s₃ ∧ R s₃ s₄ ∧
      R s₄ (((s₄.told .nodesRead).told .minipoolsRead).told .indexed) ∧
      R (((s₄.told .nodesRead).told .minipoolsRead).told .indexed) s₅ := by
  have hcalls : r.Admitted out block R := hR.admitted r out fun _ _ => trivial
  refine ⟨(e.moves_block out slot hR trivial).of_ok hblock,
    (moves_parameters out e r slot hcalls).of_ok hparameters, ?_,
    (hR.moves_within (hcalls.moves_minipools hR.toAdmitsStoring) .minipools).of_ok hminipools, ?_,
    (e.moves_rowValidators out slot hR (fun _ => trivial) _).of_ok hvalidators⟩
  · exact trans_of R (hR.told s₂ _)
      ((hR.moves_within (hcalls.moves_nodes hR.toAdmitsStoring) .nodes).of_ok hnodes)
  · exact trans_of R (hR.told s₄ _) (trans_of R (hR.told _ _) (hR.told _ _))

section
variable {snap : RowSnapshot} (huse : e.useStore = true ∧ r.useStore = true)
  (huse' : e'.useStore = true ∧ r'.useStore = true) (hbase : e'.base = e.base)
  (h : (ofReaders out e r).snapshot slot timing s = .ok snap t)
include huse huse' hbase h

/-- The block and the lists of a snapshot that was built by way of the store are recalled by readers of
the same, whatever the outside answers from then on. -/
theorem recallsLists_of_ok (hstorage : r'.storage = r.storage)
    (htexts : out.Addresses Value.IsWholeText) (hsnap : snap.Writable) :
    (ofReaders out' e' r').RecallsLists slot snap t.store := by
  have hkeys := wholeKeys_of_snapshot h
  obtain ⟨-, -, hnull, -, s₁, s₂, s₃, s₄, s₅, hblock, hparameters, hnodes, hminipools, hvalidators,
    rfl⟩ := snapshot_ok h
  -- each reading keeps what those before it have stored
  obtain ⟨-, hkept₂, hkept₃, hkept₄, htold, hkept₅⟩ :=
    stages_of_ok Session.admitsStore_storeKept hblock hparameters hnodes hminipools hvalidators
  refine ⟨?_, ?_, ?_⟩
  · exact (e.recalls_block huse.1 huse'.1 hbase out' hblock hnull hsnap.block).mono
      (hkept₂.trans (hkept₃.trans (hkept₄.trans (htold.trans hkept₅))))
  · exact (Recalls.of_within .nodes
      (fun h => r.recalls_nodes huse.2 huse'.2 hstorage htexts out' hsnap.nodes h) hnodes).mono
      (hkept₄.trans (htold.trans hkept₅))
  · exact (Recalls.of_within .minipools
      (fun h => r.recalls_minipools huse.2 huse'.2 hstorage htexts out' hsnap.minipools hkeys h)
      hminipools).mono (htold.trans hkept₅)

/-- So are its validators, provided that no answer about them had a lone surrogate in it. -/
theorem recalls_snapshotValidators (hsize : e'.batchSize = e.batchSize)
    (hwhole : e.WholeAnswers out slot s t) :
    Recalls t.store (e'.rowValidators out' snap.lookups.pubkeys slot) snap.validators := by
  obtain ⟨-, -, -, -, s₁, s₂, s₃, s₄, s₅, hblock, hparameters, hnodes, hminipools, hvalidators,
    rfl⟩ := snapshot_ok h
  obtain ⟨hasked₁, hasked₂, hasked₃, hasked₄, hasked₅, -⟩ :=
    stages_of_ok (Session.admitsStore_askedOnly _) hblock hparameters hnodes hminipools hvalidators
  have hwhole₅ : e.WholeAnswers out slot _ s₅ := hwhole.mono (trans_of _ hasked₁ (trans_of _ hasked₂
    (trans_of _ hasked₃ (trans_of _ hasked₄ hasked₅)))) (.of_history rfl)
  have hrecalls : Recalls s₅.store (e'.rowValidators out' snap.lookups.pubkeys slot)
      snap.validators := e.recalls_rowValidators huse.1 huse'.1 hbase out' hsize hwhole₅ hvalidators
  exact hrecalls

end

/-- Where they are recalled, all but the validators is read as soon as the parameters are. -/
theorem RecallsLists.exists_listed {snap : RowSnapshot} {store : Store}
    (h : (ofReaders out e r).RecallsLists slot snap store) (hnull : snap.block ≠ .null)
    (hs : store.KeptIn s.store)
    (hparameters : (ofReaders out e r).parameters snap.block slot s = .ok snap.parameters u) :
    ∃ t, (ofReaders out e r).listed slot s =
        .ok (snap.block, snap.parameters, snap.nodes, snap.minipools) t ∧
      t.store = s.store ∧ t.history = u.history := by
  have hstore : u.store = s.store :=
    (moves_parameters out e r slot (r.admitted_sameStore out snap.block)).of_ok hparameters
  have hkept : ∀ {v : Session}, v.store = u.store → store.KeptIn v.store := fun h => by
    rwa [h, hstore]
  exact ⟨_, listed_of_ok (h.block s hs) hnull hparameters (h.nodes _ (hkept rfl))
    (h.minipools _ (hkept rfl)), hstore, rfl⟩

/-- A snapshot is built by way of the store, and then anything may be done over this store, while the
answers of the beacon node and of the chain change in any way. When readers of the same base, storage
and size of batches build the snapshot again, and read the parameters as before, it is the same, provided
that no address and no answer about the validators had a lone surrogate in it. The beacon node is not
asked for anything, and the chain for nothing but the parameters. -/
theorem snapshot_repeated {snap : RowSnapshot} (huse : e.useStore = true ∧ r.useStore = true)
    (huse' : e'.useStore = true ∧ r'.useStore = true) (hbase : e'.base = e.base)
    (hsize : e'.batchSize = e.batchSize) (hstorage : r'.storage = r.storage) {s' : Session}
    (h : (ofReaders out e r).snapshot slot timing s = .ok snap t)
    (htexts : out.Addresses Value.IsWholeText) (hsnap : snap.Writable)
    (hwhole : e.WholeAnswers out slot s t)
    (hlater : Relation.ReflTransGen Store.Next t.store s'.store)
    (hparameters : (ofReaders out' e' r').parameters snap.block slot s' =
      .ok snap.parameters u) :
    ∃ t', (ofReaders out' e' r').snapshot slot timing s' = .ok snap t' ∧
      t'.store = s'.store ∧ t'.history = u.history ∧ s'.AskedOnly Question.IsCall t' := by
  have hkept : t.store.KeptIn s'.store := .of_later hlater
  obtain ⟨rfl, rfl, hnull, hindex, -⟩ := snapshot_ok h
  obtain ⟨v, hlisted, hstore, hhistory⟩ :=
    (recallsLists_of_ok huse huse' hbase h hstorage htexts hsnap).exists_listed hnull hkept
      hparameters
  have hvalidators : (ofReaders out' e' r').validators snap.lookups.pubkeys snap.slot
      (v.told .indexed) = .ok snap.validators (v.told .indexed) :=
    recalls_snapshotValidators huse huse' hbase h hsize hwhole (v.told .indexed)
      (by rw [show (v.told .indexed).store = s'.store from hstore]; exact hkept)
  refine ⟨_, snapshot_of_listed hlisted hindex hvalidators, hstore, hhistory, ?_⟩
  obtain ⟨asked, hasked, hcalls⟩ : s'.AskedOnly Question.IsCall u :=
    (moves_parameters out' e' r' snap.slot
      ((Session.admitsStore_askedOnly _).admitted r' out' fun _ _ => trivial)).of_ok hparameters
  exact ⟨asked, hhistory.trans hasked, hcalls⟩

/-! ### A snapshot that outlasts the answers -/

open Snapshot (onePoolChain onePoolEndpoint onePoolReader onePoolSnapshot)

/-- The beacon node answers no longer, and the minipools cannot be counted any more. -/
def onlyParameters : Outside where
  beacon _ _ := .failed "Timeout" ""
  chain _ c :=
    if c.function = Contracts.ViewFunction.minipoolCount.name then
      .error (.foreign "ContractLogicError" "execution reverted")
    else onePoolChain c

theorem writable_onePoolSnapshot : RowSnapshot.Writable onePoolSnapshot.rows where
  block := by decide
  nodes _ h := by cases h
  minipools row hrow := by
    rw [List.mem_singleton.1 hrow]
    exact ⟨by decide, by decide⟩

theorem addresses_onePoolChain {out : Outside} (h : ∀ history c, out.chain history c = onePoolChain c) :
    out.Addresses Value.IsWholeText := by
  intro history c v hc hv
  rw [h, onePoolChain] at hv
  simp only [Contracts.addressFunctions, List.map_cons, List.map_nil, List.mem_cons,
    List.not_mem_nil, or_false] at hc
  rcases hc with hc | hc | hc | hc <;> rw [hc] at hv <;> cases hv
  · exact ⟨"0x01", rfl⟩
  · exact ⟨"0x03", rfl⟩
  · exact ⟨"0x02", rfl⟩
  · exact ⟨"0x03", rfl⟩

theorem wholeAnswers_oneEntryOutside (s t : Session) :
    onePoolEndpoint.WholeAnswers Snapshot.oneEntryOutside 64 s t := by
  intro asked lane batch later v _ hdata
  have hreply := Snapshot.beacon_oneEntryOutside (s.history ++ asked) batch
  split at hreply
  · rw [Outside.data_of_response hreply (by decide), Snapshot.payload_oneEntryText] at hdata
    cases hdata
    exact Snapshot.whole_oneEntry
  · rw [Outside.data_of_response hreply (by decide)] at hdata
    have hempty : BeaconEndpoint.payload "\x7b\"data\":[]\x7d" = .ok (.list []) := by decide +kernel
    cases hempty.symm.trans hdata
    exact .list (by simp)

/-- After a snapshot of another slot has failed, the first one is still built as before. -/
theorem snapshot_repeated_onePool :
    ∃ t later t', (ofReaders Snapshot.oneEntryOutside onePoolEndpoint onePoolReader).snapshot 64
        ⟨0, 12, 32⟩ (.start .empty) = .ok onePoolSnapshot.rows t ∧
      Relation.ReflTransGen Store.Next t.store later ∧
      (ofReaders onlyParameters onePoolEndpoint onePoolReader).snapshot 64 ⟨0, 12, 32⟩
        (.start later) = .ok onePoolSnapshot.rows t' := by
  obtain ⟨t, ht⟩ := Snapshot.onePoolSnapshot_built
  let other : Activity := .snapshot onePoolEndpoint onePoolReader .silent 65 ⟨0, 12, 32⟩
  let later := (other.after onlyParameters (.start t.store)).store
  have hlater : Relation.ReflTransGen Store.Next t.store (Session.start later).store :=
    .single ⟨onlyParameters, other, .start t.store, rfl, rfl⟩
  obtain ⟨u, hparameters⟩ : ∃ u, (ofReaders onlyParameters onePoolEndpoint onePoolReader).parameters
      7 64 (.start later) = .ok onePoolSnapshot.parameters u := ⟨_, rfl⟩
  obtain ⟨t', ht', -⟩ := snapshot_repeated ⟨rfl, rfl⟩ ⟨rfl, rfl⟩ rfl rfl rfl ht
    (addresses_onePoolChain fun _ _ => rfl) writable_onePoolSnapshot (wholeAnswers_oneEntryOutside _ t) hlater hparameters
  exact ⟨t, later, t', ht, hlater, ht'⟩

/-! ### An answer that cannot be stored -/

/-- The text of the same answer with a lone surrogate in a field that nobody reads. -/
def notedEntryText : List Char :=
  "\x7b\"data\":[\x7b\"note\":\"\\ud800\",".toList ++ Snapshot.oneEntryText.drop 10

/-- The entry of this answer. -/
def notedEntry : Value :=
  match Snapshot.oneEntry.value with
  | .record fields => .record (("note", .ragged [.surrogate 0]) :: fields)
  | v => v

/-- A node that answers every request for the validators with this text. -/
def notedOutside : Outside where
  chain _ c := onePoolChain c
  beacon history r :=
    if r.path = BeaconEndpoint.validatorsPath 64 then .response 200 (String.ofList notedEntryText)
    else Snapshot.oneEntryOutside.beacon history r

theorem block_notedOutside (e : BeaconEndpoint) :
    e.block notedOutside 64 = e.block Snapshot.oneEntryOutside 64 := by
  have hfetch : e.fetch notedOutside (BeaconEndpoint.blockPath 64) none true =
      e.fetch Snapshot.oneEntryOutside (BeaconEndpoint.blockPath 64) none true := by
    funext s
    have hpath : BeaconEndpoint.blockPath 64 ≠ BeaconEndpoint.validatorsPath 64 := by decide +kernel
    rw [BeaconEndpoint.fetch_apply, BeaconEndpoint.fetch_apply]
    dsimp only [notedOutside]
    rw [if_neg hpath]
  have hfresh : e.freshBlock notedOutside 64 = e.freshBlock Snapshot.oneEntryOutside 64 :=
    congrArg (· >>= _) hfetch
  rw [BeaconEndpoint.block_eq_kept, hfresh, ← BeaconEndpoint.block_eq_kept]

theorem ofReaders_notedOutside (e : BeaconEndpoint) (r : ChainReader) :
    ofReaders notedOutside e r =
      { ofReaders Snapshot.oneEntryOutside e r with
        block := e.block notedOutside
        validators := e.rowValidators notedOutside } := by
  have hnodes : r.nodes notedOutside = r.nodes Snapshot.oneEntryOutside := rfl
  have hminipools : r.minipools notedOutside = r.minipools Snapshot.oneEntryOutside := rfl
  rw [ofReaders, ofReaders, hnodes, hminipools]
  rfl

theorem data_notedOutside (history : History) (batch : List String) :
    notedOutside.data history (onePoolEndpoint.batchRequest 64 batch) =
      .ok (.list [notedEntry]) := by
  have hreply : notedOutside.beacon history (onePoolEndpoint.batchRequest 64 batch) =
      .response 200 (String.ofList notedEntryText) := by
    dsimp only [notedOutside, BeaconEndpoint.batchRequest]
    exact if_pos rfl
  have hread : Json.read (String.ofList notedEntryText).toList =
      .ok (.record [("data", .list [notedEntry])]) := by
    rw [String.toList_ofList]
    decide +kernel
  rw [Outside.data_of_response hreply (by decide), BeaconEndpoint.payload_of_read hread]
  rfl

theorem not_whole_notedEntry : ¬ (Value.list [notedEntry]).Whole := by
  intro h
  cases h with
  | list h =>
    have hentry := h notedEntry List.mem_cons_self
    simp only [notedEntry, Snapshot.oneEntry] at hentry
    cases hentry with
    | record h => cases h _ List.mem_cons_self

theorem batchesOf_onePool : onePoolEndpoint.batchesOf [pubkeyOf Snapshot.oneEntry.key] =
    [[pubkeyOf Snapshot.oneEntry.key]] := by
  rw [BeaconEndpoint.batchesOf, Table.distinct_of_nodup (List.nodup_singleton _),
    show onePoolEndpoint.batchSize = 100 from rfl]
  simp [BeaconEndpoint.batches]

/-- The validators are read, but their batch is not stored. -/
theorem exists_validators_notedOutside {s : Session}
    (h : s.store.load (onePoolEndpoint.batchKey 64 [pubkeyOf Snapshot.oneEntry.key]) =
      .ok none) :
    ∃ t, onePoolEndpoint.rowValidators notedOutside onePoolSnapshot.rows.lookups.pubkeys 64 s =
        .ok onePoolSnapshot.validators t ∧
      t.store.load (onePoolEndpoint.batchKey 64 [pubkeyOf Snapshot.oneEntry.key]) =
        .ok none := by
  have hlisted : BeaconEndpoint.listed (.list [notedEntry]) =
      .ok onePoolSnapshot.validators.values := by decide +kernel
  have htable : Table.ofRows (BeaconEndpoint.validatorRows onePoolSnapshot.validators.values) =
      onePoolSnapshot.validators := by decide +kernel
  -- an answer with a surrogate is data that is not whole, so it is listed but not stored
  obtain ⟨x, t, hx, hend⟩ := BeaconEndpoint.exists_batchEnd notedOutside (e := onePoolEndpoint) rfl
    64 [pubkeyOf Snapshot.oneEntry.key] s
  cases hend with
  | unasked hlong _ _ => cases hlong
  | barred hbarred _ _ => cases h.symm.trans hbarred
  | stored hstored _ _ => cases h.symm.trans hstored
  | fetched _ hdata hwhole _ _ _ =>
    cases (data_notedOutside _ _).symm.trans hdata
    exact absurd hwhole not_whole_notedEntry
  | refused _ hdata _ _ => cases (data_notedOutside _ _).symm.trans hdata
  | unstored hnone hdata _ hsame hv =>
    cases (data_notedOutside _ _).symm.trans hdata
    rw [← hv, hlisted] at hx
    refine ⟨t, ?_, (hsame _).trans hnone⟩
    have hrows : (onePoolEndpoint.batchesOf [pubkeyOf Snapshot.oneEntry.key]).mapM
        (onePoolEndpoint.batchRows notedOutside 64) s =
          .ok [onePoolSnapshot.validators.values] t := by
      rw [batchesOf_onePool]
      exact mapM_of_ok hx (by rw [List.mapM_nil]; rfl)
    rw [Snapshot.rowValidators_onePool, BeaconEndpoint.validators_of_ok hrows,
      List.flatten_singleton, htable]

/-- The validators cannot be read from a node that answers no longer. -/
theorem exists_validators_onlyParameters {s : Session}
    (h : s.store.load (onePoolEndpoint.batchKey 64 [pubkeyOf Snapshot.oneEntry.key]) = .ok none) :
    ∃ fault t, onePoolEndpoint.rowValidators onlyParameters onePoolSnapshot.rows.lookups.pubkeys 64
      s = .error fault t := by
  obtain ⟨x, t, hx, hend⟩ := BeaconEndpoint.exists_batchEnd onlyParameters (e := onePoolEndpoint) rfl
    64 [pubkeyOf Snapshot.oneEntry.key] s
  obtain ⟨fault, rfl⟩ : ∃ fault, x = .error fault := by
    cases hend with
    | stored hstored _ _ => cases h.symm.trans hstored
    | fetched _ hdata _ _ _ _ => cases hdata
    | unstored _ hdata _ _ _ => cases hdata
    | unasked _ _ hx => exact ⟨_, hx⟩
    | barred _ _ hx | refused _ _ _ hx => exact ⟨_, hx⟩
  rw [Snapshot.rowValidators_onePool]
  refine ⟨fault, t, BeaconEndpoint.validators_of_error ?_⟩
  rw [batchesOf_onePool, List.mapM_cons]
  exact bind_of_error hx

/-- The snapshot is built, but the answer about its validators is not stored. So it is not built again
when the node answers no longer, although the parameters are read as before. -/
theorem exists_snapshot_unrepeated :
    ∃ t u fault v, (ofReaders notedOutside onePoolEndpoint onePoolReader).snapshot 64 ⟨0, 12, 32⟩
        (.start .empty) = .ok onePoolSnapshot.rows t ∧
      notedOutside.Addresses Value.IsWholeText ∧ RowSnapshot.Writable onePoolSnapshot.rows ∧
      (ofReaders onlyParameters onePoolEndpoint onePoolReader).parameters 7 64 (.start t.store) =
        .ok onePoolSnapshot.parameters u ∧
      (ofReaders onlyParameters onePoolEndpoint onePoolReader).snapshot 64 ⟨0, 12, 32⟩
        (.start t.store) = .error fault v := by
  obtain ⟨s, hlisted, hnone⟩ := Snapshot.listed_onePool
  have hsame : (ofReaders notedOutside onePoolEndpoint onePoolReader).listed 64 =
      (ofReaders Snapshot.oneEntryOutside onePoolEndpoint onePoolReader).listed 64 := by
    rw [ofReaders_notedOutside]
    exact listed_congr 64 (block_notedOutside onePoolEndpoint) _
  rw [← hsame] at hlisted
  obtain ⟨t, hvalidators, hunstored⟩ :=
    exists_validators_notedOutside (s := s.told .indexed) hnone
  have hfirst : (ofReaders notedOutside onePoolEndpoint onePoolReader).snapshot 64 ⟨0, 12, 32⟩
      (.start .empty) = .ok onePoolSnapshot.rows (t.told .validatorsRead) :=
    snapshot_of_listed hlisted Snapshot.indexed_onePoolSnapshot.rows.2 hvalidators
  have htexts : notedOutside.Addresses Value.IsWholeText := addresses_onePoolChain fun _ _ => rfl
  obtain ⟨u, hparameters⟩ : ∃ u, (ofReaders onlyParameters onePoolEndpoint onePoolReader).parameters
      7 64 (.start t.store) = .ok onePoolSnapshot.parameters u := ⟨_, rfl⟩
  -- the block and the lists are found in the store, but for the validators the node is asked again
  have hlists : (ofReaders onlyParameters onePoolEndpoint onePoolReader).RecallsLists 64
      onePoolSnapshot.rows (t.told .validatorsRead).store :=
    recallsLists_of_ok ⟨rfl, rfl⟩ ⟨rfl, rfl⟩ rfl hfirst rfl htexts writable_onePoolSnapshot
  obtain ⟨v, hlisted', hstore, -⟩ :=
    hlists.exists_listed (s := .start t.store) (by rintro ⟨⟩) (.refl t.store) hparameters
  obtain ⟨fault, w, hvalidators'⟩ := exists_validators_onlyParameters (s := v.told .indexed)
    (by rw [show (v.told .indexed).store = t.store from hstore]; exact hunstored)
  obtain ⟨other, hsecond⟩ : ∃ other, (ofReaders onlyParameters onePoolEndpoint
      onePoolReader).snapshot 64 ⟨0, 12, 32⟩ (.start t.store) = .error other w :=
    snapshot_of_listed_error hlisted' Snapshot.indexed_onePoolSnapshot.rows.2 hvalidators'
  exact ⟨_, u, other, w, hfirst, htexts, writable_onePoolSnapshot, hparameters, hsecond⟩

end Sources

end StakeSnapshot
