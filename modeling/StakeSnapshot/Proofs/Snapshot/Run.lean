import StakeSnapshot.Proofs.Beacon.Endpoint
import StakeSnapshot.Proofs.Contracts.Reader
import StakeSnapshot.Proofs.Lookups.Rows
import StakeSnapshot.Proofs.Snapshot.Trace
import StakeSnapshot.Proofs.Store.Readings

/-!
# The readings of a snapshot that is built

`Sources.snapshot_ok` takes the building of a snapshot apart at its readings. Over a beacon endpoint
and a chain reader that start with an empty store, `readers_snapshot_ok` says what the lists of
minipools and validators hold.
-/

namespace StakeSnapshot

namespace Sources

variable {σ κ ν μ α : Type} {src : Sources σ κ ν μ} {log : Logger} {s t : σ} {slot : Int} {block : Value}

theorem ok_of_reading {what : Reading} {work : EStateM Fault σ α} {a : α}
    (h : reading what block slot work s = .ok a t) : work s = .ok a t := by
  unfold reading at h
  cases hw : work s with
  | ok b u =>
    rw [hw] at h
    exact h
  | error fault u =>
    rw [hw] at h
    cases h

theorem ok_of_attempt {work : EStateM Fault σ α} {a? : Except Fault α}
    (h : attempt work s = .ok a? t) : work s = ended a? t := by
  unfold attempt at h
  cases hw : work s with
  | ok a u =>
    rw [hw] at h
    cases h
    rfl
  | error fault u =>
    rw [hw] at h
    cases h
    rfl

theorem reading_of_ok {what : Reading} {work : EStateM Fault σ α} {a : α} (h : work s = .ok a t) :
    reading what block slot work s = .ok a t := by
  rw [reading, h]

theorem attempt_of_ok {work : EStateM Fault σ α} {a : α} (h : work s = .ok a t) :
    attempt work s = .ok (.ok a) t := by
  rw [attempt, h]

theorem pinnedBlock_ok (h : src.pinnedBlock slot s = .ok block t) :
    src.block slot s = .ok block t ∧ block ≠ .null := by
  obtain ⟨answer, u, hanswer, h₁⟩ := Reads.ok_of_bind h
  rw [ok_of_attempt hanswer]
  cases answer with
  | error fault => cases h₁
  | ok b =>
    cases b with
    | null => cases h₁
    | _ =>
      obtain ⟨rfl, rfl⟩ := Reads.ok_of_pure h₁
      exact ⟨rfl, by rintro ⟨⟩⟩

theorem pinnedBlock_of_ok (h : src.block slot s = .ok block t) (hblock : block ≠ .null) :
    src.pinnedBlock slot s = .ok block t := by
  refine (Reads.bind_of_ok (attempt_of_ok h)).trans ?_
  cases block with
  | null => exact absurd rfl hblock
  | _ => rfl

theorem tell_ok {line : LogLine} (h : src.tell log line s = .ok () t) : t = src.told line s := by
  unfold tell at h
  split at h <;> cases h
  rfl

theorem lists_ok {nodes : List ν} {minipools : List μ}
    (h : src.lists log block slot s = .ok (nodes, minipools) t) :
    ∃ u v, src.nodes block s = .ok nodes u ∧ src.minipools block u = .ok minipools v ∧
      t = src.told .minipoolsRead (src.told .nodesRead v) := by
  obtain ⟨nodes?, u, hnodes, h₁⟩ := Reads.ok_of_bind h
  obtain ⟨minipools?, v, hminipools, h₂⟩ := Reads.ok_of_bind h₁
  obtain ⟨ns, v', hns, h₃⟩ := Reads.ok_of_bind h₂
  obtain ⟨rfl, rfl⟩ := Reads.ok_of_lift hns
  obtain ⟨_, v₁, htold, h₄⟩ := Reads.ok_of_bind h₃
  obtain rfl := tell_ok htold
  obtain ⟨ms, v₂, hms, h₅⟩ := Reads.ok_of_bind h₄
  obtain ⟨rfl, rfl⟩ := Reads.ok_of_lift hms
  obtain ⟨_, v₃, htold, h₆⟩ := Reads.ok_of_bind h₅
  obtain rfl := tell_ok htold
  cases h₆
  exact ⟨u, _, ok_of_reading (ok_of_attempt hnodes), ok_of_reading (ok_of_attempt hminipools), rfl⟩

theorem lists_of_ok {nodes : List ν} {minipools : List μ} {u : σ}
    (hnodes : src.nodes block s = .ok nodes t) (hminipools : src.minipools block t = .ok minipools u) :
    src.lists .silent block slot s =
      .ok (nodes, minipools) (src.told .minipoolsRead (src.told .nodesRead u)) := by
  refine (Reads.bind_of_ok (attempt_of_ok (reading_of_ok hnodes))).trans ?_
  exact (Reads.bind_of_ok (attempt_of_ok (reading_of_ok hminipools))).trans rfl

variable [Indexing κ ν μ]

/-- A snapshot that is built has what was read for it. -/
theorem snapshot_ok {timing : ChainTiming} {snap : SnapshotOf κ ν μ}
    (h : src.toldSnapshot log slot timing s = .ok snap t) :
    snap.slot = slot ∧ snap.timing = timing ∧ snap.block ≠ .null ∧
    Indexing.index snap.nodes snap.minipools = .ok snap.lookups ∧
    ∃ s₁ s₂ s₃ s₄ s₅,
      src.block slot s = .ok snap.block s₁ ∧
      src.parameters snap.block slot s₁ = .ok snap.parameters s₂ ∧
      src.nodes snap.block (src.told (.started snap.block slot) s₂) = .ok snap.nodes s₃ ∧
      src.minipools snap.block s₃ = .ok snap.minipools s₄ ∧
      src.validators snap.lookups.pubkeys slot
        (src.told .indexed (src.told .minipoolsRead (src.told .nodesRead s₄))) =
          .ok snap.validators s₅ ∧
      t = src.told .validatorsRead s₅ := by
  obtain ⟨block, s₁, hblock, h₁⟩ := Reads.ok_of_bind h
  obtain ⟨parameters, s₂, hparameters, h₂⟩ := Reads.ok_of_bind h₁
  obtain ⟨_, s₂', htold, h₃⟩ := Reads.ok_of_bind h₂
  obtain rfl := tell_ok htold
  obtain ⟨⟨nodes, minipools⟩, s₄', hlists, h₄⟩ := Reads.ok_of_bind h₃
  obtain ⟨s₃, s₄, hnodes, hminipools, rfl⟩ := lists_ok hlists
  obtain ⟨lookups, s₄', hindexed, h₅⟩ := Reads.ok_of_bind h₄
  obtain ⟨hindex, rfl⟩ := Reads.ok_of_lift hindexed
  obtain ⟨_, s₄', htold, h₆⟩ := Reads.ok_of_bind h₅
  obtain rfl := tell_ok htold
  obtain ⟨validators, s₅, hvalidators, h₇⟩ := Reads.ok_of_bind h₆
  obtain ⟨_, s₅', htold, h₈⟩ := Reads.ok_of_bind h₇
  obtain rfl := tell_ok htold
  obtain ⟨rfl, rfl⟩ := Reads.ok_of_pure h₈
  obtain ⟨hread, hnull⟩ := pinnedBlock_ok hblock
  exact ⟨rfl, rfl, hnull, hindex, s₁, s₂, s₃, s₄, s₅, hread, hparameters, hnodes, hminipools,
    ok_of_reading hvalidators, rfl⟩

/-- The readings before the validators, with what they answer. -/
def listed (src : Sources σ κ ν μ) (slot : Int) :
    EStateM Fault σ (Value × Parameters × List ν × List μ) := do
  let block ← src.pinnedBlock slot
  let parameters ← src.parameters block slot
  src.tell .silent (.started block slot)
  let (nodes, minipools) ← src.lists .silent block slot
  return (block, parameters, nodes, minipools)

omit [Indexing κ ν μ] in
theorem listed_of_ok {parameters : Parameters} {nodes : List ν} {minipools : List μ}
    {u v w : σ} (hblock : src.block slot s = .ok block t) (hnull : block ≠ .null)
    (hparameters : src.parameters block slot t = .ok parameters u)
    (hnodes : src.nodes block (src.told (.started block slot) u) = .ok nodes v)
    (hminipools : src.minipools block v = .ok minipools w) :
    src.listed slot s = .ok (block, parameters, nodes, minipools)
      (src.told .minipoolsRead (src.told .nodesRead w)) := by
  refine (Reads.bind_of_ok (pinnedBlock_of_ok hblock hnull)).trans ?_
  refine (Reads.bind_of_ok hparameters).trans ?_
  exact (Reads.bind_of_ok (lists_of_ok hnodes hminipools)).trans rfl

/-- The validators are read when everything before them has been. -/
theorem snapshot_eq_bind_listed (slot : Int) (timing : ChainTiming) :
    src.snapshot slot timing = src.listed slot >>= fun read => do
      let lookups ← Indexing.index read.2.2.1 read.2.2.2
      src.tell .silent .indexed
      let validators ← reading .validators read.1 slot (src.validators lookups.pubkeys slot)
      src.tell .silent .validatorsRead
      return ⟨read.1, slot, timing, read.2.1, read.2.2.1, read.2.2.2, validators, lookups⟩ := by
  simp only [snapshot, toldSnapshot, listed, bind_assoc, pure_bind]

section
variable {timing : ChainTiming} {parameters : Parameters} {nodes : List ν} {minipools : List μ}
  {lookups : LookupsOf κ ν μ} {u : σ}
  (hlisted : src.listed slot s = .ok (block, parameters, nodes, minipools) t)
  (hindex : Indexing.index nodes minipools = .ok lookups)
include hlisted hindex

/-- When everything before them has been read, the validators complete a snapshot. -/
theorem snapshot_of_listed {validators : Table String Validator}
    (hvalidators : src.validators lookups.pubkeys slot (src.told .indexed t) =
      .ok validators u) :
    src.snapshot slot timing s =
      .ok ⟨block, slot, timing, parameters, nodes, minipools, validators, lookups⟩
        (src.told .validatorsRead u) := by
  rw [snapshot_eq_bind_listed, Reads.bind_of_ok hlisted]
  dsimp only
  rw [hindex]
  exact (Reads.bind_of_ok (reading_of_ok hvalidators)).trans rfl

/-- Without the validators there is no snapshot. -/
theorem snapshot_of_listed_error {fault : Fault}
    (hvalidators : src.validators lookups.pubkeys slot (src.told .indexed t) = .error fault u) :
    ∃ other, src.snapshot slot timing s = .error other u := by
  rw [snapshot_eq_bind_listed, Reads.bind_of_ok hlisted]
  dsimp only
  rw [hindex]
  have hreading : reading .validators block slot (src.validators lookups.pubkeys slot)
      (src.told .indexed t) =
        .error (Fault.unavailable .validators block slot fault).raised u := by
    rw [reading, hvalidators]
  exact ⟨_, (Reads.bind_of_ok rfl).trans
    ((Reads.bind_of_ok rfl).trans (Reads.bind_of_error hreading))⟩

end

omit [Indexing κ ν μ] in
/-- What is read before the validators depends neither on them nor on other slots. -/
theorem listed_congr (slot : Int) {blocks : Int → EStateM Fault σ Value}
    (h : blocks slot = src.block slot)
    (validators : List κ → Int → EStateM Fault σ (Table String Validator)) :
    listed { src with block := blocks, validators } slot = src.listed slot := by
  have hpinned : pinnedBlock { src with block := blocks, validators } slot = src.pinnedBlock slot := by
    unfold pinnedBlock
    dsimp only
    rw [h]
  unfold listed
  rw [hpinned]
  rfl

end Sources

namespace RowSnapshot
variable {rows : RowSnapshot}

/-- The keys of validators that are asked for, where they are texts. -/
def textKeys (rows : RowSnapshot) : List String := rows.lookups.pubkeys.filterMap Value.text?

theorem textKeys_of_pubkeys {texts : List String} (h : rows.lookups.pubkeys = texts.map .text) :
    rows.textKeys = texts := by
  rw [textKeys, h, List.filterMap_map]
  exact List.filterMap_some

/-- The keys that are texts are those of the rows, except for the text of no key. -/
theorem mem_textKeys_iff (h : RowLookups.ofRows rows.nodes rows.minipools = .ok rows.lookups)
    {key : String} :
    key ∈ rows.textKeys ↔
      (∃ row ∈ rows.minipools, row.pubkey = .text key) ∧ key ≠ unassignedPubkey := by
  rw [← RowLookups.text_mem_pubkeys_iff h, textKeys, List.mem_filterMap]
  refine ⟨?_, fun hmem => ⟨_, hmem, rfl⟩⟩
  rintro ⟨v, hv, hkey⟩
  cases v <;> cases hkey
  exact hv

end RowSnapshot

namespace Sources

/-! ### Over readers that start with an empty store -/

section
variable {out : Outside} {chain : Call → Except Fault Value} {e : BeaconEndpoint} {r : ChainReader}
  {slot : Int} {timing : ChainTiming} {snap : RowSnapshot}

/-- All keys of a snapshot that is built are texts, and they do not repeat. -/
theorem pubkeys_of_snapshot {log : Logger} {s t : Session}
    (h : (ofReaders out e r).toldSnapshot log slot timing s = .ok snap t) :
    snap.lookups.pubkeys = snap.textKeys.map .text ∧ snap.textKeys.Nodup := by
  obtain ⟨-, -, -, hindex, s₁, s₂, s₃, s₄, s₅, -, -, -, -, hvalidators, -⟩ := snapshot_ok h
  obtain ⟨texts, htexts⟩ := BeaconEndpoint.exists_texts_of_rowValidators hvalidators
  have hnodup := RowLookups.nodup_pubkeys hindex
  rw [Table.distinct_of_nodup hnodup] at htexts
  rw [RowSnapshot.textKeys_of_pubkeys htexts]
  exact ⟨htexts, List.Nodup.of_map Value.text (htexts ▸ hnodup)⟩

/-- No minipool of a snapshot that is built has a key with a lone surrogate. -/
theorem wholeKeys_of_snapshot {log : Logger} {s t : Session}
    (h : (ofReaders out e r).toldSnapshot log slot timing s = .ok snap t) :
    ∀ row ∈ snap.minipools, ∀ points, row.pubkey ≠ .ragged points := by
  intro row hrow points hkey
  obtain ⟨-, -, -, hindex, -⟩ := snapshot_ok h
  have hmem := RowLookups.ragged_mem_pubkeys hindex hrow hkey
  rw [(pubkeys_of_snapshot h).1] at hmem
  obtain ⟨key, -, hragged⟩ := List.mem_map.1 hmem
  cases hragged

variable {readings : List Store.StoredReading} {s t : Session} {block : Int}
  (hchain : ∀ history c, out.chain history c = chain c)
include hchain

theorem parameters_ok {parameters : Parameters} (hs : s.Sound chain r.storage readings)
    (h : (ofReaders out e r).parameters (.int block) slot s = .ok parameters t) :
    t.Sound chain r.storage readings := by
  obtain ⟨price, s₁, h₁, h⟩ := Reads.ok_of_bind h
  have hs₁ := ChainReader.askResolved_ok hchain hs (ok_of_reading h₁)
  obtain ⟨low, s₂, h₂, h⟩ := Reads.ok_of_bind h
  have hs₂ := ChainReader.askResolved_ok hchain hs₁ (ok_of_reading h₂)
  obtain ⟨high, s₃, h₃, h⟩ := Reads.ok_of_bind h
  have hs₃ := ChainReader.askResolved_ok hchain hs₂ (ok_of_reading h₃)
  obtain ⟨index, s₄, h₄, h⟩ := Reads.ok_of_bind h
  have hs₄ := ChainReader.askResolved_ok hchain hs₃ (ok_of_reading h₄)
  obtain ⟨interval, s₅, h₅, h⟩ := Reads.ok_of_bind h
  have hs₅ := ChainReader.askResolved_ok hchain hs₄ (ok_of_reading h₅)
  obtain ⟨shares, s₆, h₆, h⟩ := Reads.ok_of_bind h
  have hs₆ := ChainReader.shares_ok hchain hs₅ index (ok_of_reading h₆)
  obtain ⟨pending, s₇, h₇, h⟩ := Reads.ok_of_bind h
  have hs₇ := ChainReader.askResolved_ok hchain hs₆ (ok_of_reading h₇)
  obtain ⟨-, rfl⟩ := Reads.ok_of_pure h
  exact hs₇

/-- The minipools are those of the chain, and the validators those that the node answers for their
keys, in batches. -/
theorem readers_snapshot_ok
    (hdigests : e.useStore = true ∨ r.useStore = true →
      Store.Separates (Store.snapshotReadings e.base r.storage slot snap.block
        (BeaconEndpoint.batches e.batchSize snap.textKeys)))
    (h : (ofReaders out e r).snapshot slot timing (Session.start .empty) = .ok snap t) :
    (∃ manager, Registered chain r.storage Contracts.minipoolManager snap.block manager ∧
      MinipoolRow.AreRows chain manager snap.block snap.minipools) ∧
    ((∀ key ∈ snap.textKeys, ',' ∉ key.toList) → ∃ answers vs,
      List.Forall₂ (BeaconEndpoint.BatchEntries out e slot)
        (BeaconEndpoint.batches e.batchSize (Table.distinct snap.textKeys)) answers ∧
      List.Forall₂ (fun entry v => Validator.ofEntry entry = .ok v) answers.flatten vs ∧
      snap.validators = Table.ofRows (BeaconEndpoint.validatorRows vs)) := by
  have hlists := fun huse => Store.new_of_nodup_keys
    (Store.nodup_keys_snapshotReadings List.nodup_nil (fun _ hb => by cases hb)
      ((hdigests huse).mono Store.snapshotReadings_nil_subset))
  obtain ⟨htexts, hnodup⟩ := pubkeys_of_snapshot h
  obtain ⟨-, -, hnull, -, s₁, s₂, s₃, s₄, s₅, hblock, hparameters, hnodes, hminipools, hvalidators,
    -⟩ := snapshot_ok h
  have hstart : (Session.start .empty).Sound chain r.storage [] := .start
  obtain ⟨hint, hs₁⟩ := BeaconEndpoint.block_ok hstart (fun _ p hp => by cases hp) hblock
  obtain ⟨block, hint⟩ := hint.resolve_left hnull
  rw [hint] at hparameters hnodes hminipools hlists ⊢
  have hs₂ := (parameters_ok hchain hs₁ hparameters).told (.started (.int block) slot)
  have hs₃ := hs₂.within (P := True) (fun hs hwork => ⟨trivial,
    ChainReader.nodes_ok hchain hs (fun huse => (hlists (.inr huse)).1) hwork⟩) hnodes
  obtain ⟨hrows, hs₄⟩ := hs₃.2.within (fun hs hwork => ChainReader.minipools_ok hchain hs
    (fun huse => (hlists (.inr huse)).2.1) hwork) hminipools
  refine ⟨hrows, fun hcomma => ?_⟩
  have hbatches := fun huse => Store.new_of_nodup_keys (Store.nodup_keys_snapshotReadings
    (BeaconEndpoint.nodup_batches e.positive hnodup)
    (fun batch hbatch => ⟨(BeaconEndpoint.of_mem_batches e.positive hbatch).1,
      fun key hkey => hcomma key ((BeaconEndpoint.of_mem_batches e.positive hbatch).2 hkey)⟩)
    (hdigests huse))
  -- all keys of these rows are texts, and distinct, so that they are asked for as they are
  have htyped : (ofReaders out e r).validators snap.lookups.pubkeys slot =
      e.validators out snap.textKeys slot := by
    refine BeaconEndpoint.rowValidators_of_distinct ?_
    rw [Table.distinct_of_nodup (htexts ▸ hnodup.map Value.text_injective), htexts]
  rw [htyped] at hvalidators
  refine BeaconEndpoint.validators_ok (((hs₄.told .nodesRead).told .minipoolsRead).told .indexed)
    (fun huse => ?_) hvalidators
  rw [Table.distinct_of_nodup hnodup, ← hint]
  exact (hbatches (.inl huse)).2.2

end

end Sources

end StakeSnapshot
