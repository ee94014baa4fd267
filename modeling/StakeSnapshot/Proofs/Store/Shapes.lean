import StakeSnapshot.Proofs.Beacon.Batches
import StakeSnapshot.Proofs.Store.Transparency

/-!
# Stored values of any shape

A file that cannot be decoded counts as absent, whatever it holds, unless it is too deep. A file that can
be decoded is taken for what is stored for the reading, whatever its shape. So a retrieval that succeeds
without the store succeeds with it just if no file is too deep and every stored value that is found has
the shape of what would be stored there (`Retrieval.succeeds_iff_fits`): neither a value of another shape
nor one that is too deep is passed over.
-/

namespace StakeSnapshot

open Reads
open Store (StoredReading)

/-- A value can be read back as what is stored for a reading. -/
def Store.StoredReading.Fits : StoredReading → Value → Prop
  | .block _ _, v => ∃ u, v.field "block" = .ok u
  | .validators _ _ _, v => ∃ vs, BeaconEndpoint.listed v = .ok vs
  | .nodes _ _, v => ∃ rows, ChainReader.rowsOf NodeRow.ofValue v = .ok rows
  | .minipools _ _, v => ∃ rows, ChainReader.rowsOf MinipoolRow.ofValue v = .ok rows

theorem outcome_eq_ok_iff {α : Type} {x : EStateM.Result Fault Session α} {a : α} :
    (outcome x).1 = .ok a ↔ ∃ t, x = .ok a t := by
  cases x <;> simp [outcome]

variable {w : World} {storage : String} {s t : Session}

/-! ### One reading -/

/-- Where the fresh work succeeds, a reading by way of the store succeeds just if the value that is
stored, if there is one, can be read back, and the result can be stored where there is none. -/
theorem kept_ok_iff {α : Type} {q : StoredReading} {ofStored : Value → Except Fault α}
    {form? : α → Option Value} {fresh : Reads α} {a : α}
    (hfresh : Steady (Session.Knows w storage) fun _ => fresh)
    (hs : s.Knows w storage fun _ => True)
    (hok : (outcome (kept false q ofStored form? fresh s)).1 = .ok a) :
    (∃ b, (outcome (kept true q ofStored form? fresh s)).1 = .ok b) ↔
      ∃ v?, s.store.load q.key = .ok v? ∧ (∀ v, v? = some v → ∃ b, ofStored v = .ok b) ∧
        (v? = none → ∀ v, form? a = some v → Store.encode v ≠ .error .tooDeep) := by
  obtain ⟨t, hunstored⟩ := outcome_eq_ok_iff.1 hok
  have hq : q.keyFault? = none := keyFault?_of_kept hunstored
  have hlook := Store.look_of_writable (s := s.store) hq
  cases hload : s.store.load q.key with
  | error fault =>
    obtain ⟨t, hkept, -⟩ := exists_kept_of_barred ofStored form? fresh (hlook.trans hload)
    rw [hkept]
    exact iff_of_false nofun nofun
  | ok v? =>
  cases v? with
  | some v =>
    rw [kept_of_stored (hlook.trans hload), outcome_ended]
    simp
  | none =>
    -- the fresh work is steady: after the store was looked at it has the same result
    obtain ⟨result, hresult⟩ := hfresh
    obtain ⟨t, ht, -⟩ := hresult _ s hs
    obtain ⟨u, hu, -⟩ := hresult (fun _ => True) s.opened ⟨hs.addresses, trivial⟩
    dsimp only at ht hu
    rw [kept_false hq, ht, outcome_ended] at hok
    cases hok
    cases hform : form? a with
    | none =>
      rw [kept_of_formless (hlook.trans hload) hu hform]
      simp [outcome]
    | some v =>
      rw [kept_of_form (hlook.trans hload) hu hform]
      cases hrefusal : Store.refusal? q.key v with
      | none =>
        have hencode : Store.encode v ≠ .error .tooDeep := fun h =>
          nomatch hrefusal.symm.trans (Store.refusal?_key_eq_some_iff.2 ⟨h, rfl⟩)
        simp [outcome, hencode]
      | some fault => simp [outcome, (Store.refusal?_key_eq_some_iff.1 hrefusal).1]

/-! ### The batches of validators -/

/-- Where the validators are read without the store, requests for the slot can be made, and the node
answers to all of them with what can be read. -/
theorem BeaconEndpoint.wellAnswered_of_ok {e : BeaconEndpoint} {slot : Int}
    {bs : List (List String)} {vss : List (List Validator)}
    (h : bs.mapM (batchRows { e with useStore := false } w.outside slot) s = .ok vss t) :
    ∀ b ∈ bs, Number.isWritable slot = true ∧ WellAnswered w.outside e slot b := by
  induction bs generalizing s vss with
  | nil => simp
  | cons batch bs ih =>
    obtain ⟨vs, u, rest, hbatch, hrest, -⟩ := ok_of_mapM_cons h
    obtain ⟨v, u, hvalue, hlisted⟩ := ok_of_bind hbatch
    rw [batchValue_eq_kept] at hvalue
    have hkey := keyFault?_of_kept hvalue
    have hslot : Number.isWritable slot = true := (StoredReading.keyFault?_eq_none_iff rfl).1 hkey
    refine List.forall_mem_cons.2 ⟨⟨hslot, fun history => ?_⟩, ih hrest⟩
    rw [kept_false hkey, freshBatch_apply] at hvalue
    -- what a world answers does not depend on the history
    exact ⟨v, vs, (Sources.ok_of_ended hvalue).1, (ok_of_lift hlisted).1⟩

/-- Where the validators are read without the store, they are read with it just if all batches that are
stored can be read back. -/
theorem BeaconEndpoint.validators_ok_iff {e : BeaconEndpoint} {keys : List String} {slot : Int}
    (hok : ∃ a, (outcome (validators { e with useStore := false } w.outside keys slot s)).1 = .ok a) :
    (∃ a, (outcome (validators { e with useStore := true } w.outside keys slot s)).1 = .ok a) ↔
      ∀ b ∈ e.batchesOf keys, e.Readable slot s.store b := by
  constructor
  · rintro ⟨found, hfound⟩ b hb
    obtain ⟨t, hfound⟩ := outcome_eq_ok_iff.1 hfound
    obtain ⟨vss, hrows⟩ := ok_of_validators hfound
    obtain ⟨hkeeps, hread, -⟩ := batches_of_ok rfl hrows
    by_cases hnone : s.store.load (e.batchKey slot b) = .ok none
    · exact ⟨none, hnone, nofun⟩
    · have hreadable := (hread b hb).readable
      rwa [Readable, hkeeps _ hnone] at hreadable
  · intro hreadable
    obtain ⟨found, hfound⟩ := hok
    obtain ⟨t, hfound⟩ := outcome_eq_ok_iff.1 hfound
    obtain ⟨vss, hrows⟩ := ok_of_validators hfound
    have hanswered := wellAnswered_of_ok hrows
    obtain ⟨vss, t, hrows, -⟩ := exists_batches_of_answered (e := { e with useStore := true }) rfl
      (fun hne => (hanswered _ (List.head_mem hne)).1) hreadable fun b hb _ => (hanswered b hb).2
    exact ⟨_, outcome_eq_ok_iff.2 ⟨t, validators_of_ok hrows⟩⟩

/-! ### Every retrieval -/

/-- What a retrieval answers without the store is not too deep to be stored. Only rows that have been made
from the chain's answers may be. -/
def Retrieval.Shallow : (q : Retrieval) → q.Answer → Prop
  | .chain _ (.nodes _), rows =>
    Store.encode (.list (List.map NodeRow.toValue rows)) ≠ .error .tooDeep
  | .chain _ (.minipools _), rows =>
    Store.encode (.list (List.map MinipoolRow.toValue rows)) ≠ .error .tooDeep
  | _, _ => True

/-- A retrieval that succeeds without the store succeeds with it just if all stored values that it finds
have the shapes of what is stored for it, and what it finds no value for is not too deep to be stored. -/
theorem Retrieval.succeeds_iff_fits (w : World) (readers : Nat → ChainReader) (store : Store)
    (q : Retrieval) (a : q.Answer) (hunstored : q.anew w.outside readers false store = .ok a) :
    (∃ b, q.anew w.outside readers true store = .ok b) ↔
      ∀ p ∈ q.stored readers,
        ∃ v?, store.load p.key = .ok v? ∧ (∀ v, v? = some v → p.Fits v) ∧
          (v? = none → q.Shallow a) := by
  have hstart : ∀ storage, (Session.start store).Knows w storage fun _ => True :=
    fun storage => .start store trivial
  cases q with
  | beacon e q =>
    cases q with
    | block slot =>
      rw [stored, BeaconEndpoint.stored, List.forall_mem_singleton]
      simp only [anew, BeaconEndpoint.answer, BeaconEndpoint.block_eq_kept] at hunstored ⊢
      refine (kept_ok_iff (e.ends_freshBlock Session.Knows.asked slot).steady (hstart "")
        hunstored).trans ?_
      refine exists_congr fun v? => and_congr_right fun _ => and_congr_right fun _ => ?_
      -- the record of a block is never too deep, so nothing is asked of a fresh one
      refine iff_of_true (fun _ v hv => ?_) fun _ => trivial
      obtain ⟨t, hkept⟩ := outcome_eq_ok_iff.1 hunstored
      rw [kept_false (keyFault?_of_kept hkept)] at hkept
      exact Store.encode_ne_tooDeep (e.shallow_block _ slot hkept hv)
    | validators keys slot =>
      rw [stored, BeaconEndpoint.stored, BeaconEndpoint.batchReadings, List.forall_mem_map]
      refine (BeaconEndpoint.validators_ok_iff ⟨a, hunstored⟩).trans ?_
      simp only [Shallow, implies_true, and_true]
      rfl
  | chain i q =>
    cases q with
    | nodes block =>
      rw [stored, ChainReader.stored, List.forall_mem_singleton]
      simp only [anew, ChainReader.answer, ChainReader.nodes,
        ChainReader.storedList_eq_kept] at hunstored ⊢
      refine (kept_ok_iff (ChainReader.steady_freshNodes _ block) (hstart _) hunstored).trans ?_
      simp only [Option.some.injEq, forall_eq']
      rfl
    | minipools block =>
      rw [stored, ChainReader.stored, List.forall_mem_singleton]
      simp only [anew, ChainReader.answer, ChainReader.minipools,
        ChainReader.storedList_eq_kept] at hunstored ⊢
      refine (kept_ok_iff (ChainReader.steady_freshMinipools _ block) (hstart _)
        hunstored).trans ?_
      simp only [Option.some.injEq, forall_eq']
      rfl
    | _ => exact iff_of_true ⟨a, hunstored⟩ fun p hp => absurd hp List.not_mem_nil

/-! ### A file with an empty record -/

/-- A store whose file for the block in slot 64 has an empty record. -/
def emptyRecord : Store :=
  Store.empty.set (StoredReading.block oneByOne.base 64).key (.record [])

theorem load_emptyRecord :
    emptyRecord.load (StoredReading.block oneByOne.base 64).key = .ok (some (.record [])) :=
  Store.load_set_of_storable (Store.takes_key _ _)
    (Json.storable_record (by simp [Table.keys]) (by simp)) (by simp)

theorem blockAt_sameAnswers : sameAnswers.blockAt oneByOne.base 64 = .ok (.int 7) :=
  by decide +kernel

theorem outcome_block_emptyRecord (useStore : Bool) :
    (outcome (BeaconEndpoint.block { oneByOne with useStore } sameAnswers.outside 64
      (.start emptyRecord))).1 =
      if useStore then .error (.missingField "block") else .ok (.int 7) := by
  rw [BeaconEndpoint.block_eq_kept]
  cases useStore with
  | true =>
    have hlook : emptyRecord.look (.block oneByOne.base 64) = .ok (some (.record [])) := by
      rw [Store.look_of_writable rfl, load_emptyRecord]
    rw [kept_of_stored hlook, outcome_ended]
    rfl
  | false =>
    have hstart : (Session.start emptyRecord).Knows sameAnswers "" fun _ => True :=
      .start emptyRecord trivial
    obtain ⟨t, ht, -⟩ := oneByOne.ends_freshBlock Session.Knows.asked 64 _ _ hstart
    rw [blockAt_sameAnswers] at ht
    rw [kept_false rfl]
    exact congrArg (fun x => (outcome x).1) ht

/-- A retrieval over a store whose only file it cannot read. -/
theorem succeeds_iff_fits_emptyRecord :
    (Retrieval.beacon oneByOne (.block 64)).anew sameAnswers.outside storedAndUnstored false
      emptyRecord = .ok (.int 7 : Value) ∧
    ((∃ b, (Retrieval.beacon oneByOne (.block 64)).anew sameAnswers.outside storedAndUnstored true
        emptyRecord = .ok b) ↔
      ∀ p ∈ (Retrieval.beacon oneByOne (.block 64)).stored storedAndUnstored,
        ∃ v?, emptyRecord.load p.key = .ok v? ∧ (∀ v, v? = some v → p.Fits v) ∧
          (v? = none → (Retrieval.beacon oneByOne (.block 64)).Shallow (.int 7 : Value))) := by
  have hunstored : (Retrieval.beacon oneByOne (.block 64)).anew sameAnswers.outside
      storedAndUnstored false emptyRecord = .ok (.int 7 : Value) :=
    outcome_block_emptyRecord false
  exact ⟨hunstored,
    Retrieval.succeeds_iff_fits sameAnswers storedAndUnstored emptyRecord _ _ hunstored⟩

/-- The file with an empty record makes a retrieval fail that succeeds without the store. -/
theorem emptyRecord_fails :
    (Retrieval.beacon oneByOne (.block 64)).anew sameAnswers.outside storedAndUnstored false
        emptyRecord = .ok (.int 7 : Value) ∧
    (Retrieval.beacon oneByOne (.block 64)).anew sameAnswers.outside storedAndUnstored true
        emptyRecord = .error (.missingField "block") :=
  ⟨outcome_block_emptyRecord false, outcome_block_emptyRecord true⟩

end StakeSnapshot
