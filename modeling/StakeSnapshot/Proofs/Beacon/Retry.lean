import StakeSnapshot.Proofs.Beacon.Batches

/-!
# Reading the validators again after a failure

Where reading the validators has failed, the batches before the failing one are stored, and reading
them again takes them from the store. The failing batch decides what comes next
(`validators_after_failure`). If the node answered it with data that cannot be read, these are stored
as well, and every later attempt fails, however well the node answers by then. If there was nothing that
could be stored, a later attempt succeeds as soon as the node answers well.
-/

namespace StakeSnapshot

open Reads

namespace BeaconEndpoint

variable {out : Outside} {e : BeaconEndpoint} {slot : Int} {keys : List String} {s t : Session}
  {fault : Fault}

/-- Over the store, reading the validators fails, whatever the node answers; and it fails with the given
fault unless the node answers badly for one of the given batches, and that one is not stored. -/
def Stuck (e : BeaconEndpoint) (keys : List String) (slot : Int) (done : List (List String))
    (store : Store) (fault : Fault) : Prop :=
  ∀ (out : Outside) (s : Session), s.store = store →
    ∃ other t, e.validators out keys slot s = .error other t ∧
      ((∀ b ∈ done, store.load (e.batchKey slot b) = .ok none → WellAnswered out e slot b) →
        other = fault)

/-- Over the store, reading the validators succeeds if the node answers well; what it gives comes from
the store for the batches that are stored, and from the node for the others. -/
def Recovers (e : BeaconEndpoint) (keys : List String) (slot : Int) (store : Store) : Prop :=
  ∀ (out : Outside) (s : Session), s.store = store →
    (∀ b ∈ e.batchesOf keys, store.load (e.batchKey slot b) = .ok none → WellAnswered out e slot b) →
    ∃ vss t, e.validators out keys slot s = .ok (Table.ofRows (validatorRows vss.flatten)) t ∧
      List.Forall₂ (Comes out e slot store) (e.batchesOf keys) vss

section
variable (huse : e.useStore = true) (hslot : Number.isWritable slot = true)
include huse hslot

/-- A stored batch that cannot be read, after batches that can, fails every attempt. -/
theorem stuck_of_stored {done rest : List (List String)} {batch : List String} {store : Store}
    {v : Value} (hbatches : e.batchesOf keys = done ++ batch :: rest)
    (hdone : ∀ b ∈ done, e.Readable slot store b)
    (hv : store.load (e.batchKey slot batch) = .ok (some v)) (hlisted : listed v = .error fault) :
    e.Stuck keys slot done store fault := by
  rintro out s rfl
  cases hread : done.mapM (e.batchRows out slot) s with
  | error other t =>
    obtain ⟨before, b, after, ys, u, rfl, hbefore, hb⟩ := error_of_mapM hread
    refine ⟨other, t, validators_of_error ?_, fun hanswered => ?_⟩
    · rw [hbatches, List.append_assoc]
      exact mapM_of_error hbefore hb
    · obtain ⟨vss, t, hok, -⟩ := exists_batches_of_answered huse (fun _ => hslot) hdone hanswered
      cases hread.symm.trans hok
  | ok vss u =>
    have hkept := (batches_of_ok huse hread).1 (e.batchKey slot batch) (by rw [hv]; nofun)
    obtain ⟨t, hfail⟩ := exists_batchRows_of_stored huse out hslot (hkept.trans hv) hlisted
    refine ⟨fault, t, validators_of_error ?_, fun _ => rfl⟩
    rw [hbatches]
    exact mapM_of_error hread hfail

theorem recovers_of_readable {store : Store}
    (hreadable : ∀ b ∈ e.batchesOf keys, e.Readable slot store b)
    (hnodup : ((e.batchesOf keys).map (e.batchKey slot)).Nodup) : e.Recovers keys slot store := by
  rintro out s rfl hanswered
  obtain ⟨vss, t, hread, hcomes⟩ := exists_batches_of_answered huse (fun _ => hslot) hreadable hanswered
  exact ⟨vss, t, validators_of_ok hread, hcomes hnodup⟩

end

/-- What a failed attempt to read the validators leaves behind. The batches before the failing one have
been read, and are stored unless the node's answer cannot be. For the failing one either the node's
answer is stored, which cannot be read, and every later attempt fails; or there was no answer, or none
that can be stored, nothing is stored, and a later attempt succeeds if the node answers well; or the
number of the slot is too long for any request. -/
theorem validators_after_failure (huse : e.useStore = true)
    (hreadable : ∀ b ∈ e.batchesOf keys, e.Readable slot s.store b)
    (hnodup : ((e.batchesOf keys).map (e.batchKey slot)).Nodup)
    (hfail : e.validators out keys slot s = .error fault t) :
    ∃ done batch rest, e.batchesOf keys = done ++ batch :: rest ∧
      (∀ b ∈ done, HasRead out e slot t.store b) ∧
      ((∃ history v, out.data history (e.batchRequest slot batch) = .ok v ∧ v.Whole ∧
          listed v = .error fault ∧ t.store.load (e.batchKey slot batch) = .ok (some v) ∧
          e.Stuck keys slot done t.store fault) ∨
        ((∃ history, ∀ v, out.data history (e.batchRequest slot batch) = .ok v →
            v = .null ∨ ¬ v.Whole) ∧
          t.store.load (e.batchKey slot batch) = .ok none ∧ e.Recovers keys slot t.store) ∨
        Number.isWritable slot = false ∧ fault = .numberTooLong) := by
  obtain ⟨done, batch, rest, vss, u, hbatches, hdone, hbatch⟩ :=
    error_of_mapM (error_of_validators hfail)
  obtain ⟨-, hread, -, hstay⟩ := batches_of_ok huse hdone
  have hend := batchEnd_of_error huse hbatch
  -- reading the batches before the failing one has kept all of them readable
  have hu : ∀ b ∈ e.batchesOf keys, e.Readable slot u.store b :=
    fun b hb => hstay b (hreadable b hb)
  have hkept : ∀ b ∈ done, HasRead out e slot t.store b := by
    intro b hb
    have hne : e.batchKey slot batch ≠ e.batchKey slot b := by
      rw [hbatches, List.map_append, List.map_cons, List.nodup_append] at hnodup
      exact fun heq => hnodup.2.2 _ (List.mem_map_of_mem hb) _ List.mem_cons_self heq.symm
    have hb := hread b hb
    rwa [HasRead, ← hend.frame hne] at hb
  refine ⟨done, batch, rest, hbatches, hkept, ?_⟩
  cases hslot : Number.isWritable slot with
  | false =>
    rw [batchRows_of_long hslot] at hbatch
    cases hbatch
    exact .inr (.inr ⟨rfl, rfl⟩)
  | true =>
  obtain ⟨v?, hload, hlists⟩ := hu batch (by simp [hbatches])
  have hrecovers : (∀ k, t.store.load k = u.store.load k) → e.Recovers keys slot t.store := by
    intro hsame
    refine recovers_of_readable huse hslot (fun b hb => ?_) hnodup
    have hb := hu b hb
    rwa [Readable, ← hsame] at hb
  -- what was readable cannot fail from the store, so the node was asked
  cases hend with
  | unasked hlong _ _ => cases hlong.symm.trans hslot
  | barred hbarred _ _ => cases hload.symm.trans hbarred
  | stored hv _ hlisted =>
    obtain ⟨vs, hvs⟩ := hlists _ (Except.ok.inj (hload.symm.trans hv))
    cases hlisted.symm.trans hvs
  | fetched _ hdata hwhole hv _ hlisted =>
    exact .inl ⟨_, _, hdata, hwhole, hlisted, hv,
      stuck_of_stored huse hslot hbatches (fun b hb => (hkept b hb).readable) hv hlisted⟩
  | unstored hnone hdata hv hsame _ =>
    refine .inr (.inl ⟨⟨u.history, fun w hw => ?_⟩, (hsame _).trans hnone, hrecovers hsame⟩)
    cases hdata.symm.trans hw
    exact hv
  | refused hnone hdata hsame _ =>
    refine .inr (.inl ⟨⟨u.history, fun w hw => ?_⟩, (hsame _).trans hnone, hrecovers hsame⟩)
    cases hdata.symm.trans hw

/-! ### A node that answers badly at first -/

/-- An endpoint that asks for one validator at a time. -/
def singly : BeaconEndpoint := ⟨"http://b", 30, 1, true, by decide⟩

/-- A node whose only entry lacks the validator itself. -/
def withoutValidator : Outside where
  beacon _ _ := .response 200 "\x7b\"data\":[\x7b\"index\":\"1\"\x7d]\x7d"
  chain _ _ := .ok .null

/-- A node that answers with an empty list. -/
def withoutEntries : Outside where
  beacon _ _ := .response 200 "\x7b\"data\":[]\x7d"
  chain _ _ := .ok .null

theorem data_withoutValidator (history : History) (r : Request) :
    withoutValidator.data history r = .ok (.list [.record [("index", .text "1")]]) := by
  rw [Outside.data_of_response rfl (by decide)]
  decide +kernel

theorem whole_withoutValidator : (Value.list [.record [("index", .text "1")]]).Whole := by
  refine .list (List.forall_mem_singleton.2 (.record (List.forall_mem_singleton.2 ?_)))
  exact .text "1"

theorem wellAnswered_withoutEntries (b : List String) :
    WellAnswered withoutEntries singly 64 b := by
  refine fun history => ⟨.list [], [], ?_, rfl⟩
  rw [Outside.data_of_response rfl (by decide)]
  decide +kernel

theorem batchesOf_singly : singly.batchesOf ["0xab"] = [["0xab"]] := by
  rw [batchesOf, Table.distinct_of_nodup (List.nodup_singleton _)]
  simp [batches]

/-- Its answer makes the first attempt fail, and all later ones. -/
theorem exists_failure_withoutValidator :
    ∃ t, singly.validators withoutValidator ["0xab"] 64 (.start .empty) =
        .error (.missingField "validator") t ∧
      singly.Stuck ["0xab"] 64 [] t.store (.missingField "validator") := by
  obtain ⟨x, t, hx, hend⟩ :=
    exists_batchEnd withoutValidator (e := singly) rfl 64 ["0xab"] (.start .empty)
  cases hend with
  | unasked hlong _ _ => cases hlong
  | barred hbarred _ _ => cases hbarred
  | stored hv _ _ => cases hv
  | refused _ hdata _ _ => cases (data_withoutValidator _ _).symm.trans hdata
  | unstored _ hdata hv _ _ =>
    cases (data_withoutValidator _ _).symm.trans hdata
    rcases hv with hv | hv
    · cases hv
    · exact absurd whole_withoutValidator hv
  | fetched _ hdata _ hstored _ hlisted =>
    cases (data_withoutValidator _ _).symm.trans hdata
    have hbatches : singly.batchesOf ["0xab"] = [] ++ ["0xab"] :: [] := batchesOf_singly
    refine ⟨t, validators_of_error ?_, stuck_of_stored rfl rfl hbatches (by simp) hstored rfl⟩
    rw [batchesOf_singly, List.mapM_cons]
    rw [← hlisted] at hx
    exact bind_of_error hx

/-- Where the node's answer cannot be read, it is stored, and nothing but failures can follow. -/
theorem validators_after_failure_withoutValidator :
    ∃ t, singly.useStore = true ∧
      (∀ b ∈ singly.batchesOf ["0xab"], singly.Readable 64 Store.empty b) ∧
      ((singly.batchesOf ["0xab"]).map (singly.batchKey 64)).Nodup ∧
      singly.validators withoutValidator ["0xab"] 64 (.start .empty) =
        .error (.missingField "validator") t ∧
      ∃ done batch rest, singly.batchesOf ["0xab"] = done ++ batch :: rest ∧
        (∀ b ∈ done, HasRead withoutValidator singly 64 t.store b) ∧
        ((∃ history v, withoutValidator.data history (singly.batchRequest 64 batch) = .ok v ∧
            v.Whole ∧ listed v = .error (.missingField "validator") ∧
            t.store.load (singly.batchKey 64 batch) = .ok (some v) ∧
            singly.Stuck ["0xab"] 64 done t.store (.missingField "validator")) ∨
          ((∃ history, ∀ v,
            withoutValidator.data history (singly.batchRequest 64 batch) = .ok v →
              v = .null ∨ ¬ v.Whole) ∧
            t.store.load (singly.batchKey 64 batch) = .ok none ∧
            singly.Recovers ["0xab"] 64 t.store) ∨
          Number.isWritable 64 = false ∧
            Fault.missingField "validator" = .numberTooLong) := by
  obtain ⟨t, ht, -⟩ := exists_failure_withoutValidator
  have hreadable : ∀ b ∈ singly.batchesOf ["0xab"], singly.Readable 64 Store.empty b := by
    intro b _
    exact ⟨none, rfl, by rintro v ⟨⟩⟩
  have hnodup : ((singly.batchesOf ["0xab"]).map (singly.batchKey 64)).Nodup := by
    rw [batchesOf_singly]
    exact List.nodup_singleton _
  exact ⟨t, rfl, hreadable, hnodup, ht, validators_after_failure rfl hreadable hnodup ht⟩

/-- The node's first answer is stored and stands in the way of all later ones: reading the validators
fails again although the node answers well. -/
theorem failure_outlasts_withoutValidator :
    ∃ t u, singly.validators withoutValidator ["0xab"] 64 (.start .empty) =
        .error (.missingField "validator") t ∧
      (∀ b ∈ singly.batchesOf ["0xab"], WellAnswered withoutEntries singly 64 b) ∧
      singly.validators withoutEntries ["0xab"] 64 t = .error (.missingField "validator") u := by
  obtain ⟨t, ht, hstuck⟩ := exists_failure_withoutValidator
  obtain ⟨other, u, hu, hother⟩ := hstuck withoutEntries t rfl
  obtain rfl := hother fun _ hb => absurd hb List.not_mem_nil
  exact ⟨t, u, ht, fun b _ => wellAnswered_withoutEntries b, hu⟩

end BeaconEndpoint

end StakeSnapshot
