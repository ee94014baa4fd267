import StakeSnapshot.Proofs.Store.Growth

/-!
# Readings that fail

A reading by way of the store that fails, or that finds nothing, leaves every file as it was, however
far its work has come (`Session.SameFiles`); only the draft of a list that is too deep may be left, which
is no file of a stored value (`Session.SameEntries`). On the way an address is remembered only if the storage
has just answered with it and it is that of a contract (`Session.Learns`). So the reading can be made
again: over a chain that still has the addresses that are remembered, it has the result of a new
reader over an empty store (`Reads.Renewed`).
-/

namespace StakeSnapshot

open Reads
open Store (StoredReading)

variable {α : Type} {s t u : Session}

/-! ### The files -/

/-- The files of the store are the same. The directory may have been created. -/
def Session.SameFiles (s t : Session) : Prop := t.store.files = s.store.files

theorem Session.SameFiles.of_store (h : t.store = s.store) : s.SameFiles t := by rw [SameFiles, h]

/-- The files of stored values are the same. There may be another draft. -/
def Session.SameEntries (s t : Session) : Prop :=
  ∀ key, Table.find? t.store.files (Store.fileName key) = Table.find? s.store.files (Store.fileName key)

/-- A value that cannot be written changes no file of a stored value. -/
theorem Store.find?_set_of_error {v : Value} {refusal : Json.Refusal} (h : encode v = .error refusal)
    (store : Store) (key k : String) :
    Table.find? (store.set key v).files (fileName k) = Table.find? store.files (fileName k) := by
  unfold Store.set
  split
  · cases refusal <;> simp [h, Table.find?_erase_of_ne (draftName_ne_fileName key k),
      Table.find?_put_of_ne (draftName_ne_fileName key k)]
  · rfl

theorem Reads.Moves.of_ended {σ : Type} {R : σ → σ → Prop} {work : EStateM Fault σ α}
    (h : Moves R work) {result : Except Fault α} {a b : σ}
    (hwork : work a = Sources.ended result b) : R a b := by
  cases result with
  | ok x => exact h.of_ok hwork
  | error fault => exact h.of_error hwork

section
variable {useStore : Bool} {q : StoredReading} {ofStored : Value → Except Fault α}
  {form? : α → Option Value} {fresh : Reads α} {result : Except Fault α}

/-- A reading by way of the store leaves the files as they were if it fails, or if its result is none
that is stored. Only if its result is too deep, a draft of it may be left. -/
theorem Session.SameFiles.of_kept (hstore : Moves SameStore fresh)
    (h : kept useStore q ofStored form? fresh s = Sources.ended result t)
    (hresult : ∀ a, result = .ok a → form? a = none) :
    s.SameFiles t ∨
      s.SameEntries t ∧ result = .error (.tooDeep .written) ∧ ¬ Shallow fresh form? := by
  have hend := keptEnd useStore q ofStored form? fresh s
  rw [h] at hend
  generalize hended : Sources.ended result t = x at hend
  cases hend with
  | barred _ ht =>
    obtain ⟨-, rfl⟩ := Sources.ended_inj (y := .error _) hended
    rcases ht with rfl | rfl <;> exact .inl rfl
  | unused => exact .inl (of_store (hstore.of_ended hended.symm))
  | stored =>
    obtain ⟨-, rfl⟩ := Sources.ended_inj hended
    exact .inl rfl
  | failed _ _ hfresh =>
    obtain ⟨-, rfl⟩ := Sources.ended_inj (y := .error _) hended
    have hsame : t.store = s.opened.store := hstore.of_error hfresh
    exact .inl (by rw [SameFiles, hsame]; rfl)
  | formless _ _ hfresh =>
    obtain ⟨-, rfl⟩ := Sources.ended_inj (y := .ok _) hended
    have hsame : t.store = s.opened.store := hstore.of_ok hfresh
    exact .inl (by rw [SameFiles, hsame]; rfl)
  | formed _ _ _ hform =>
    obtain ⟨rfl, -⟩ := Sources.ended_inj (y := .ok _) hended
    cases (hresult _ rfl).symm.trans hform
  | @refused a v fault u _ _ hfresh hform hrefusal =>
    -- only the draft differs, whose name is none of a stored value
    obtain ⟨rfl, rfl⟩ := Sources.ended_inj (y := .error _) hended
    obtain ⟨hencode, rfl⟩ := Store.refusal?_key_eq_some_iff.1 hrefusal
    have hsame : u.store = s.opened.store := hstore.of_ok hfresh
    refine .inr ⟨fun key => ?_, rfl, fun hshallow => ?_⟩
    · rw [Store.find?_set_of_error hencode, hsame]
      rfl
    · exact Store.encode_ne_tooDeep (hshallow hfresh hform) hencode

/-- Readings by way of the store, where nothing is stored for them, end alike if their fresh work does. -/
theorem Reads.outcome_kept_congr {useStore : Bool} {u : Session}
    (hs : s.store.load q.key = .ok none) (hu : u.store.load q.key = .ok none)
    (hfresh : (outcome (fresh s)).1 = (outcome (fresh u)).1)
    (hopened : (outcome (fresh s.opened)).1 = (outcome (fresh u.opened)).1) :
    (outcome (kept useStore q ofStored form? fresh s)).1 =
      (outcome (kept useStore q ofStored form? fresh u)).1 := by
  cases hq : q.keyFault? with
  | some fault =>
    rw [kept_of_keyFault hq, kept_of_keyFault hq]
    rfl
  | none =>
    cases useStore with
    | false => rw [kept_false hq, hfresh]
    | true =>
      have hlook := (Store.look_of_writable hq).trans hs
      have hlook' := (Store.look_of_writable hq).trans hu
      cases hwork : fresh s.opened with
      | error fault t =>
        cases hwork' : fresh u.opened with
        | error fault' t' =>
          rw [kept_of_error hlook hwork, kept_of_error hlook' hwork']
          rwa [hwork, hwork'] at hopened
        | ok a' t' =>
          rw [hwork, hwork'] at hopened
          cases hopened
      | ok a t =>
        cases hwork' : fresh u.opened with
        | error fault' t' =>
          rw [hwork, hwork'] at hopened
          cases hopened
        | ok a' t' =>
          rw [hwork, hwork'] at hopened
          cases hopened
          cases hform : form? a with
          | none => rw [kept_of_formless hlook hwork hform, kept_of_formless hlook' hwork' hform]; rfl
          | some v =>
            rw [kept_of_form hlook hwork hform, kept_of_form hlook' hwork' hform]
            -- the sessions are not to be compared
            cases Store.refusal? q.key v <;> simp only [outcome]

end

theorem BeaconEndpoint.sameFiles_of_block {e : BeaconEndpoint} {out : Outside} {slot : Int}
    {result : Except Fault Value} (h : e.block out slot s = Sources.ended result t)
    (hresult : ∀ v, result = .ok v → v = .null) : s.SameFiles t := by
  rw [block_eq_kept] at h
  have hfiles := Session.SameFiles.of_kept
    (e.moves_freshBlock out slot (Session.admits_sameStore fun _ => True) trivial) h
    (by intro v hv; rw [hresult v hv]; rfl)
  exact hfiles.resolve_right fun hdeep => hdeep.2.2 (e.shallow_block out slot)

namespace ChainReader
variable {r : ChainReader} {out : Outside} {block : Value} (htexts : out.Addresses Value.IsText)
include htexts

/-- A list is never too deep if all addresses are texts. -/
theorem shallow_freshNodes :
    Shallow (r.freshNodes out block) fun rows => some (.list (rows.map NodeRow.toValue)) := by
  intro s t rows v hfresh hform
  cases hform
  obtain ⟨heard, hheard, hlist⟩ := freshNodes_hears hfresh
  exact depth_list_map fun row hrow => (hlist.made hheard htexts row hrow).depth_toValue

theorem shallow_freshMinipools :
    Shallow (r.freshMinipools out block) fun rows => some (.list (rows.map MinipoolRow.toValue)) := by
  intro s t rows v hfresh hform
  cases hform
  obtain ⟨heard, hheard, hlist⟩ := freshMinipools_hears hfresh
  exact depth_list_map fun row hrow => (hlist.made hheard htexts row hrow).depth_toValue

end ChainReader

/-- Any query of a chain reader that fails leaves the files as they were. Only if an address makes its
list too deep, a draft of it may be left. -/
theorem ChainReader.sameFiles_of_answer {r : ChainReader} {out : Outside} {q : ChainQuery}
    {fault : Fault} (h : r.answer out q s = .error fault t) :
    s.SameFiles t ∨
      s.SameEntries t ∧ fault = .tooDeep .written ∧ ¬ out.Addresses Value.IsText := by
  have hstore := r.admitted_sameStore out (.int q.block)
  have hlist : ∀ {α : Type} {p : StoredReading} {ofValue : Value → Except Fault α}
      {toValue : α → Value} {fresh : Reads (List α)}, Moves Session.SameStore fresh →
      (out.Addresses Value.IsText → Shallow fresh fun rows => some (.list (rows.map toValue))) →
      r.storedList p ofValue toValue fresh s = .error fault t →
        s.SameFiles t ∨
          s.SameEntries t ∧ fault = .tooDeep .written ∧ ¬ out.Addresses Value.IsText := by
    intro α p ofValue toValue fresh hfresh hshallow hread
    rw [storedList_eq_kept] at hread
    have hended : _ = Sources.ended (.error fault) t := hread
    rcases Session.SameFiles.of_kept hfresh hended (by rintro rows ⟨⟩) with hfiles | hdeep
    · exact .inl hfiles
    · exact .inr ⟨hdeep.1, Except.error.inj hdeep.2.1, fun h => hdeep.2.2 (hshallow h)⟩
  cases q with
  | nodes block => exact hlist hstore.moves_freshNodes shallow_freshNodes h
  | minipools block => exact hlist hstore.moves_freshMinipools shallow_freshMinipools h
  | _ => exact .inl (.of_store ((hstore.moves_answer fun hne => absurd rfl hne).of_error h))

/-! ### The addresses -/

/-- The call by which a storage is asked for the address of a contract. -/
def registryCall (storage contract : String) (block : Int) : Call :=
  ⟨.text storage, Contracts.ViewFunction.address.name,
    some (.digest (Contracts.registryKey contract)), .int block⟩

namespace Session

/-- Between two sessions the outside has answered a call with a value. -/
def Answered (out : Outside) (c : Call) (v : Value) (s t : Session) : Prop :=
  ∃ before lane, s.history <+: before ∧ before ++ [(lane, .call c)] <+: t.history ∧
    out.chain before c = .ok v

theorem Answered.mono {out : Outside} {c : Call} {v : Value} {s' t' : Session}
    (h : s.Answered out c v t) (hs : s'.history <+: s.history) (ht : t.history <+: t'.history) :
    s'.Answered out c v t' := by
  obtain ⟨before, lane, hbefore, hafter, hanswer⟩ := h
  exact ⟨before, lane, hs.trans hbefore, hafter.trans ht, hanswer⟩

/-- All addresses that are remembered stay so. The others are those of contracts at a block, and the
storage has answered with them in the meantime. -/
structure Learns (out : Outside) (storage : String) (block : Int) (s t : Session) : Prop where
  history : s.history <+: t.history
  remembers : ∀ key address, Table.find? s.addresses key = some address →
    Table.find? t.addresses key = some address
  learnt : ∀ contract key address, Table.find? t.addresses (contract, key) = some address →
    Table.find? s.addresses (contract, key) = some address ∨
      key = .int block ∧ ChainReader.isUnregistered address = .ok false ∧
        s.Answered out (registryCall storage contract block) address t

variable {out : Outside} {storage : String} {block : Int}

theorem Learns.of_eq (hhistory : s.history <+: t.history) (haddresses : t.addresses = s.addresses) :
    s.Learns out storage block t where
  history := hhistory
  remembers key address h := by rwa [haddresses]
  learnt contract key address h := by
    rw [haddresses] at h
    exact .inl h

instance : IsPreorder Session (Learns out storage block) where
  refl _ := .of_eq (List.prefix_refl _) rfl
  trans s t u h h' := by
    refine ⟨h.history.trans h'.history, fun key address hs => ?_, ?_⟩
    · exact h'.remembers key address (h.remembers key address hs)
    · intro contract key address hu
      rcases h'.learnt contract key address hu with ht | ⟨hblock, hzero, hanswered⟩
      · rcases h.learnt contract key address ht with hs | ⟨hblock, hzero, hanswered⟩
        · exact .inl hs
        · exact .inr ⟨hblock, hzero, hanswered.mono (List.prefix_refl _) h'.history⟩
      · exact .inr ⟨hblock, hzero, hanswered.mono h.history (List.prefix_refl _)⟩

theorem learns_asked (s : Session) (q : Question) : s.Learns out storage block (s.asked q) :=
  .of_eq (List.prefix_append _ _) rfl

/-- One more address is remembered after the storage has answered with it. -/
theorem learns_resolved {contract : String} {address : Value}
    (hfind : Table.find? s.addresses (contract, .int block) = none)
    (hanswer : out.chain s.history (registryCall storage contract block) = .ok address)
    (hzero : ChainReader.isUnregistered address = .ok false) :
    s.Learns out storage block
      { s.asked (.call (registryCall storage contract block)) with
        addresses := Table.put s.addresses (contract, .int block) address } where
  history := List.prefix_append _ _
  remembers key address' h := by
    have hne : (contract, Value.int block) ≠ key := by
      rintro rfl
      cases hfind.symm.trans h
    exact (Table.find?_put_of_ne hne _ _).trans h
  learnt contract' key address' h := by
    by_cases heq : (contract, Value.int block) = (contract', key)
    · cases heq
      rw [Table.find?_put_self] at h
      cases h
      exact .inr ⟨rfl, hzero, s.history, s.lane, List.prefix_refl _, List.prefix_refl _, hanswer⟩
    · rw [Table.find?_put_of_ne heq] at h
      exact .inl h

theorem admitsStoring_learns : AdmitsStoring (Learns out storage block) where
  opened _ := .of_eq (List.prefix_refl _) rfl
  stored _ _ _ _ := .of_eq (List.prefix_refl _) rfl

end Session

namespace ChainReader
variable {r : ChainReader} {out : Outside} {contract : String} {block : Int}

/-- At an integer, an address is looked for under the integer itself. -/
theorem resolve_int (r : ChainReader) (out : Outside) (contract : String) (block : Int) (s : Session) :
    r.resolve out contract (.int block) s =
      match Table.find? s.addresses (contract, .int block) with
      | some address => .ok address s
      | none =>
        (do
          let address ← Reads.call out (registryCall r.storage contract block)
          if ← isUnregistered address then
            throw (Fault.unregistered contract (.int block)).raised
          modify fun s =>
            { s with addresses := Table.put s.addresses (contract, .int block) address }
          return address : Reads Value) s := by
  have hkey : (liftM (Value.int block).keyForm : Reads Value) s = .ok (.int block) s := rfl
  have hget : (get : Reads Session) s = .ok s s := rfl
  rw [resolve, bind_of_ok hkey, bind_of_ok hget]
  cases Table.find? s.addresses (contract, .int block) <;> rfl

/-- An address that is remembered is found without a question. -/
theorem resolve_of_remembered {address : Value}
    (hfind : Table.find? s.addresses (contract, .int block) = some address) :
    r.resolve out contract (.int block) s = .ok address s := by
  rw [resolve_int, hfind]

/-- What the storage answers is remembered, unless it says that there is no contract, or is nothing that
says so or not. -/
theorem resolve_of_answer {address : Value}
    (hfind : Table.find? s.addresses (contract, .int block) = none)
    (hanswer : out.chain s.history (registryCall r.storage contract block) = .ok address) :
    r.resolve out contract (.int block) s =
      match isUnregistered address with
      | .error fault => .error fault (s.asked (.call (registryCall r.storage contract block)))
      | .ok true =>
        .error (Fault.unregistered contract (.int block)).raised
          (s.asked (.call (registryCall r.storage contract block)))
      | .ok false =>
        .ok address { s.asked (.call (registryCall r.storage contract block)) with
          addresses := Table.put s.addresses (contract, .int block) address } := by
  have hcall := call_apply out (registryCall r.storage contract block) s
  rw [hanswer] at hcall
  rw [resolve_int, hfind]
  refine (bind_of_ok hcall).trans ?_
  cases isUnregistered address with
  | error fault => rfl
  | ok zero => cases zero <;> rfl

/-- An address that is not remembered is asked for. It is remembered if the storage answers with that
of a contract, and otherwise there is a failure, which is that of the call if the call fails. -/
theorem resolve_of_unknown (r : ChainReader) (out : Outside)
    (hfind : Table.find? s.addresses (contract, .int block) = none) :
    (∃ address,
      out.chain s.history (registryCall r.storage contract block) = .ok address ∧
      isUnregistered address = .ok false ∧
      r.resolve out contract (.int block) s =
        .ok address { s.asked (.call (registryCall r.storage contract block)) with
          addresses := Table.put s.addresses (contract, .int block) address }) ∨
    ∃ fault,
      r.resolve out contract (.int block) s =
        .error fault (s.asked (.call (registryCall r.storage contract block))) ∧
      (∀ cause, out.chain s.history (registryCall r.storage contract block) = .error cause →
        fault = cause) ∧
      ∀ address,
        out.chain s.history (registryCall r.storage contract block) = .ok address →
          isUnregistered address = .error fault ∨ isUnregistered address = .ok true ∧
            fault = (Fault.unregistered contract (.int block)).raised := by
  cases hanswer : out.chain s.history (registryCall r.storage contract block) with
  | error cause =>
    have hcall := call_apply out (registryCall r.storage contract block) s
    rw [hanswer] at hcall
    refine .inr ⟨cause, ?_, by rintro _ ⟨⟩; rfl, by rintro _ ⟨⟩⟩
    rw [resolve_int, hfind]
    exact bind_of_error hcall
  | ok address =>
    have hresolve := resolve_of_answer hfind hanswer
    cases hzero : isUnregistered address with
    | error fault =>
      rw [hzero] at hresolve
      exact .inr ⟨fault, hresolve, by rintro _ ⟨⟩, by rintro _ ⟨⟩; exact .inl hzero⟩
    | ok zero =>
      rw [hzero] at hresolve
      cases zero with
      | true => exact .inr ⟨_, hresolve, by rintro _ ⟨⟩, by rintro _ ⟨⟩; exact .inr ⟨hzero, rfl⟩⟩
      | false => exact .inl ⟨address, rfl, hzero, hresolve⟩

/-- However the storage answers, only what it answers is learnt. -/
theorem moves_resolve_learns :
    Moves (Session.Learns out r.storage block) (r.resolve out contract (.int block)) := by
  intro s
  cases hfind : Table.find? s.addresses (contract, .int block) with
  | some address =>
    rw [after_of_ok (resolve_of_remembered hfind)]
    exact refl_of _ s
  | none =>
    rcases resolve_of_unknown r out hfind with ⟨address, hanswer, hzero, hresolve⟩ | ⟨fault, hresolve, -⟩
    · rw [after_of_ok hresolve]
      exact s.learns_resolved hfind hanswer hzero
    · rw [after_of_error hresolve]
      exact s.learns_asked (.call (registryCall r.storage contract block))

theorem admitted_learns (r : ChainReader) (out : Outside) (block : Int) :
    r.Admitted out (.int block) (Session.Learns out r.storage block) where
  called c _ _ s := by
    rw [after_call]
    exact s.learns_asked _
  resolved _ := moves_resolve_learns

end ChainReader

/-! ### The same reading again -/

/-- In a world, and over any store that has nothing for it, some work has the result that it has in a
session in which nothing has happened. -/
def Reads.Renewed (w : World) (readings : List StoredReading) (work : Outside → Reads α)
    (s : Session) : Prop :=
  ∀ store : Store, (∀ q ∈ readings, store.load q.key = .ok none) →
    (outcome (work w.outside { s with store })).1 = (outcome (work w.outside (.start .empty))).1

theorem BeaconEndpoint.outcome_freshBlock (e : BeaconEndpoint) (w : World) (slot : Int)
    (s : Session) : (outcome (e.freshBlock w.outside slot s)).1 = w.blockAt e.base slot := by
  -- an endpoint remembers nothing, so no property of the session matters
  have hends : Ends (fun (_ : Unit) (_ : Session) => True) (fun _ => e.freshBlock w.outside slot)
      (w.blockAt e.base slot) :=
    e.ends_freshBlock (fun _ _ _ _ => trivial) slot
  obtain ⟨t, ht, -⟩ := hends () s trivial
  dsimp only at ht
  rw [ht, outcome_ended]

theorem BeaconEndpoint.renewed_block (e : BeaconEndpoint) (w : World) (slot : Int) (s : Session) :
    Renewed w [.block e.base slot] (e.block · slot) s := by
  intro store hstore
  have hsame : ∀ u v : Session,
      (outcome (e.freshBlock w.outside slot u)).1 = (outcome (e.freshBlock w.outside slot v)).1 :=
    fun u v => by rw [outcome_freshBlock, outcome_freshBlock]
  simp only [block_eq_kept]
  exact outcome_kept_congr (hstore _ List.mem_cons_self) rfl (hsame _ _) (hsame _ _)

/-- A list that is not stored has the result of a new reader. -/
theorem ChainReader.renewed_storedList {α : Type} {r : ChainReader} {w : World} {p : StoredReading}
    {ofValue : Value → Except Fault α} {toValue : α → Value} (fresh : Outside → Reads (List α))
    (hs : s.Knows w r.storage fun _ => True)
    (hfresh : Steady (Session.Knows w r.storage) fun _ => fresh w.outside) :
    Renewed w [p] (fun out => r.storedList p ofValue toValue (fresh out)) s := by
  intro store hstore
  obtain ⟨result, hresult⟩ := hfresh
  have hsame : ∀ u : Session, u.addresses = s.addresses ∨ u.addresses = [] →
      (outcome (fresh w.outside u)).1 = result := by
    intro u hu
    have hknows : u.Knows w r.storage fun _ => True := by
      refine ⟨fun contract key address hfind => ?_, trivial⟩
      rcases hu with hu | hu
      · rw [hu] at hfind
        exact hs.addresses contract key address hfind
      · rw [hu] at hfind
        cases hfind
    obtain ⟨t, ht, -⟩ := hresult _ u hknows
    dsimp only at ht
    rw [ht, outcome_ended]
  simp only [storedList_eq_kept]
  refine outcome_kept_congr (hstore _ List.mem_cons_self) rfl ?_ ?_
  · exact (hsame { s with store } (.inl rfl)).trans (hsame (.start .empty) (.inr rfl)).symm
  · exact (hsame (Session.opened { s with store }) (.inl rfl)).trans
      (hsame (Session.start .empty).opened (.inr rfl)).symm

theorem ChainReader.renewed_answer {r : ChainReader} {w : World}
    (hs : s.Knows w r.storage fun _ => True) (q : ChainQuery) :
    Renewed w (r.stored q) (r.answer · q) s := by
  have hunstored : r.stored q = [] → Renewed w (r.stored q) (r.answer · q) s := by
    intro hq store _
    have hstart : (Session.start .empty).Knows w r.storage fun _ => True := .start .empty trivial
    have hsession : ({ s with store } : Session).Knows w r.storage fun _ => True :=
      ⟨hs.addresses, trivial⟩
    obtain ⟨t, ht, -⟩ := (r.steady_unstored (w := w) hq).exists_outcome_eq hsession hstart
    have hresult := congrArg Prod.fst ht
    exact hresult
  cases q with
  | nodes block =>
    exact renewed_storedList (fun out => r.freshNodes out (.int block)) hs
      (steady_freshNodes r block)
  | minipools block =>
    exact renewed_storedList (fun out => r.freshMinipools out (.int block)) hs
      (steady_freshMinipools r block)
  | _ => exact hunstored rfl

/-- A reading that fails, or that finds that a slot is empty, leaves the files of stored values as they
were, whatever the outside answers, and a chain reader has learnt at most addresses that its storage has
answered with. No other file is there either, except for the draft of a list that is too deep, as it can
only be where an address is no text. The same reading can then be made again: in a world that has the
addresses that are remembered, it has the result of a new reader. -/
theorem failed_reading_renewed (out : Outside) (e : BeaconEndpoint) (r : ChainReader)
    (s t : Session) :
    (∀ slot result, e.block out slot s = Sources.ended result t →
      (∀ v, result = .ok v → v = .null) →
        s.SameFiles t ∧ ∀ w, Renewed w [.block e.base slot] (e.block · slot) t) ∧
    ∀ (q : ChainQuery) fault, r.answer out q s = .error fault t →
      (s.SameFiles t ∨
          s.SameEntries t ∧ fault = .tooDeep .written ∧ ¬ out.Addresses Value.IsText) ∧
        s.Learns out r.storage q.block t ∧
        ∀ w, t.Knows w r.storage (fun _ => True) → Renewed w (r.stored q) (r.answer · q) t := by
  constructor
  · intro slot result h hresult
    exact ⟨BeaconEndpoint.sameFiles_of_block h hresult, fun w => e.renewed_block w slot t⟩
  · intro q fault h
    have hlearns : s.Learns out r.storage q.block t :=
      ((r.admitted_learns out q.block).moves_answer fun _ => Session.admitsStoring_learns).of_error h
    exact ⟨ChainReader.sameFiles_of_answer h, hlearns, fun w hw => ChainReader.renewed_answer hw q⟩

/-! ### A minipool of an unknown stage -/

/-- A beacon node that has no blocks, and a chain with one minipool, at a stage of a number. -/
def oneMinipoolAt (stage : Int) : World where
  beacon _ _ := .response 404 ""
  chain c :=
    if c.function = Contracts.ViewFunction.minipoolPubkey.name then .ok (.bytes .constant [])
    else if c.function = Contracts.ViewFunction.minipoolStatus.name then .ok (.int stage)
    else .ok (.text "0x01")

/-- The address that is remembered then. -/
def managerAtSeven : Table (String × Value) Value :=
  [((Contracts.minipoolManager, .int 7), .text "0x01")]

/-- The rows once the stage is known. -/
def oneStakingRow : List MinipoolRow :=
  [⟨.text "0x01", .text "0x01", .text "", .bool true, .staking, .int 1, .int 1⟩]

/-- The minipool is not read, but the address of its manager is remembered. -/
theorem minipools_oneMinipoolAt_seven :
    ∃ fault t, (storedAndUnstored 0).answer (oneMinipoolAt 7).outside (.minipools 7)
        (.start .empty) = .error fault t ∧ fault ≠ .tooDeep .written ∧
      t.addresses = managerAtSeven := by
  have hrun : (match (storedAndUnstored 0).minipools (oneMinipoolAt 7).outside (.int 7)
      (.start .empty) with
    | .ok .. => false
    | .error fault t => fault ≠ .tooDeep .written ∧ t.addresses = managerAtSeven) = true := by
    decide +kernel
  split at hrun
  · cases hrun
  · next fault t hread => exact ⟨fault, t, hread, of_decide_eq_true hrun⟩

theorem minipools_oneMinipoolAt_two :
    (outcome ((storedAndUnstored 0).minipools (oneMinipoolAt 2).outside (.int 7)
      (.start .empty))).1 = .ok oneStakingRow := by
  have hrun : (match (storedAndUnstored 0).minipools (oneMinipoolAt 2).outside (.int 7)
      (.start .empty) with
    | .ok minipools _ => minipools == oneStakingRow
    | .error .. => false) = true := by
    decide +kernel
  split at hrun
  · next minipools t hread => rw [hread, outcome, beq_iff_eq.1 hrun]
  · cases hrun

/-- A slot is empty, and a minipool is at an unknown stage. Once its stage is known, it is read by the
same reader. -/
theorem failed_reading_renewed_stage :
    (∃ t, oneByOne.block (oneMinipoolAt 7).outside 64 (.start .empty) = .ok .null t ∧
      (Session.start .empty).SameFiles t) ∧
    ∃ fault t, (storedAndUnstored 0).answer (oneMinipoolAt 7).outside (.minipools 7)
        (.start .empty) = .error fault t ∧
      (Session.start .empty).SameFiles t ∧ t.addresses = managerAtSeven ∧
      (outcome ((storedAndUnstored 0).answer (oneMinipoolAt 2).outside (.minipools 7) t)).1 =
        .ok oneStakingRow := by
  have hrenewed := failed_reading_renewed (oneMinipoolAt 7).outside oneByOne (storedAndUnstored 0)
    (.start .empty)
  constructor
  · refine ⟨_, rfl, ((hrenewed _).1 64 (.ok .null) rfl fun v hv => ?_).1⟩
    cases hv
    rfl
  · obtain ⟨fault, t, hread, hdeep, haddresses⟩ := minipools_oneMinipoolAt_seven
    obtain ⟨hfiles, -, hagain⟩ := (hrenewed t).2 (.minipools 7) fault hread
    have hfiles := hfiles.resolve_right fun h => hdeep h.2.1
    have hknows : t.Knows (oneMinipoolAt 2) (storedAndUnstored 0).storage fun _ => True := by
      refine ⟨fun contract key address hfind => ?_, trivial⟩
      rw [haddresses, managerAtSeven, Table.find?] at hfind
      split at hfind
      · next hkey =>
        cases hkey
        exact ⟨7, rfl, congrArg Except.ok (Option.some.inj hfind)⟩
      · cases hfind
    have hnone : ∀ q ∈ (storedAndUnstored 0).stored (.minipools 7),
        t.store.load q.key = .ok none := by
      intro q _
      rw [Store.load, hfiles]
      rfl
    refine ⟨fault, t, hread, hfiles, haddresses, ?_⟩
    exact (hagain _ hknows t.store hnone).trans minipools_oneMinipoolAt_two

end StakeSnapshot
