import StakeSnapshot.Contracts.Reader
import StakeSnapshot.Proofs.Beacon.Endpoint
import StakeSnapshot.Proofs.Snapshot.Trace

/-!
# Readings by way of the store

The four readings that are stored follow one scheme (`Reads.kept`): a stored value decides the result,
and without one fresh work is done, whose result is stored in a form of its own. They differ in the
form, in how it is read back, and in what the fresh work is.
-/

namespace StakeSnapshot

open Store (StoredReading)

/-- A session in which the store has been looked at. -/
def Session.opened (s : Session) : Session := { s with store := s.store.ensured }

/-- The result of a reading. Without the text of its key there is none. -/
def Store.StoredReading.keyed {α : Type} (q : StoredReading) (result : Except Fault α) :
    Except Fault α :=
  match q.keyFault? with
  | none => result
  | some fault => .error fault

namespace Reads

variable {α : Type}

/-- The form of what some work gives is never too deep to be stored. -/
def Shallow (fresh : Reads α) (form? : α → Option Value) : Prop :=
  ∀ ⦃s t : Session⦄ ⦃a : α⦄ ⦃v : Value⦄, fresh s = .ok a t → form? a = some v →
    v.depth ≤ Json.maxDepth

/-- A reading by way of the store. A result without a form is not stored. -/
def kept (useStore : Bool) (q : StoredReading) (ofStored : Value → Except Fault α)
    (form? : α → Option Value) (fresh : Reads α) : Reads α := do
  match ← lookUp useStore q with
  | some v => ofStored v
  | none =>
    let a ← fresh
    match form? a with
    | some v => do
      remember useStore q v
      return a
    | none => return a

variable {q : StoredReading} {ofStored : Value → Except Fault α} {form? : α → Option Value}
  {fresh : Reads α} {s t : Session}

theorem lookUp_false (hq : q.keyFault? = none) (s : Session) : lookUp false q s = .ok none s := by
  rw [lookUp, hq]
  rfl

/-- What is looked up is what the store has. Without the text of the key the store is not opened. -/
theorem lookUp_true (q : StoredReading) (s : Session) :
    lookUp true q s =
      Sources.ended (s.store.look q) (if q.keyFault? = none then s.opened else s) := by
  unfold lookUp
  split
  · next hq =>
    rw [if_pos rfl, if_pos hq]
    cases s.store.look q <;> rfl
  · next fault hq =>
    rw [if_neg (by rw [hq]; rintro ⟨⟩), Store.look, hq]
    rfl

theorem keyFault?_of_look {v? : Option Value} (h : s.store.look q = .ok v?) :
    q.keyFault? = none := by
  unfold Store.look at h
  split at h
  · assumption
  · cases h

theorem lookUp_of_look {v? : Option Value} (h : s.store.look q = .ok v?) :
    lookUp true q s = .ok v? s.opened := by
  rw [lookUp_true, h, if_pos (keyFault?_of_look h)]
  rfl

/-- Looking a reading up may open the store, and changes nothing else. -/
theorem exists_lookUp_ended (useStore : Bool) (q : StoredReading) (s : Session) :
    ∃ x t, lookUp useStore q s = Sources.ended x t ∧ (t = s ∨ t = s.opened) := by
  cases useStore with
  | true =>
    refine ⟨_, _, lookUp_true q s, ?_⟩
    split
    · exact .inr rfl
    · exact .inl rfl
  | false =>
    unfold lookUp
    split
    · exact ⟨.ok none, s, rfl, .inl rfl⟩
    · exact ⟨.error _, s, rfl, .inl rfl⟩

/-- Without the store there is only the fresh work. -/
theorem kept_false (hq : q.keyFault? = none) : kept false q ofStored form? fresh = fresh := by
  refine Eq.trans ?_ (bind_pure fresh)
  funext s
  refine (bind_of_ok (lookUp_false hq s)).trans (congrFun ?_ s)
  refine congrArg (fresh >>= ·) (funext fun a => ?_)
  cases form? a <;> rfl

/-- Without the text of the key nothing else is done. -/
theorem kept_of_keyFault {fault : Fault} (hq : q.keyFault? = some fault) (useStore : Bool) :
    kept useStore q ofStored form? fresh s = .error fault s := by
  refine bind_of_error ?_
  rw [lookUp, hq]

theorem keyFault?_of_kept {useStore : Bool} {a : α}
    (h : kept useStore q ofStored form? fresh s = .ok a t) : q.keyFault? = none := by
  cases hq : q.keyFault? with
  | none => rfl
  | some fault =>
    rw [kept_of_keyFault hq] at h
    cases h

/-- Where the store cannot be looked at, nothing else is done. -/
theorem exists_kept_of_barred {fault : Fault} (ofStored : Value → Except Fault α)
    (form? : α → Option Value) (fresh : Reads α) (h : s.store.look q = .error fault) :
    ∃ t, kept true q ofStored form? fresh s = .error fault t ∧ (t = s ∨ t = s.opened) := by
  refine ⟨_, bind_of_error ((lookUp_true q s).trans (by rw [h]; rfl)), ?_⟩
  split
  · exact .inr rfl
  · exact .inl rfl

/-- A stored value decides the result. -/
theorem kept_of_stored {v : Value} (h : s.store.look q = .ok (some v)) :
    kept true q ofStored form? fresh s = Sources.ended (ofStored v) s.opened := by
  rw [kept, bind_of_ok (lookUp_of_look h)]
  exact Sources.lift_eq_ended _ _

theorem kept_of_error {fault : Fault} (h : s.store.look q = .ok none)
    (hfresh : fresh s.opened = .error fault t) :
    kept true q ofStored form? fresh s = .error fault t := by
  rw [kept, bind_of_ok (lookUp_of_look h)]
  exact bind_of_error hfresh

/-- The form of a fresh result is stored, unless it is refused. -/
theorem kept_of_form {a : α} {v : Value} (h : s.store.look q = .ok none)
    (hfresh : fresh s.opened = .ok a t) (hform : form? a = some v) :
    kept true q ofStored form? fresh s =
      match Store.refusal? q.key v with
      | none => .ok a { t with store := t.store.set q.key v }
      | some fault => .error fault { t with store := t.store.set q.key v } := by
  rw [kept, bind_of_ok (lookUp_of_look h)]
  refine (bind_of_ok hfresh).trans ?_
  rw [hform]
  have hsave : remember true q v t =
      match Store.refusal? q.key v with
      | none => .ok () { t with store := t.store.set q.key v }
      | some fault => .error fault { t with store := t.store.set q.key v } := by
    rw [remember, if_pos rfl, Store.save]
    cases Store.refusal? q.key v <;> rfl
  cases hrefusal : Store.refusal? q.key v with
  | none =>
    rw [hrefusal] at hsave
    exact bind_of_ok hsave
  | some fault =>
    rw [hrefusal] at hsave
    exact bind_of_error hsave

theorem kept_of_formless {a : α} (h : s.store.look q = .ok none)
    (hfresh : fresh s.opened = .ok a t) (hform : form? a = none) :
    kept true q ofStored form? fresh s = .ok a t := by
  rw [kept, bind_of_ok (lookUp_of_look h)]
  refine (bind_of_ok hfresh).trans ?_
  rw [hform]
  rfl

theorem exists_kept_of_form (ofStored : Value → Except Fault α) {a : α} {v : Value}
    (hshallow : Shallow fresh form?) (h : s.store.look q = .ok none)
    (hfresh : fresh s.opened = .ok a t) (hform : form? a = some v) :
    ∃ u, kept true q ofStored form? fresh s = .ok a u ∧ u.store = t.store.set q.key v := by
  refine ⟨{ t with store := t.store.set q.key v }, ?_, ?_⟩
  · rw [kept_of_form h hfresh hform, Store.refusal?_key (hshallow hfresh hform)]
  · dsimp only

/-- How a reading by way of the store ends: the store cannot be looked at, or is not used, or has the
value; or the fresh work is done after it has been opened, whose result is stored if it has a form,
unless the form is refused. -/
inductive KeptEnd (useStore : Bool) (q : StoredReading) (ofStored : Value → Except Fault α)
    (form? : α → Option Value) (fresh : Reads α) (s : Session) :
    EStateM.Result Fault Session α → Prop where
  | barred {fault : Fault} {t : Session} (hfault : s.store.look q = .error fault)
      (ht : t = s ∨ t = s.opened) : KeptEnd useStore q ofStored form? fresh s (.error fault t)
  | unused (hq : q.keyFault? = none) (huse : useStore = false) :
      KeptEnd useStore q ofStored form? fresh s (fresh s)
  | stored {v : Value} (huse : useStore = true) (hlook : s.store.look q = .ok (some v)) :
      KeptEnd useStore q ofStored form? fresh s (Sources.ended (ofStored v) s.opened)
  | failed {fault : Fault} {t : Session} (huse : useStore = true) (hlook : s.store.look q = .ok none)
      (hfresh : fresh s.opened = .error fault t) :
      KeptEnd useStore q ofStored form? fresh s (.error fault t)
  | formed {a : α} {v : Value} {t : Session} (huse : useStore = true)
      (hlook : s.store.look q = .ok none) (hfresh : fresh s.opened = .ok a t)
      (hform : form? a = some v) : KeptEnd useStore q ofStored form? fresh s
        (.ok a { t with store := t.store.set q.key v })
  | refused {a : α} {v : Value} {fault : Fault} {t : Session} (huse : useStore = true)
      (hlook : s.store.look q = .ok none) (hfresh : fresh s.opened = .ok a t)
      (hform : form? a = some v) (hrefusal : Store.refusal? q.key v = some fault) :
      KeptEnd useStore q ofStored form? fresh s
        (.error fault { t with store := t.store.set q.key v })
  | formless {a : α} {t : Session} (huse : useStore = true) (hlook : s.store.look q = .ok none)
      (hfresh : fresh s.opened = .ok a t) (hform : form? a = none) :
      KeptEnd useStore q ofStored form? fresh s (.ok a t)

theorem keptEnd (useStore : Bool) (q : StoredReading) (ofStored : Value → Except Fault α)
    (form? : α → Option Value) (fresh : Reads α) (s : Session) :
    KeptEnd useStore q ofStored form? fresh s (kept useStore q ofStored form? fresh s) := by
  cases hq : q.keyFault? with
  | some fault =>
    rw [kept_of_keyFault hq]
    exact .barred (by rw [Store.look, hq]) (.inl rfl)
  | none =>
    cases useStore with
    | false =>
      rw [kept_false hq]
      exact .unused hq rfl
    | true =>
      cases hlook : s.store.look q with
      | error fault =>
        obtain ⟨t, hkept, ht⟩ := exists_kept_of_barred ofStored form? fresh hlook
        rw [hkept]
        exact .barred hlook ht
      | ok v? =>
        cases v? with
        | some v =>
          rw [kept_of_stored hlook]
          exact .stored rfl hlook
        | none =>
          cases hfresh : fresh s.opened with
          | error fault t =>
            rw [kept_of_error hlook hfresh]
            exact .failed rfl hlook hfresh
          | ok a t =>
            cases hform : form? a with
            | none =>
              rw [kept_of_formless hlook hfresh hform]
              exact .formless rfl hlook hfresh hform
            | some v =>
              rw [kept_of_form hlook hfresh hform]
              cases hrefusal : Store.refusal? q.key v with
              | none => exact .formed rfl hlook hfresh hform
              | some fault => exact .refused rfl hlook hfresh hform hrefusal

end Reads

open Reads

namespace BeaconEndpoint

/-- The number of the block in a slot, from the node. -/
def freshBlock (e : BeaconEndpoint) (out : Outside) (slot : Int) : Reads Value := do
  match ← e.fetch out ("/eth/v2/beacon/blocks/" ++ numberText slot) none true with
  | .null => return .null
  | data => return .int (← blockNumber slot data)

/-- The form in which the number of a block is stored. An empty slot is not stored. -/
def blockForm? : Value → Option Value
  | .null => none
  | v => some (.record [("block", v)])

theorem depth_blockForm (n : Int) : (Value.record [("block", .int n)]).depth ≤ Json.maxDepth :=
  Value.depth_record_le_iff.2 (by simp [Value.depth])

/-- A block from the node is an integer, if there is one. -/
theorem int_of_freshBlock {e : BeaconEndpoint} {out : Outside} {slot : Int} {s t : Session} {v : Value}
    (h : e.freshBlock out slot s = .ok v t) (hv : v ≠ .null) : ∃ n, v = .int n := by
  obtain ⟨data, u, -, h⟩ := ok_of_bind h
  split at h
  · cases h
    exact absurd rfl hv
  · obtain ⟨n, u, -, h⟩ := ok_of_bind h
    cases h
    exact ⟨n, rfl⟩

theorem shallow_block (e : BeaconEndpoint) (out : Outside) (slot : Int) :
    Shallow (e.freshBlock out slot) blockForm? := by
  intro s t a v h hform
  obtain ⟨data, u, -, h⟩ := ok_of_bind h
  split at h
  · cases h
    cases hform
  · obtain ⟨n, u, -, h⟩ := ok_of_bind h
    cases h
    cases hform
    exact depth_blockForm n

theorem block_eq_kept (e : BeaconEndpoint) (out : Outside) (slot : Int) :
    e.block out slot = kept e.useStore (.block e.base slot) (·.field "block") blockForm?
      (e.freshBlock out slot) := by
  unfold block kept freshBlock
  refine congrArg (_ >>= ·) (funext fun v? => ?_)
  cases v? with
  | some v => rfl
  | none =>
    dsimp only
    rw [bind_assoc]
    refine congrArg (_ >>= ·) (funext fun data => ?_)
    cases data with
    | null => rfl
    | _ =>
      dsimp only
      rw [bind_assoc]
      rfl

/-- The list of entries for a batch, from the node. -/
def freshBatch (e : BeaconEndpoint) (out : Outside) (slot : Int) (batch : List String) :
    Reads Value :=
  e.fetch out ("/eth/v1/beacon/states/" ++ numberText slot ++ "/validators") (some batch) false

theorem shallow_batch (e : BeaconEndpoint) (out : Outside) (slot : Int) (batch : List String) :
    Shallow (e.freshBatch out slot batch) some := by
  rintro s t a v h ⟨⟩
  exact (decoded_of_fetch h).depth

theorem batchValue_eq_kept (e : BeaconEndpoint) (out : Outside) (batch : List String) (slot : Int) :
    e.batchValue out batch slot =
      kept e.useStore (.validators e.base slot batch) .ok some (e.freshBatch out slot batch) := rfl

end BeaconEndpoint

theorem ChainReader.storedList_eq_kept {α : Type} (r : ChainReader) (q : StoredReading)
    (ofValue : Value → Except Fault α) (toValue : α → Value) (fresh : Reads (List α)) :
    r.storedList q ofValue toValue fresh =
      kept r.useStore q (rowsOf ofValue) (fun rows => some (.list (rows.map toValue))) fresh := rfl

end StakeSnapshot
