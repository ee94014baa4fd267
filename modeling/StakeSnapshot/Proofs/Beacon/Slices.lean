import StakeSnapshot.Proofs.Beacon.Batches
import StakeSnapshot.Proofs.Store.Readings

/-!
# Batches as slices

The batches of a list are consecutive slices of it, all of the same length except for the last one
(`Slices`). Where the node always gives the same answer for a batch, and the store holds no other,
what is read are these answers, one batch after the other until one cannot be read; without the store
each of them is asked for (`exists_batches_of_faithful`).
-/

namespace StakeSnapshot

open Reads

/-- A list in consecutive slices of a size, of which only the last one may be shorter. -/
structure Slices {α : Type} (size : Nat) (xs : List α) (bs : List (List α)) : Prop where
  flatten : bs.flatten = xs
  ne_nil : ∀ b ∈ bs, b ≠ []
  length_le : ∀ b ∈ bs, b.length ≤ size
  full : ∀ b ∈ bs.dropLast, b.length = size

namespace BeaconEndpoint

/-- A batch that others follow is full. -/
theorem length_of_mem_dropLast_batches {α : Type} {size : Nat} (h : 0 < size) {xs batch : List α}
    (hb : batch ∈ (batches size xs).dropLast) : batch.length = size := by
  fun_induction batches size xs with
  | case1 => exact absurd hb List.not_mem_nil
  | case2 x rest ih =>
    cases hlater : batches size (rest.drop (size - 1)) with
    | nil =>
      rw [hlater, List.dropLast_singleton] at hb
      exact absurd hb List.not_mem_nil
    | cons next later =>
      rw [hlater, List.dropLast_cons_cons] at hb
      rcases List.mem_cons.1 hb with rfl | hb
      · -- something is left for the next batch
        have hrest : rest.drop (size - 1) ≠ [] := by
          intro hnil
          rw [hnil, batches] at hlater
          cases hlater
        have hlong : size - 1 < rest.length := by
          by_contra hshort
          exact hrest (List.drop_eq_nil_of_le (by omega))
        rw [List.length_cons, List.length_take]
        omega
      · exact ih (hlater ▸ hb)

theorem slices_batches {α : Type} {size : Nat} (h : 0 < size) (xs : List α) :
    Slices size xs (batches size xs) where
  flatten := flatten_batches size xs
  ne_nil _ hb := (of_mem_batches h hb).1
  length_le _ hb := (length_of_mem_batches h hb).2
  full _ hb := length_of_mem_dropLast_batches h hb

variable {out : Outside} {e : BeaconEndpoint} {slot : Int} {batch : List String}
  {bs : List (List String)} {answer : List String → Value} {s : Session}

/-- The question for a batch, in the lane of the session. -/
def entryOf (e : BeaconEndpoint) (slot : Int) (s : Session) (batch : List String) :
    Lane × Question :=
  (s.lane, .request (e.batchRequest slot batch))

/-- If the store is used, it holds no other values than the answers for some batches, which have keys
of their own. -/
def Faithful (e : BeaconEndpoint) (slot : Int) (answer : List String → Value) (store : Store)
    (bs : List (List String)) : Prop :=
  e.useStore = true →
    (∀ b ∈ bs, ∃ v?, store.load (e.batchKey slot b) = .ok v? ∧ ∀ v, v? = some v → v = answer b) ∧
      (bs.map (e.batchKey slot)).Nodup

/-- A batch has the value that the node answers, which without the store is asked for. -/
theorem exists_batchValue_of_faithful {v : Value} (hslot : Number.isWritable slot = true)
    (hdata : ∀ history, out.data history (e.batchRequest slot batch) = .ok v)
    (hs : e.useStore = true →
      ∃ w?, s.store.load (e.batchKey slot batch) = .ok w? ∧ ∀ w, w? = some w → w = v) :
    ∃ t, e.batchValue out batch slot s = .ok v t ∧
      (e.useStore = false → t = s.asked (.request (e.batchRequest slot batch))) ∧
      ∀ k, e.batchKey slot batch ≠ k → t.store.load k = s.store.load k := by
  have hvalue := congrFun (e.batchValue_eq_kept out batch slot) s
  have hkey : (Store.StoredReading.validators e.base slot batch).keyFault? = none :=
    (Store.StoredReading.keyFault?_eq_none_iff rfl).2 hslot
  cases huse : e.useStore with
  | false =>
    rw [huse, kept_false hkey, freshBatch_apply, hdata] at hvalue
    exact ⟨_, hvalue, fun _ => rfl, fun _ _ => rfl⟩
  | true =>
    rw [huse] at hvalue
    obtain ⟨w?, hload, hw⟩ := hs huse
    have hlook := (Store.look_of_writable hkey).trans hload
    cases w? with
    | some w =>
      rw [kept_of_stored hlook, hw w rfl] at hvalue
      exact ⟨_, hvalue, nofun, fun _ _ => rfl⟩
    | none =>
      have hfresh : e.freshBatch out slot batch s.opened = _ := freshBatch_apply s.opened
      rw [hdata] at hfresh
      obtain ⟨t, hkept, hstore⟩ :=
        exists_kept_of_form .ok (e.shallow_batch out slot batch) hlook hfresh rfl
      refine ⟨t, hvalue.trans hkept, nofun, fun k hk => ?_⟩
      rw [hstore, Store.load_set_of_ne hk]
      rfl

/-- When a batch has been read, the store is still faithful to the others. -/
theorem Faithful.tail {t : Session} (h : e.Faithful slot answer s.store (batch :: bs))
    (hframe : ∀ k, e.batchKey slot batch ≠ k → t.store.load k = s.store.load k) :
    e.Faithful slot answer t.store bs := by
  intro huse
  obtain ⟨hstored, hnodup⟩ := h huse
  obtain ⟨hnew, hnodup⟩ := List.nodup_cons.1 hnodup
  refine ⟨fun b hb => ?_, hnodup⟩
  rw [hframe _ fun heq => hnew (heq ▸ List.mem_map_of_mem hb)]
  exact hstored b (List.mem_cons_of_mem batch hb)

/-- Batches are read in order until one of the answers cannot be read. -/
theorem exists_batches_of_faithful (hslot : bs ≠ [] → Number.isWritable slot = true)
    (hdata : ∀ history, ∀ b ∈ bs, out.data history (e.batchRequest slot b) = .ok (answer b))
    (hs : e.Faithful slot answer s.store bs) :
    ∃ read t, bs.mapM (e.batchRows out slot) s =
        Sources.ended (bs.mapM fun b => listed (answer b)) t ∧ read <+: bs ∧
      (∀ vss, (bs.mapM fun b => listed (answer b)) = .ok vss → read = bs) ∧
      (e.useStore = false → t.history = s.history ++ read.map (e.entryOf slot s)) := by
  induction bs generalizing s with
  | nil => exact ⟨[], s, rfl, List.nil_prefix, fun _ _ => rfl, fun _ => (List.append_nil _).symm⟩
  | cons batch bs ih =>
    obtain ⟨t, hvalue, hasked, hframe⟩ :=
      exists_batchValue_of_faithful (hslot (List.cons_ne_nil _ _)) (fun history => hdata history batch List.mem_cons_self)
        fun huse => (hs huse).1 batch List.mem_cons_self
    have hrows : e.batchRows out slot batch s = Sources.ended (listed (answer batch)) t :=
      (bind_of_ok hvalue).trans (Sources.lift_eq_ended _ _)
    obtain ⟨read, u, hmapM, hprefix, hall, hlater⟩ :=
      ih (fun _ => hslot (List.cons_ne_nil _ _)) (fun history b hb => hdata history b (List.mem_cons_of_mem batch hb)) (hs.tail hframe)
    rw [List.mapM_cons, List.mapM_cons]
    cases hlisted : listed (answer batch) with
    | error fault =>
      -- this batch is the last one that is asked for
      rw [hlisted] at hrows
      refine ⟨[batch], t, bind_of_error hrows, ?_, nofun, fun huse => ?_⟩
      · exact (List.prefix_cons_inj batch).2 List.nil_prefix
      · rw [hasked huse]
        rfl
    | ok vs =>
      rw [hlisted] at hrows
      refine ⟨batch :: read, u, ?_, (List.prefix_cons_inj batch).2 hprefix, ?_, fun huse => ?_⟩
      · refine (bind_of_ok hrows).trans ?_
        cases hvss : bs.mapM fun b => listed (answer b) with
        | error fault =>
          rw [hvss] at hmapM
          exact bind_of_error hmapM
        | ok vss =>
          rw [hvss] at hmapM
          exact bind_of_ok hmapM
      · intro vss hvss
        obtain ⟨_, -, hvss⟩ := Except.ok_of_bind hvss
        obtain ⟨rest, hrest, -⟩ := Except.ok_of_bind hvss
        rw [hall rest hrest]
      · rw [hlater huse, hasked huse]
        exact List.append_assoc s.history [_] _

end BeaconEndpoint

end StakeSnapshot
