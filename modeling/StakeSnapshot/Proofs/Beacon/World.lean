import StakeSnapshot.Proofs.Beacon.Endpoint
import StakeSnapshot.Proofs.Json.Regular
import StakeSnapshot.Proofs.Store.Kept
import StakeSnapshot.Proofs.World

/-!
# Readings of a beacon node that does not change

What is read from the node past the store depends on its base, on the slot and on the text that joins
the keys asked for. It comes out of the reply to one request (`Reply.data`), and leaves the store
alone; whatever it is, it is not too deep to be stored.
-/

namespace StakeSnapshot

open Reads

/-- A session in which one more question has been asked. -/
def Session.asked (q : Question) (s : Session) : Session :=
  { s with history := s.history ++ [(s.lane, q)] }

/-- The data of a reply; where they may be missing, an unknown path has null. -/
def Reply.data (path : String) (mayBeMissing : Bool) : Reply → Except Fault Value
  | .broken fault => .error fault
  | .failed kind message => .error (.requestFailed path kind message)
  | .response status body =>
    if mayBeMissing ∧ status = 404 then .ok .null
    else if 400 ≤ status ∧ status < 600 then .error (.requestRefused path status body)
    else BeaconEndpoint.payload body

/-- Whatever a node answers has been read, or is null. -/
theorem Reply.decoded_of_data {reply : Reply} {path : String} {mayBeMissing : Bool} {v : Value}
    (h : reply.data path mayBeMissing = .ok v) : Json.Decoded Json.maxDepth v := by
  unfold Reply.data at h
  split at h
  · cases h
  · cases h
  · split at h
    · cases h
      exact Json.storable_null.decoded
    · split at h
      · cases h
      · exact BeaconEndpoint.decoded_of_payload h

namespace World

variable (w : World) (base : String) (slot : Int)

/-- What the node answers to a request for a path. -/
def answer (path : String) (keys : Option (List String)) (mayBeMissing : Bool) :
    Except Fault Value :=
  (w.beacon (base ++ path) (keys.map (String.intercalate ","))).data path mayBeMissing

/-- The number of the block in a slot, or null. -/
def blockAt : Except Fault Value := do
  match ← w.answer base ("/eth/v2/beacon/blocks/" ++ numberText slot) none true with
  | .null => return .null
  | data => return .int (← BeaconEndpoint.blockNumber slot data)

/-- The list of entries for a batch. -/
def batchAt (batch : List String) : Except Fault Value :=
  w.answer base (BeaconEndpoint.validatorsPath slot) (some batch) false

theorem batchAt_of_joined {batch batch' : List String}
    (h : String.intercalate "," batch = String.intercalate "," batch') :
    w.batchAt base slot batch = w.batchAt base slot batch' := by
  rw [batchAt, batchAt, answer, answer, Option.map_some, Option.map_some, h]

/-- What a number of a block is read as. -/
theorem eq_null_or_int_of_blockAt {v : Value} (h : w.blockAt base slot = .ok v) :
    v = .null ∨ ∃ n, v = .int n := by
  obtain ⟨data, -, h⟩ := Except.ok_of_bind h
  split at h
  · cases h
    exact .inl rfl
  · obtain ⟨n, -, h⟩ := Except.ok_of_bind h
    cases h
    exact .inr ⟨n, rfl⟩

end World

namespace BeaconEndpoint

variable (e : BeaconEndpoint) (slot : Int)

theorem fetch_eq (out : Outside) (path : String) (keys : Option (List String))
    (mayBeMissing : Bool) :
    e.fetch out path keys mayBeMissing = (do
      let reply ← Reads.request out ⟨e.base, path, keys, e.timeout⟩
      reply.data path mayBeMissing) := by
  refine congrArg (_ >>= ·) (funext fun reply => ?_)
  cases reply with
  | broken fault => rfl
  | failed kind message => rfl
  | response status body =>
    dsimp only [Reply.data]
    by_cases hmissing : mayBeMissing = true ∧ status = 404
    · rw [if_pos hmissing, if_pos hmissing]
      rfl
    · rw [if_neg hmissing, if_neg hmissing]
      by_cases hrefused : 400 ≤ status ∧ status < 600
      · rw [if_pos hrefused, if_pos hrefused]
        rfl
      · rw [if_neg hrefused, if_neg hrefused]

theorem fetch_apply (out : Outside) (path : String) (keys : Option (List String))
    (mayBeMissing : Bool) (s : Session) :
    e.fetch out path keys mayBeMissing s =
      Sources.ended ((out.beacon s.history ⟨e.base, path, keys, e.timeout⟩).data path mayBeMissing)
        (s.asked (.request ⟨e.base, path, keys, e.timeout⟩)) := by
  rw [fetch_eq]
  exact Sources.lift_eq_ended _ _

end BeaconEndpoint

theorem Session.Knows.asked {w : World} {storage : String} (P : Store → Prop) (s : Session)
    (q : Question) (hs : s.Knows w storage P) : (s.asked q).Knows w storage P :=
  hs.of_eq rfl rfl

section
variable {w : World} {ι : Type} {inv : ι → Session → Prop}
  (hasked : ∀ i s q, inv i s → inv i (s.asked q))
include hasked

theorem ends_request (r : Request) :
    Ends inv (fun _ => Reads.request w.outside r)
      (.ok (w.beacon (r.base ++ r.path) (r.keys.map (String.intercalate ",")))) :=
  fun i s hs => ⟨_, rfl, hasked i s (.request r) hs⟩

namespace BeaconEndpoint
variable (e : BeaconEndpoint) (slot : Int)

theorem ends_fetch (path : String) (keys : Option (List String)) (mayBeMissing : Bool) :
    Ends inv (fun _ => e.fetch w.outside path keys mayBeMissing)
      (w.answer e.base path keys mayBeMissing) := by
  simp only [fetch_eq]
  exact (ends_request hasked _).bind_ok (.lift _)

theorem ends_freshBlock :
    Ends inv (fun _ => e.freshBlock w.outside slot)
      (w.blockAt e.base slot) := by
  refine (e.ends_fetch hasked _ none true).bind fun data _ => ?_
  cases data with
  | null => exact .pure Value.null
  | _ => exact (Ends.lift _).bind fun n _ => .pure (Value.int n)

theorem ends_freshBatch (batch : List String) :
    Ends inv (fun _ => e.freshBatch w.outside slot batch)
      (w.batchAt e.base slot batch) :=
  e.ends_fetch hasked _ _ _

end BeaconEndpoint

end

end StakeSnapshot
