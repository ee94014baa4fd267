import StakeSnapshot.Network.Validator
import StakeSnapshot.Session

/-!
# The beacon endpoint

Reads blocks, validators, the timing of the chain and the last finalized slot from a beacon node.
Blocks and batches of validators are stored.
-/

namespace StakeSnapshot

/-- The seconds after which a request is given up, unless said otherwise. -/
def defaultTimeout : Int := 30

/-- How many validators are asked for at a time, unless said otherwise. -/
def defaultBatchSize : Int := 100

/-- Access to a beacon node. -/
structure BeaconEndpoint where
  base : String
  timeout : Int
  batchSize : Nat
  useStore : Bool
  positive : 0 < batchSize

namespace BeaconEndpoint

/-- A text without the slashes at its end. -/
def withoutSlashes (url : String) : String :=
  String.ofList (url.toList.reverse.dropWhile (· == '/')).reverse

/-- The endpoint at an address; the batches must not be empty. -/
def open? (url : String) (timeout batchSize : Int) (useStore : Bool) :
    Except Fault BeaconEndpoint :=
  if h : 0 < batchSize then
    .ok ⟨withoutSlashes url, timeout, batchSize.toNat, useStore, Int.lt_toNat.2 h⟩
  else .error .batchSize

/-- A list cut into pieces of `size`; the last one may be shorter. -/
def batches {α : Type} (size : Nat) : List α → List (List α)
  | [] => []
  | x :: rest => (x :: rest.take (size - 1)) :: batches size (rest.drop (size - 1))
termination_by xs => xs.length
decreasing_by simp only [List.length_drop, List.length_cons]; omega

theorem flatten_batches {α : Type} (size : Nat) (xs : List α) :
    (batches size xs).flatten = xs := by
  fun_induction batches size xs with
  | case1 => rfl
  | case2 x rest ih => simp [ih]

theorem length_of_mem_batches {α : Type} {size : Nat} (h : 0 < size) {xs batch : List α}
    (hb : batch ∈ batches size xs) : 0 < batch.length ∧ batch.length ≤ size := by
  fun_induction batches size xs with
  | case1 => simp at hb
  | case2 x rest ih =>
    rcases List.mem_cons.1 hb with rfl | hb
    · simp only [List.length_cons, List.length_take]
      omega
    · exact ih hb

/-- The data of a response. -/
def payload (body : String) : Except Fault Value :=
  match Json.read body.toList with
  | .ok v => v.field "data"
  | .error (.malformed reason remaining) =>
    .error (.undecodable (Json.malformedMessage reason body.toList remaining))
  | .error (.integerTooLong digits) => .error (.integerTooLong digits)
  | .error (.tooDeep inside) => .error (.tooDeep inside)

/-- The data at a path; where it `mayBeMissing`, an unknown path has null. -/
def fetch (e : BeaconEndpoint) (out : Outside) (path : String) (keys : Option (List String))
    (mayBeMissing : Bool) : Reads Value := do
  match ← Reads.request out ⟨e.base, path, keys, e.timeout⟩ with
  | .broken fault => throw fault
  | .failed kind message => throw (.requestFailed path kind message)
  | .response status body =>
    if mayBeMissing ∧ status = 404 then return .null
    else if 400 ≤ status ∧ status < 600 then throw (.requestRefused path status body)
    else payload body

/-- The number of the block in the data of a slot. -/
def blockNumber (slot : Int) (data : Value) : Except Fault Int := do
  let payload ← (← (← data.field "message").field "body").fieldOrNull "execution_payload"
  match payload with
  | .null => .error (Fault.noPayload slot).raised
  | payload => (← payload.field "block_number").toInteger 0

/-- The number of the block included in a slot; null if the slot is empty. A stored entry may have any
value in the place of the number. -/
def block (e : BeaconEndpoint) (out : Outside) (slot : Int) : Reads Value := do
  let reading := .block e.base slot
  match ← Reads.lookUp e.useStore reading with
  | some v => v.field "block"
  | none =>
    match ← e.fetch out ("/eth/v2/beacon/blocks/" ++ numberText slot) none true with
    | .null => return .null
    | data =>
      let n ← blockNumber slot data
      Reads.remember e.useStore reading (.record [("block", .int n)])
      return .int n

/-- The list of entries for a batch of keys. Keys that the node does not know have no entry. -/
def batchValue (e : BeaconEndpoint) (out : Outside) (batch : List String) (slot : Int) :
    Reads Value := do
  let reading := .validators e.base slot batch
  match ← Reads.lookUp e.useStore reading with
  | some v => return v
  | none =>
    let path := "/eth/v1/beacon/states/" ++ numberText slot ++ "/validators"
    let data ← e.fetch out path (some batch) false
    Reads.remember e.useStore reading data
    return data

/-- Adds the validators of a list of entries to a table by key. -/
def addEntries (found : Table String Validator) (entries : List Value) :
    Except Fault (Table String Validator) :=
  entries.foldlM (fun found entry => do
    let v ← Validator.ofEntry entry
    return found.put v.pubkey v) found

/-- Adds the validators with the keys of a batch to those that were found. -/
def addBatch (e : BeaconEndpoint) (out : Outside) (slot : Int) (found : Table String Validator)
    (batch : List String) : Reads (Table String Validator) := do
  let entries ← (← e.batchValue out batch slot).items
  addEntries found entries

/-- The validators with the given keys at a slot, by key. -/
def validators (e : BeaconEndpoint) (out : Outside) (keys : List String) (slot : Int) :
    Reads (Table String Validator) :=
  (batches e.batchSize (Table.distinct keys)).foldlM (e.addBatch out slot) []

/-! ### Keys from stored rows -/

/-- The keys of a batch joined with commas, as code points. -/
def joined (batch : List Value) : List CodePoint :=
  ((batch.map Value.points).intersperse (CodePoint.ofString ",")).flatten

/-- The keys of a batch as texts. They are joined first, and then the text that the key of the reading is
the digest of is made. -/
def batchKeys (e : BeaconEndpoint) (slot : Int) (batch : List Value) : Except Fault (List String) :=
  match batch.findIdx? fun key => key.typeName ≠ "str" with
  | some i => .error (.shape (.notJoined i (batch.getD i .null).typeName))
  | none =>
    match batch.mapM Value.text? with
    | some keys => .ok keys
    | none =>
      if Number.isWritable slot then
        let before := Store.keyText "validators" [e.base, numberText slot] ++ ":"
        .error (.unencodable (CodePoint.ofString before ++ joined batch))
      else .error .numberTooLong

/-- Adds the validators with the keys of a batch, which need not be texts. -/
def addRowBatch (e : BeaconEndpoint) (out : Outside) (slot : Int) (found : Table String Validator)
    (batch : List Value) : Reads (Table String Validator) := do
  e.addBatch out slot found (← e.batchKeys slot batch)

/-- The validators with the keys of some rows at a slot, by key. -/
def rowValidators (e : BeaconEndpoint) (out : Outside) (keys : List Value) (slot : Int) :
    Reads (Table String Validator) :=
  (batches e.batchSize (Table.distinct keys)).foldlM (e.addRowBatch out slot) []

/-- The timing of the chain. -/
def timing (e : BeaconEndpoint) (out : Outside) : Reads ChainTiming := do
  let genesis ← e.fetch out "/eth/v1/beacon/genesis" none false
  let spec ← e.fetch out "/eth/v1/config/spec" none false
  let genesisTime ← (← genesis.field "genesis_time").toInteger 0
  let secondsPerSlot ← (← spec.field "SECONDS_PER_SLOT").toInteger 0
  let slotsPerEpoch ← (← spec.field "SLOTS_PER_EPOCH").toInteger 0
  return { genesisTime, secondsPerSlot, slotsPerEpoch }

/-- The last finalized slot. -/
def finalizedSlot (e : BeaconEndpoint) (out : Outside) : Reads Int := do
  let data ← e.fetch out "/eth/v1/beacon/headers/finalized" none false
  (← (← (← data.field "header").field "message").field "slot").toInteger 0

end BeaconEndpoint

end StakeSnapshot
