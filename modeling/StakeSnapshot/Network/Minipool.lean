import StakeSnapshot.Value.Access
import StakeSnapshot.Value.Record

/-!
# Minipools

A minipool is one validator of a node, with the deposits behind it: what the node borrowed and what
it bonded. Its stage is known to contracts by number. A row that was stored may have values of any type
in the fields beside it.
-/

namespace StakeSnapshot

/-- The stages of a minipool. -/
inductive MinipoolStatus where
  | initialized
  | prelaunch
  | staking
  | withdrawable
  | dissolved
  deriving DecidableEq

namespace MinipoolStatus

/-- The number of a stage. -/
def code : MinipoolStatus → Int
  | initialized => 0
  | prelaunch => 1
  | staking => 2
  | withdrawable => 3
  | dissolved => 4

/-- The stage with a number. -/
def ofCode? (n : Int) : Option MinipoolStatus :=
  [initialized, prelaunch, staking, withdrawable, dissolved].find? (·.code = n)

@[simp] theorem ofCode?_code (s : MinipoolStatus) : ofCode? s.code = some s := by
  cases s <;> rfl

/-- The stage that a value names by a number of any type. -/
def ofValue (v : Value) : Except Fault MinipoolStatus :=
  let number? := match v with
    | .int n => some n
    | .bool b => some (if b then 1 else 0)
    | .float x => x.toInt?
    | _ => none
  match number?.bind ofCode? with
  | some status => .ok status
  | none =>
    if v.isWritable then .error (.unknownStatus (String.ofList v.shown)) else .error .numberTooLong

@[simp] theorem ofValue_code (s : MinipoolStatus) : ofValue (.int s.code) = .ok s := by
  cases s <;> rfl

end MinipoolStatus

/-- A minipool. Its key is empty as long as no validator has been assigned. -/
structure Minipool where
  address : String
  owner : String
  pubkey : String
  present : Bool
  status : MinipoolStatus
  borrowed : Int
  bonded : Int
  deriving DecidableEq

/-- A row of the list of minipools. Only its status is sure to be one. -/
structure MinipoolRow where
  address : Value
  owner : Value
  pubkey : Value
  present : Value
  status : MinipoolStatus
  borrowed : Value
  bonded : Value
  deriving DecidableEq

/-- A minipool as a row. -/
def Minipool.row (m : Minipool) : MinipoolRow :=
  ⟨.text m.address, .text m.owner, .text m.pubkey, .bool m.present, m.status, .int m.borrowed,
    .int m.bonded⟩

namespace MinipoolRow

/-- The fields of a stored row. -/
def fieldNames : List String :=
  ["minipool_address", "node_address", "pubkey", "exists", "status", "user_deposit_balance",
    "node_deposit_balance"]

/-- A row as a record. -/
def toValue (r : MinipoolRow) : Value :=
  .record [("minipool_address", r.address), ("node_address", r.owner), ("pubkey", r.pubkey),
    ("exists", r.present), ("status", .int r.status.code), ("user_deposit_balance", r.borrowed),
    ("node_deposit_balance", r.bonded)]

/-- The row that a record stands for. The status is looked at before the other fields. -/
def ofValue (v : Value) : Except Fault MinipoolRow :=
  match v.fields? with
  | some fields => do
    let status ← MinipoolStatus.ofValue (← v.field "status")
    Value.checkFields .minipool fieldNames fields
    let address ← v.field "minipool_address"
    let owner ← v.field "node_address"
    let pubkey ← v.field "pubkey"
    let present ← v.field "exists"
    let borrowed ← v.field "user_deposit_balance"
    let bonded ← v.field "node_deposit_balance"
    return { address, owner, pubkey, present, status, borrowed, bonded }
  | none => .error (.shape (.notRow .minipool v.typeName))

/-- Reading a row back undoes writing it. -/
theorem ofValue_toValue (r : MinipoolRow) : ofValue r.toValue = .ok r := by
  obtain ⟨address, owner, pubkey, present, status, borrowed, bonded⟩ := r
  cases status <;> rfl

/-- The minipool of a row, if its fields have the right types. It is there if the value that says so
counts as true. -/
def minipool? (r : MinipoolRow) : Option Minipool := do
  let address ← r.address.text?
  let owner ← r.owner.text?
  let pubkey ← r.pubkey.text?
  let borrowed ← r.borrowed.int?
  let bonded ← r.bonded.int?
  return { address, owner, pubkey, present := r.present.truth, status := r.status, borrowed, bonded }

@[simp] theorem minipool?_row (m : Minipool) : m.row.minipool? = some m := rfl

end MinipoolRow

end StakeSnapshot
