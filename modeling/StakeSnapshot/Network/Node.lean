import StakeSnapshot.Value.Access
import StakeSnapshot.Value.Record

/-!
# Nodes

A row that was stored may have a value of any type in each of its fields. It is a node if they are of
the right types.
-/

namespace StakeSnapshot

/-- A registered node with its stake and the time of its registration. -/
structure Node where
  address : String
  stake : Int
  registered : Int
  deriving DecidableEq

/-- A row of the list of nodes. -/
structure NodeRow where
  address : Value
  stake : Value
  registered : Value
  deriving DecidableEq

/-- A node as a row. -/
def Node.row (n : Node) : NodeRow := ⟨.text n.address, .int n.stake, .int n.registered⟩

namespace NodeRow

/-- The fields of a stored row. -/
def fieldNames : List String := ["node_address", "rpl_stake", "registration_time"]

/-- A row as a record. -/
def toValue (r : NodeRow) : Value :=
  .record [("node_address", r.address), ("rpl_stake", r.stake),
    ("registration_time", r.registered)]

/-- The row that a record stands for. -/
def ofValue (v : Value) : Except Fault NodeRow :=
  match v.fields? with
  | some fields => do
    Value.checkFields .node fieldNames fields
    let address ← v.field "node_address"
    let stake ← v.field "rpl_stake"
    let registered ← v.field "registration_time"
    return { address, stake, registered }
  | none => .error (.shape (.notRow .node v.typeName))

/-- Reading a row back undoes writing it. -/
theorem ofValue_toValue (r : NodeRow) : ofValue r.toValue = .ok r := rfl

/-- The node of a row, if its fields have the right types. -/
def node? (r : NodeRow) : Option Node := do
  let address ← r.address.text?
  let stake ← r.stake.int?
  let registered ← r.registered.int?
  return { address, stake, registered }

@[simp] theorem node?_row (n : Node) : n.row.node? = some n := rfl

end NodeRow

end StakeSnapshot
