import StakeSnapshot.Network.Lookups
import StakeSnapshot.Network.Parameters
import StakeSnapshot.Network.Validator

/-!
# Snapshots

The state of the network at one slot of the beacon chain and the block included in it. Where its lists
were stored, their rows may have values of any type.
-/

namespace StakeSnapshot

/-- The network at a slot and the block that it includes, with nodes of type `ν` and minipools of type
`μ`. The block is an integer, unless a stored entry says otherwise. -/
structure SnapshotOf (κ ν μ : Type) where
  block : Value
  slot : Int
  timing : ChainTiming
  parameters : Parameters
  nodes : List ν
  minipools : List μ
  validators : Table String Validator
  lookups : LookupsOf κ ν μ
  deriving DecidableEq

/-- A snapshot with its nodes and minipools. -/
abbrev Snapshot := SnapshotOf String Node Minipool

/-- A snapshot with rows that may be no nodes and minipools. -/
abbrev RowSnapshot := SnapshotOf Value NodeRow MinipoolRow

/-- The snapshot with the nodes and minipools of the rows, if all of them are some. -/
def SnapshotOf.typed? (s : SnapshotOf Value NodeRow MinipoolRow) : Option Snapshot := do
  let nodes ← s.nodes.mapM NodeRow.node?
  let minipools ← s.minipools.mapM MinipoolRow.minipool?
  return { s with nodes, minipools, lookups := Lookups.ofRows nodes minipools }

namespace Snapshot

/-- The time of the snapshot. -/
def time (s : Snapshot) : Int := s.timing.slotTime s.slot

/-- The epoch of the snapshot. -/
def epoch (s : Snapshot) : Except Fault Int := s.timing.epochOf s.slot

/-- The minipools of a node, in the order of the list. -/
def minipoolsOf (s : Snapshot) (address : String) : List Minipool :=
  (Table.find? s.lookups.minipoolsByNode address).getD []

/-- The validator behind a minipool, if the beacon chain has it. -/
def validatorOf (s : Snapshot) (m : Minipool) : Option Validator :=
  Table.find? s.validators m.pubkey

end Snapshot

end StakeSnapshot
