import StakeSnapshot.Network.Minipool
import StakeSnapshot.Network.Node
import StakeSnapshot.Pubkey

/-!
# Lookups over the rows

Nodes and minipools by address, minipools by owner, and the keys of the validators to ask for.
Where an address repeats, its last row counts, in the place of the first.
-/

namespace StakeSnapshot

/-- Lookups over the lists of a snapshot: over nodes of type `ν` and minipools of type `μ`, with keys
of type `κ`. -/
structure LookupsOf (κ ν μ : Type) where
  nodeByAddress : Table κ ν
  minipoolByAddress : Table κ μ
  minipoolsByNode : Table κ (List μ)
  pubkeys : List κ
  deriving DecidableEq

/-- Lookups over nodes and minipools. -/
abbrev Lookups := LookupsOf String Node Minipool

/-- The lookups over the given nodes and minipools. -/
def Lookups.ofRows (nodes : List Node) (minipools : List Minipool) : Lookups where
  nodeByAddress := Table.ofRows (nodes.map fun n => (n.address, n))
  minipoolByAddress := Table.ofRows (minipools.map fun m => (m.address, m))
  minipoolsByNode := minipools.foldl (fun groups m => groups.append m.owner m) []
  pubkeys := Table.distinct ((minipools.map (·.pubkey)).filter (· ≠ unassignedPubkey))

/-- Lookups over rows of any types, by what their addresses are compared as. -/
abbrev RowLookups := LookupsOf Value NodeRow MinipoolRow

namespace RowLookups

/-- A row of a minipool with what its address, its owner and the key of its validator are compared
as. -/
structure Keyed where
  address : Value
  owner : Value
  pubkey : Value
  row : MinipoolRow

/-- A row of a node with what its address is compared as. -/
def keyedNode (r : NodeRow) : Except Fault (Value × NodeRow) := do
  return (← r.address.keyForm, r)

/-- A row of a minipool with its keys. -/
def keyed (r : MinipoolRow) : Except Fault Keyed := do
  let address ← r.address.keyForm
  let owner ← r.owner.keyForm
  let pubkey ← r.pubkey.keyForm
  return ⟨address, owner, pubkey, r⟩

/-- The keys of validators that are assigned, each as it appears first. -/
def assigned (rows : List Keyed) : List Value :=
  let rows := rows.filter fun r => r.row.pubkey ≠ .text unassignedPubkey
  (Table.distinct (rows.map (·.pubkey))).map fun key =>
    ((rows.find? fun r => r.pubkey = key).map (·.row.pubkey)).getD key

/-- The lookups over the given rows, all of whose keys can be compared. -/
def ofRows (nodes : List NodeRow) (minipools : List MinipoolRow) : Except Fault RowLookups := do
  let nodes ← nodes.mapM keyedNode
  let minipools ← minipools.mapM keyed
  return {
    nodeByAddress := Table.ofRows nodes
    minipoolByAddress := Table.ofRows (minipools.map fun m => (m.address, m.row))
    minipoolsByNode := minipools.foldl (fun groups m => groups.append m.owner m.row) []
    pubkeys := assigned minipools }

end RowLookups

/-- How the lists of a snapshot are indexed. -/
class Indexing (κ : outParam Type) (ν μ : Type) where
  index : List ν → List μ → Except Fault (LookupsOf κ ν μ)

instance : Indexing String Node Minipool where
  index nodes minipools := .ok (Lookups.ofRows nodes minipools)

instance : Indexing Value NodeRow MinipoolRow where
  index := RowLookups.ofRows

end StakeSnapshot
