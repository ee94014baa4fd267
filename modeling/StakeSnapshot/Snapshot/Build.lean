import StakeSnapshot.Beacon.Endpoint
import StakeSnapshot.Contracts.Reader
import StakeSnapshot.Log.Line
import StakeSnapshot.Snapshot

/-!
# Building a snapshot

A slot gives a block, and everything else is read at that block and slot, in a fixed order. Any
failure ends the building, and says what could not be read; both lists are read in any case.
-/

namespace StakeSnapshot

/-- The readings that a snapshot is built from, with their effects on `σ`: keys of type `κ`, nodes of type
`ν` and minipools of type `μ`. The block of an empty slot is null. -/
structure Sources (σ κ ν μ : Type) where
  block : Int → EStateM Fault σ Value
  price : Value → EStateM Fault σ Int
  minimumFraction : Value → EStateM Fault σ Int
  maximumFraction : Value → EStateM Fault σ Int
  rewardIndex : Value → EStateM Fault σ Int
  interval : (index : Int) → (block : Value) → EStateM Fault σ Int
  shares : (index : Int) → (block : Value) → EStateM Fault σ RewardShares
  pendingRewards : (index : Int) → (block : Value) → EStateM Fault σ Int
  nodes : Value → EStateM Fault σ (List ν)
  minipools : Value → EStateM Fault σ (List μ)
  validators : (pubkeys : List κ) → (slot : Int) → EStateM Fault σ (Table String Validator)
  told : LogLine → σ → σ

namespace Sources
variable {σ κ ν μ α : Type}

/-- Some work, with its failure as a result. -/
def attempt (work : EStateM Fault σ α) : EStateM Fault σ (Except Fault α) := fun s =>
  match work s with
  | .ok a s => .ok (.ok a) s
  | .error fault s => .ok (.error fault) s

/-- A reading at the block of a slot; a failure says what was being read. -/
def reading (what : Reading) (block : Value) (slot : Int) (work : EStateM Fault σ α) :
    EStateM Fault σ α := fun s =>
  match work s with
  | .ok a s => .ok a s
  | .error fault s => .error (Fault.unavailable what block slot fault).raised s

/-- The block of a slot, which must not be empty. -/
def pinnedBlock (src : Sources σ κ ν μ) (slot : Int) : EStateM Fault σ Value := do
  match ← attempt (src.block slot) with
  | .error fault => throw (Fault.blockUnavailable slot fault).raised
  | .ok .null => throw (Fault.emptySlot slot).raised
  | .ok block => return block

/-- The protocol's parameters at a block. -/
def parameters (src : Sources σ κ ν μ) (block : Value) (slot : Int) :
    EStateM Fault σ Parameters := do
  let price ← reading .price block slot (src.price block)
  let minimumFraction ← reading .minimumFraction block slot (src.minimumFraction block)
  let maximumFraction ← reading .maximumFraction block slot (src.maximumFraction block)
  let rewardIndex ← reading .rewardIndex block slot (src.rewardIndex block)
  let interval ← reading .interval block slot (src.interval rewardIndex block)
  let shares ← reading .shares block slot (src.shares rewardIndex block)
  let pendingRewards ← reading .pendingRewards block slot (src.pendingRewards rewardIndex block)
  return { price, minimumFraction, maximumFraction, rewardIndex, interval, shares, pendingRewards }

/-- Tells a line of progress, if the logger takes it. -/
def tell (src : Sources σ κ ν μ) (log : Logger) (line : LogLine) : EStateM Fault σ Unit := fun s =>
  match log line with
  | .ok _ => .ok () (src.told line s)
  | .error fault => .error fault s

/-- Both lists at a block. The second is read even if the first one fails, whose failure then
counts. -/
def lists (src : Sources σ κ ν μ) (log : Logger) (block : Value) (slot : Int) :
    EStateM Fault σ (List ν × List μ) := do
  let nodes ← attempt (reading .nodes block slot (src.nodes block))
  let minipools ← attempt (reading .minipools block slot (src.minipools block))
  let nodes ← nodes
  src.tell log .nodesRead
  let minipools ← minipools
  src.tell log .minipoolsRead
  return (nodes, minipools)

variable [Indexing κ ν μ]

/-- The snapshot of the network at a slot, with its progress told to a logger. -/
def toldSnapshot (src : Sources σ κ ν μ) (log : Logger) (slot : Int) (timing : ChainTiming) :
    EStateM Fault σ (SnapshotOf κ ν μ) := do
  let block ← src.pinnedBlock slot
  let parameters ← src.parameters block slot
  src.tell log (.started block slot)
  let (nodes, minipools) ← src.lists log block slot
  let lookups ← Indexing.index nodes minipools
  src.tell log .indexed
  let validators ← reading .validators block slot (src.validators lookups.pubkeys slot)
  src.tell log .validatorsRead
  return { block, slot, timing, parameters, nodes, minipools, validators, lookups }

/-- The snapshot of the network at a slot. -/
def snapshot (src : Sources σ κ ν μ) (slot : Int) (timing : ChainTiming) :
    EStateM Fault σ (SnapshotOf κ ν μ) :=
  src.toldSnapshot .silent slot timing

/-- The readings of a beacon endpoint and a chain reader, the two lists in lanes of their own. -/
def ofReaders (out : Outside) (beacon : BeaconEndpoint) (chain : ChainReader) :
    Sources Session Value NodeRow MinipoolRow where
  block := beacon.block out
  price := chain.price out
  minimumFraction := chain.minimumFraction out
  maximumFraction := chain.maximumFraction out
  rewardIndex := chain.rewardIndex out
  interval := chain.interval out
  shares := chain.shares out
  pendingRewards := chain.pendingRewards out
  nodes := fun block => Reads.within .nodes (chain.nodes out block)
  minipools := fun block => Reads.within .minipools (chain.minipools out block)
  validators := beacon.rowValidators out
  told := Session.told

end Sources

end StakeSnapshot
