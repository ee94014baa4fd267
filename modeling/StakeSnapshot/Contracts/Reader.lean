import StakeSnapshot.Contracts.Catalogue
import StakeSnapshot.Network.Minipool
import StakeSnapshot.Network.Node
import StakeSnapshot.Network.Parameters
import StakeSnapshot.Pubkey
import StakeSnapshot.Session
import StakeSnapshot.Text.Lowercase

/-!
# The chain reader

Reads the parameters, nodes and minipools of the protocol from its contracts at a block. The
address of a contract is asked for at the same block and remembered for the session; the two lists
are stored.
-/

namespace StakeSnapshot
open Contracts

/-- Access to the contracts of the protocol, whose addresses a storage contract has. -/
structure ChainReader where
  storage : String
  useStore : Bool

namespace ChainReader

/-- The result of a function of the contract at an address. -/
def ask (out : Outside) (address : Value) (f : ViewFunction) (argument : Option Argument)
    (block : Value) : Reads Value :=
  Reads.call out ⟨address, f.name, argument, block⟩

/-- The result of a function as an integer. -/
def askInt (out : Outside) (address : Value) (f : ViewFunction) (argument : Option Argument)
    (block : Value) : Reads Int := do
  (← ask out address f argument block).toInteger 0

/-- Whether an address is that of no contract, in any case of letters. -/
def isZeroAddress (address : String) : Bool :=
  Text.lower address.toList = zeroAddress.toList

/-- Whether an answer says that a contract is not registered. It has to have letters of some case, as
texts and byte strings do. -/
def isUnregistered : Value → Except Fault Bool
  | .text address => .ok (isZeroAddress address)
  | .ragged _ | .bytes .constant _ | .bytes .buffer _ => .ok false
  | v => .error (.shape (.notText v.typeName))

/-- The address of a contract at a block. -/
def resolve (r : ChainReader) (out : Outside) (contract : String) (block : Value) :
    Reads Value := do
  let key ← block.keyForm
  match Table.find? (← get).addresses (contract, key) with
  | some address => return address
  | none =>
    let address ← ask out (.text r.storage) .address (some (.digest (registryKey contract))) block
    if ← isUnregistered address then throw (Fault.unregistered contract block).raised
    modify fun s => { s with addresses := Table.put s.addresses (contract, key) address }
    return address

/-! ### Parameters -/

/-- The price of the stake in terms of the deposits. -/
def price (r : ChainReader) (out : Outside) (block : Value) : Reads Int := do
  askInt out (← r.resolve out networkPrices block) .price none block

/-- The least collateral of a minipool as a fraction of its borrowed deposit. -/
def minimumFraction (r : ChainReader) (out : Outside) (block : Value) : Reads Int := do
  askInt out (← r.resolve out nodeSettings block) .minimumStake none block

/-- The greatest collateral of a minipool as a fraction of its bonded deposit. -/
def maximumFraction (r : ChainReader) (out : Outside) (block : Value) : Reads Int := do
  askInt out (← r.resolve out nodeSettings block) .maximumStake none block

/-- The number of the current interval of rewards. -/
def rewardIndex (r : ChainReader) (out : Outside) (block : Value) : Reads Int := do
  askInt out (← r.resolve out rewardsPool block) .rewardIndex none block

/-- The length of an interval; the settings at the block govern all intervals. -/
def interval (r : ChainReader) (out : Outside) (_index : Int) (block : Value) : Reads Int := do
  askInt out (← r.resolve out rewardsPool block) .intervalTime none block

/-- The shares of the rewards; the settings at the block govern all intervals. -/
def shares (r : ChainReader) (out : Outside) (_index : Int) (block : Value) : Reads RewardShares := do
  let pool ← r.resolve out rewardsPool block
  let nodes ← askInt out pool .claimShare (some (.value (.text nodeClaims))) block
  let oracle ← askInt out pool .claimShare (some (.value (.text oracleClaims))) block
  let protocol ← askInt out pool .claimShare (some (.value (.text protocolClaims))) block
  return { nodes, oracle, protocol }

/-- The rewards that have not been claimed. -/
def pendingRewards (r : ChainReader) (out : Outside) (_index : Int) (block : Value) : Reads Int := do
  askInt out (← r.resolve out rewardsPool block) .pendingRewards none block

/-! ### Lists -/

/-- The least count that is too large for a list. -/
def countLimit : Int := Int.pow 2 63

/-- The addresses of a list from `index` on, `count` of them. -/
def addressesFrom (out : Outside) (contract : Value) (entryAt : ViewFunction) (block : Value) :
    (count index : Nat) → Reads (List Value)
  | 0, _ => return []
  | count + 1, index => do
    let address ← ask out contract entryAt (some (.index index)) block
    let rest ← addressesFrom out contract entryAt block count (index + 1)
    return address :: rest

/-- All addresses of a list. -/
def addresses (out : Outside) (contract : Value) (count entryAt : ViewFunction) (block : Value) :
    Reads (List Value) := do
  let n ← askInt out contract count none block
  if countLimit ≤ n then throw .hugeCount
  addressesFrom out contract entryAt block n.toNat 0

/-- The row of the node at an address. -/
def nodeRow (out : Outside) (manager staking block address : Value) : Reads NodeRow := do
  let stake ← askInt out staking .nodeStake (some (.value address)) block
  let registered ← askInt out manager .registrationTime (some (.value address)) block
  return { address, stake := .int stake, registered := .int registered }

/-- All nodes, from the chain. -/
def freshNodes (r : ChainReader) (out : Outside) (block : Value) : Reads (List NodeRow) := do
  let manager ← r.resolve out nodeManager block
  let staking ← r.resolve out nodeStaking block
  let found ← addresses out manager .nodeCount .nodeAt block
  found.mapM (nodeRow out manager staking block)

/-- The row of the minipool at an address. -/
def minipoolRow (out : Outside) (manager block address : Value) : Reads MinipoolRow := do
  let owner ← ask out address .minipoolOwner none block
  let pubkey ← (← ask out manager .minipoolPubkey (some (.value address)) block).pubkeyForm
  let present ← ask out manager .minipoolExists (some (.value address)) block
  let status ← MinipoolStatus.ofValue (.int (← askInt out address .minipoolStatus none block))
  let borrowed ← askInt out address .borrowedDeposit none block
  let bonded ← askInt out address .bondedDeposit none block
  return {
    address, owner, pubkey, present := .bool present.truth, status, borrowed := .int borrowed,
    bonded := .int bonded }

/-- All minipools, from the chain. -/
def freshMinipools (r : ChainReader) (out : Outside) (block : Value) :
    Reads (List MinipoolRow) := do
  let manager ← r.resolve out minipoolManager block
  let found ← addresses out manager .minipoolCount .minipoolAt block
  found.mapM (minipoolRow out manager block)

/-- The rows of a stored list. -/
def rowsOf {α : Type} (ofValue : Value → Except Fault α) (v : Value) : Except Fault (List α) := do
  (← v.items).mapM ofValue

/-- A list that is stored: the stored rows if there are some, otherwise fresh ones. -/
def storedList {α : Type} (r : ChainReader) (reading : Store.StoredReading)
    (ofValue : Value → Except Fault α) (toValue : α → Value) (fresh : Reads (List α)) :
    Reads (List α) := do
  match ← Reads.lookUp r.useStore reading with
  | some v => rowsOf ofValue v
  | none =>
    let rows ← fresh
    Reads.remember r.useStore reading (.list (rows.map toValue))
    return rows

/-- All nodes at a block. -/
def nodes (r : ChainReader) (out : Outside) (block : Value) : Reads (List NodeRow) :=
  r.storedList (.nodes r.storage block) NodeRow.ofValue NodeRow.toValue (r.freshNodes out block)

/-- All minipools at a block. -/
def minipools (r : ChainReader) (out : Outside) (block : Value) : Reads (List MinipoolRow) :=
  r.storedList (.minipools r.storage block) MinipoolRow.ofValue MinipoolRow.toValue
    (r.freshMinipools out block)

end ChainReader

end StakeSnapshot
