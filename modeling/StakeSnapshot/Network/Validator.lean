import StakeSnapshot.Network.Timing
import StakeSnapshot.Pubkey

/-!
# Validators
-/

namespace StakeSnapshot

/-- A validator of the beacon chain at a slot. Its status is any text. -/
structure Validator where
  pubkey : String
  index : Int
  status : Value
  balance : Int
  effectiveBalance : Int
  slashed : Bool
  activationEpoch : Int
  exitEpoch : Int
  withdrawableEpoch : Int
  deriving DecidableEq

/-- The validator that an entry of a beacon node's list describes. An epoch of null has not been
scheduled. -/
def Validator.ofEntry (entry : Value) : Except Fault Validator := do
  let v ← entry.field "validator"
  let pubkey ← (← v.field "pubkey").toPubkey
  let index ← (← entry.field "index").toInteger 0
  let status ← (← entry.field "status").written
  let balance ← (← entry.field "balance").toInteger 0
  let effectiveBalance ← (← v.field "effective_balance").toInteger 0
  let slashed ← v.field "slashed"
  let activationEpoch ← (← v.field "activation_epoch").toInteger farFutureEpoch
  let exitEpoch ← (← v.field "exit_epoch").toInteger farFutureEpoch
  let withdrawableEpoch ← (← v.field "withdrawable_epoch").toInteger farFutureEpoch
  return {
    pubkey, index, status, balance, effectiveBalance, slashed := slashed.truth, activationEpoch,
    exitEpoch, withdrawableEpoch }

end StakeSnapshot
