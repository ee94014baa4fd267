import StakeSnapshot.Fault

/-!
# The timing of the beacon chain

Slots have a fixed length and are counted from the start of the chain; a fixed number of them makes
an epoch. Times are in seconds.
-/

namespace StakeSnapshot

/-- The epoch of an event that has not been scheduled. -/
def farFutureEpoch : Int := Int.pow 2 64 - 1

/-- When the chain started, and how long slots and epochs are. -/
structure ChainTiming where
  genesisTime : Int
  secondsPerSlot : Int
  slotsPerEpoch : Int
  deriving DecidableEq

namespace ChainTiming

/-- The time at which a slot starts. -/
def slotTime (t : ChainTiming) (slot : Int) : Int := t.genesisTime + slot * t.secondsPerSlot

/-- The epoch that contains a slot. -/
def epochOf (t : ChainTiming) (slot : Int) : Except Fault Int :=
  if t.slotsPerEpoch = 0 then .error .zeroSlotsPerEpoch else .ok (slot.fdiv t.slotsPerEpoch)

end ChainTiming

end StakeSnapshot
