/-!
# The parameters of the protocol

Fractions, shares and the price of the stake are scaled by `10 ^ 18`; amounts are whole numbers of
the smallest unit.
-/

namespace StakeSnapshot

/-- The shares of the rewards: of the nodes, the oracle nodes and the protocol. -/
structure RewardShares where
  nodes : Int
  oracle : Int
  protocol : Int
  deriving DecidableEq

/-- The parameters at a block. The two fractions bound the collateral of a node's minipools. -/
structure Parameters where
  price : Int
  minimumFraction : Int
  maximumFraction : Int
  rewardIndex : Int
  interval : Int
  shares : RewardShares
  pendingRewards : Int
  deriving DecidableEq

end StakeSnapshot
