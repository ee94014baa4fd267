import StakeSnapshot.Digest.Keccak

/-!
# The contracts of the protocol

The names under which contracts are registered, and the functions that are read from them.
-/

namespace StakeSnapshot.Contracts

/-- The contract in which the addresses of all others are registered. -/
def mainnetStorage : String := "0x1d8f8f00cfa6758d7bE78336684788Fb0ee0Fa46"

/-- The address of a contract that is not registered. -/
def zeroAddress : String := "0x0000000000000000000000000000000000000000"

/-! ### Names under which contracts are registered -/

def networkPrices : String := "rocketNetworkPrices"

def nodeSettings : String := "rocketDAOProtocolSettingsNode"

def rewardsPool : String := "rocketRewardsPool"

def nodeManager : String := "rocketNodeManager"

def nodeStaking : String := "rocketNodeStaking"

def minipoolManager : String := "rocketMinipoolManager"

/-! ### Names under which shares of the rewards are claimed -/

def nodeClaims : String := "rocketClaimNode"

def oracleClaims : String := "rocketClaimTrustedNode"

def protocolClaims : String := "rocketClaimDAO"

/-! ### Functions -/

/-- The digest under which the address of a contract is registered. -/
def registryKey (contract : String) : List UInt8 :=
  Digest.keccak256 ("contract.address" ++ contract).toUTF8.toList

/-- A function of a contract that only reads. -/
structure ViewFunction where
  name : String

namespace ViewFunction

/-! ### Functions of the storage, the prices, the settings and the rewards -/

def address : ViewFunction := ⟨"getAddress"⟩

def price : ViewFunction := ⟨"getRPLPrice"⟩

def minimumStake : ViewFunction := ⟨"getMinimumPerMinipoolStake"⟩

def maximumStake : ViewFunction := ⟨"getMaximumPerMinipoolStake"⟩

def rewardIndex : ViewFunction := ⟨"getRewardIndex"⟩

def intervalTime : ViewFunction := ⟨"getClaimIntervalTime"⟩

def claimShare : ViewFunction := ⟨"getClaimingContractPerc"⟩

def pendingRewards : ViewFunction := ⟨"getPendingRPLRewards"⟩

/-! ### Functions about nodes -/

def nodeCount : ViewFunction := ⟨"getNodeCount"⟩

def nodeAt : ViewFunction := ⟨"getNodeAt"⟩

def registrationTime : ViewFunction := ⟨"getNodeRegistrationTime"⟩

def nodeStake : ViewFunction := ⟨"getNodeRPLStake"⟩

/-! ### Functions about minipools -/

def minipoolCount : ViewFunction := ⟨"getMinipoolCount"⟩

def minipoolAt : ViewFunction := ⟨"getMinipoolAt"⟩

def minipoolExists : ViewFunction := ⟨"getMinipoolExists"⟩

def minipoolPubkey : ViewFunction := ⟨"getMinipoolPubkey"⟩

def minipoolOwner : ViewFunction := ⟨"getNodeAddress"⟩

def minipoolStatus : ViewFunction := ⟨"getStatus"⟩

def borrowedDeposit : ViewFunction := ⟨"getUserDepositBalance"⟩

def bondedDeposit : ViewFunction := ⟨"getNodeDepositBalance"⟩

end ViewFunction

end StakeSnapshot.Contracts
