import StakeSnapshot.Fault

/-!
# Collateral

The bounds that the deposits behind a node's minipools set for its stake, and the part of a stake
that counts for a node that registered during the interval. Everything is multiplied out before the
one division, which rounds down.
-/

namespace StakeSnapshot

/-- Deposits behind minipools: what was borrowed and what the node bonded. -/
structure Deposits where
  borrowed : Int
  bonded : Int
  deriving DecidableEq

/-- No deposits. -/
def Deposits.none : Deposits := ⟨0, 0⟩

/-- The sum of two deposits. -/
def Deposits.add (d e : Deposits) : Deposits := ⟨d.borrowed + e.borrowed, d.bonded + e.bonded⟩

/-- The least and the greatest stake that counts as collateral. The least may exceed the
greatest. -/
structure Collateral where
  minimum : Int
  maximum : Int
  deriving DecidableEq

namespace Collateral

/-- The bounds for the given deposits. Price and fractions have the same scale. -/
def ofDeposits (d : Deposits) (price minimumFraction maximumFraction : Int) :
    Except Fault Collateral :=
  if price ≤ 0 then .error (Fault.priceNotPositive price .none).raised
  else .ok ⟨(d.borrowed * minimumFraction).fdiv price, (d.bonded * maximumFraction).fdiv price⟩

/-- The part of a stake that counts: nothing below the minimum, and no more than the maximum. -/
def clamp (c : Collateral) (stake : Int) : Int :=
  if stake < c.minimum then 0
  else if c.maximum < stake then c.maximum
  else stake

end Collateral

/-- The part of a stake that counts for the time since the registration, in an interval that ends
at `time`. -/
def scaleByParticipation (stake registered time interval : Int) : Except Fault Int :=
  let elapsed := time - registered
  if elapsed < 0 then .error (Fault.registeredLater registered time).raised
  else if elapsed < interval then .ok ((stake * elapsed).fdiv interval)
  else .ok stake

end StakeSnapshot
