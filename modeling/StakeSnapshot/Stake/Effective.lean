import StakeSnapshot.Stake.Collateral
import StakeSnapshot.Stake.Standing

/-!
# Effective stakes

The effective stake of each node of a snapshot, and their total. Nodes do not depend on each other;
if some of them fail, the first one in the order of the list decides.
-/

namespace StakeSnapshot

/-- The effective stakes by address, with the total over all rows. -/
structure EffectiveStakes where
  byNode : Table String Int
  total : Int
  deriving DecidableEq

/-- How many nodes are worked on at the same time unless said otherwise. -/
def defaultThreads : Int := 4

namespace EffectiveStakes

/-- The stakes of the rows of a list; the last row of an address decides its stake, and the total
has all of them. -/
def ofRows (rows : List (String × Int)) : EffectiveStakes where
  byNode := Table.ofRows rows
  total := (rows.map Prod.snd).foldr (· + ·) 0

/-- The stakes if none of the rows failed, otherwise the failure of the first one that did. -/
def collect (outcomes : List (String × Except Fault Int)) : Except Fault EffectiveStakes := do
  let rows ← outcomes.mapM fun (address, outcome) => outcome.map fun stake => (address, stake)
  return ofRows rows

end EffectiveStakes

namespace Snapshot

/-- The deposits of those among the given minipools that count. -/
def eligibleDeposits (s : Snapshot) (minipools : List Minipool) : Except Fault Deposits :=
  minipools.foldlM (fun d m => do
    match ← s.standing m with
    | .eligible => return d.add ⟨m.borrowed, m.bonded⟩
    | _ => return d) .none

/-- The effective stake of a node, which need not be one of the snapshot's. -/
def nodeStake (s : Snapshot) (scale : Bool) (n : Node) : Except Fault Int := do
  let deposits ← s.eligibleDeposits (s.minipoolsOf n.address)
  let collateral ← Collateral.ofDeposits deposits s.parameters.price
    s.parameters.minimumFraction s.parameters.maximumFraction
  let stake := collateral.clamp n.stake
  if scale then
    (scaleByParticipation stake n.registered s.time s.parameters.interval).mapError
      (.nodeStake n.address)
  else return stake

/-- The effective stake of a node; any failure names the node. -/
def namedStake (s : Snapshot) (scale : Bool) (n : Node) : Except Fault Int :=
  (s.nodeStake scale n).mapError (.atNode n.address)

/-- What is told while the stake of a node is calculated. -/
def nodeNotes (s : Snapshot) (n : Node) : List LogLine := s.notes (s.minipoolsOf n.address)

/-- Whether effective stakes can be calculated with these parameters at all. -/
def checkConfiguration (s : Snapshot) (scale : Bool) (threads : Int) : Except Fault Unit :=
  if threads < 1 then .error (Fault.threadLimit threads).raised
  else if s.parameters.price ≤ 0 then
    .error (Fault.priceNotPositive s.parameters.price (some s.block)).raised
  else if scale ∧ s.parameters.interval ≤ 0 then
    .error (Fault.intervalNotPositive s.parameters.interval).raised
  else .ok ()

/-- The effective stakes of all nodes. -/
def effectiveStakes (s : Snapshot) (scale : Bool) (threads : Int) :
    Except Fault EffectiveStakes := do
  s.checkConfiguration scale threads
  EffectiveStakes.collect (s.nodes.map fun n => (n.address, s.namedStake scale n))

/-- What is told while the stakes of all nodes are calculated, node by node. -/
def stakeNotes (s : Snapshot) : List LogLine := s.nodes.flatMap s.nodeNotes

/-- The effective stake of a node, with its lines told to a logger. They come before the first
minipool without a standing, and a line that cannot be told is a failure as well. -/
def toldStake (log : Logger) (s : Snapshot) (scale : Bool) (n : Node) : Except Fault Int := do
  (log.tell (s.nodeNotes n)).mapError (.atNode n.address)
  s.namedStake scale n

/-- The effective stakes of all nodes, with the lines told to a logger. -/
def toldStakes (log : Logger) (s : Snapshot) (scale : Bool) (threads : Int) :
    Except Fault EffectiveStakes := do
  s.checkConfiguration scale threads
  EffectiveStakes.collect (s.nodes.map fun n => (n.address, s.toldStake log scale n))

end Snapshot

end StakeSnapshot
