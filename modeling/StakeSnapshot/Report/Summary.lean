import StakeSnapshot.Report.Amount
import StakeSnapshot.Report.Calendar
import StakeSnapshot.Report.Duration
import StakeSnapshot.Snapshot

/-!
# The summary of a snapshot
-/

namespace StakeSnapshot.Report

/-- The line above and below a heading. -/
def rule : String := String.ofList (List.replicate 70 '=')

/-- The number of members of a list as text. -/
def countText {α : Type} (xs : List α) : String := numberText xs.length

/-- The text `before` with a value behind it, if the value can be written and printed. -/
def ending (before : String) (v : Value) : Except Fault String :=
  match v with
  | .ragged points => .error (.unencodable (CodePoint.ofString before ++ points))
  | v => if v.isWritable then .ok (before ++ valueText v) else .error .numberTooLong

/-- The lines that tell the time, the place and the parameters of a snapshot. -/
def summary (s : Snapshot) : Except Fault (List String) := do
  let time ← dateTime s.time
  let slot ← writeNumber s.slot
  let epoch ← writeNumber (← s.epoch)
  let place ← ending ("   🕐 " ++ String.ofList time ++ "  •  slot=" ++ slot ++ "  •  epoch=" ++ epoch
    ++ "  •  block=") s.block
  let p := s.parameters
  return [
    rule,
    "📊 ROCKET POOL NETWORK STATE",
    place,
    rule,
    "   Reward interval:     #" ++ (← writeNumber p.rewardIndex) ++ " ("
      ++ (← durationText p.interval) ++ ")",
    "   RPL price:           " ++ (← priceAmount p.price),
    "   Collateral bounds:   " ++ (← percentage p.minimumFraction) ++ " – "
      ++ (← percentage p.maximumFraction),
    "   Reward shares:",
    "      • Node operators:   " ++ (← percentage p.shares.nodes),
    "      • Oracle DAO:       " ++ (← percentage p.shares.oracle),
    "      • Protocol DAO:     " ++ (← percentage p.shares.protocol),
    "   Pending RPL rewards: " ++ (← stakeAmount p.pendingRewards),
    "   Nodes: " ++ countText s.nodes ++ "  •  Minipools: " ++ countText s.minipools
      ++ "  •  Validators on Beacon: " ++ countText s.validators,
    ""]

end StakeSnapshot.Report
