import StakeSnapshot.Number.Binary64
import StakeSnapshot.Report.Amount
import StakeSnapshot.Report.ShortAddress
import StakeSnapshot.Stake.Effective
import StakeSnapshot.Text.Lowercase

/-!
# The listing of stakes

The nodes by decreasing stake, then by address without regard to case; otherwise they stay in the
order of the stakes.
-/

namespace StakeSnapshot.Report

/-- Whether a row may stand before another one. -/
def ranksBefore (a b : String × Int) : Bool :=
  b.2 < a.2 || (a.2 == b.2 &&
    decide (String.ofList (Text.lower a.1.toList) ≤ String.ofList (Text.lower b.1.toList)))

/-- The rows by rank. -/
def ranked (rows : List (String × Int)) : List (String × Int) := rows.mergeSort ranksBefore

/-- How many of `length` rows come before a place, which is counted from the end if negative. -/
def rowsBefore (place : Int) (length : Nat) : Nat :=
  if place < 0 then (length + place).toNat else min place.toNat length

/-- The rows that are shown: all of them, or those before a place. -/
def shownRows (top : Option Int) (rows : List (String × Int)) : List (String × Int) :=
  match top with
  | none => rows
  | some place => rows.take (rowsBefore place rows.length)

/-- A text with spaces in front up to a width. -/
def padLeft (width : Nat) (s : String) : String :=
  String.ofList (List.replicate (width - s.length) ' ') ++ s

/-- The share of a stake in the total as a percentage, if there is a total. -/
def share (stake total : Int) : Except Fault String :=
  if total ≤ 0 then .ok "-"
  else
    match Number.Binary64.ofRatio (stake < 0) (stake.natAbs * 100) total.natAbs with
    | .infinite _ => .error .shareRange
    | x => .ok (String.ofList (x.fixedText 3) ++ "%")

/-- The line of a node with its stake. -/
def stakeRow (s : Snapshot) (total : Int) (row : String × Int) : Except Fault String := do
  let (address, stake) := row
  match Table.find? s.lookups.nodeByAddress address with
  | none => .error (.missingField address)
  | some n =>
    let share ← share stake total
    return "   " ++ shortAddress address ++ "  " ++ padLeft 22 (← stakeAmount stake) ++ "  (raw "
      ++ (← stakeAmount n.stake) ++ ")  " ++ share

/-- The line that says how many nodes are not shown, given how many there are. -/
def remainder (top : Option Int) (count : Nat) : Except Fault (List String) := do
  match top with
  | some place =>
    if place < count then return ["   ... " ++ (← writeNumber (count - place)) ++ " more"]
    else return []
  | none => return []

/-- The lines that list the stakes of a snapshot's nodes, down to a place. -/
def listing (s : Snapshot) (stakes : EffectiveStakes) (top : Option Int) :
    Except Fault (List String) := do
  let rows := ranked stakes.byNode
  let eligible := rows.filter fun row => 0 < row.2
  let total ← stakeAmount stakes.total
  let lines ← (shownRows top rows).mapM (stakeRow s stakes.total)
  return [
    "🏦 EFFECTIVE RPL STAKE",
    "   Total: " ++ total ++ "  •  Eligible nodes: "
      ++ numberText eligible.length ++ "/" ++ numberText rows.length,
    "   " ++ String.ofList (List.replicate 60 '─')]
    ++ lines ++ (← remainder top rows.length) ++ [""]

end StakeSnapshot.Report
