import StakeSnapshot.Fault

/-!
# Durations as text

Days, hours, minutes and seconds, without the leading units that are zero.
-/

namespace StakeSnapshot.Report

/-- The counts of days, hours, minutes and seconds, each with its unit. -/
def durationParts (seconds : Nat) : List (Nat × Char) :=
  [(seconds / 86400, 'd'), (seconds % 86400 / 3600, 'h'), (seconds % 3600 / 60, 'm'),
    (seconds % 60, 's')]

/-- The parts from the first that is not zero on; the last one is always kept. -/
def dropLeadingZeros : List (Nat × Char) → List (Nat × Char)
  | [] => []
  | [last] => [last]
  | (n, unit) :: rest => if n = 0 then dropLeadingZeros rest else (n, unit) :: rest

/-- A count with its unit. -/
def durationPart (part : Nat × Char) : List Char := Number.digits part.1 ++ [part.2]

/-- Parts separated by spaces. -/
def joinParts : List (List Char) → List Char
  | [] => []
  | [part] => part
  | part :: next :: rest => part ++ ' ' :: joinParts (next :: rest)

/-- A number of seconds as text, with a sign in front if it is negative. -/
def duration (seconds : Int) : List Char :=
  let text := joinParts ((dropLeadingZeros (durationParts seconds.natAbs)).map durationPart)
  if seconds < 0 then '-' :: text else text

/-- A number of seconds as text, unless there are too many days to be written. -/
def durationText (seconds : Int) : Except Fault String :=
  if Number.isWritable (seconds.natAbs / 86400 : Nat) then .ok (String.ofList (duration seconds))
  else .error .numberTooLong

end StakeSnapshot.Report
