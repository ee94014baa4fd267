/-!
# Addresses in short
-/

namespace StakeSnapshot.Report

/-- The first ten and the last six characters of an address of more than eighteen. -/
def shortAddress (address : String) : String :=
  let s := address.toList
  if s.length ≤ 18 then address
  else String.ofList (s.take 10 ++ "...".toList ++ s.drop (s.length - 6))

end StakeSnapshot.Report
