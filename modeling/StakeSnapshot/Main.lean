import StakeSnapshot.CommandLine.Run

/-!
# The program

There is no transport to a chain or a beacon node here, so that a run ends where it would connect.
-/

namespace StakeSnapshot

/-- An outside that cannot be reached. -/
def unreachable : Outside where
  beacon _ _ := .failed "ConnectionError" "no connection"
  chain _ _ := .error (.readFailed "no connection")

end StakeSnapshot

open StakeSnapshot in
/-- Runs the command line in the environment of the process. -/
def main (words : List String) : IO UInt32 := do
  let rpcUrl ← IO.getEnv "ETH_RPC_URL"
  let beaconUrl ← IO.getEnv "BEACON_API_URL"
  let env : CommandLine.Environment := ⟨rpcUrl, beaconUrl, false, .ok, fun _ => return ⟨0, [], []⟩⟩
  match CommandLine.run env unreachable (.ofInt 0) words (Session.start .empty) with
  | .ok outcome _ =>
    outcome.messages.forM IO.eprintln
    outcome.output.forM IO.println
    return UInt32.ofNat outcome.exit
  | .error fault _ =>
    IO.eprintln fault.message
    return 1
