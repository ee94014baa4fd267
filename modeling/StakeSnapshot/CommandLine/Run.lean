import StakeSnapshot.CommandLine.Options
import StakeSnapshot.Report.Listing
import StakeSnapshot.Report.Summary
import StakeSnapshot.Snapshot.Build

/-!
# The command line

Builds a snapshot, calculates its stakes and reports both. The exit code is 2 if the options, the
settings or the nodes do not allow to start, 1 if the snapshot or the stakes cannot be had, and 0
after the report.
-/

namespace StakeSnapshot.CommandLine

/-- The name of the program in its messages. -/
def programName : String := "rp-network-state"

/-- How a run ends, with the lines of its output and of its messages. -/
structure Outcome where
  exit : Nat
  output : List String
  messages : List String
  deriving DecidableEq

/-- What the program finds around it: two addresses that options may override, whether the chain can be
reached, and how the access to the chain spells the address of a contract, if it takes it for one. Of
what becomes of a snapshot with rows that are no nodes and minipools, nothing is known. -/
structure Environment where
  rpcUrl : Option String
  beaconUrl : Option String
  connected : Bool
  checksum : String → Except Fault String
  untyped : RowSnapshot → Reads Outcome

/-- The first text that is there and not empty. -/
def firstText (given fallback : Option String) : Option String :=
  (given.filter (!·.isEmpty)).or (fallback.filter (!·.isEmpty))

/-- How many rows the listing shows at most; zero asks for all of them. -/
def listingTop (o : Options) : Option Int := if o.top = 0 then none else some o.top

/-- The timing of the chain and the slot to look at: the given one or the last finalized. -/
def startingPoint (out : Outside) (beacon : BeaconEndpoint) (o : Options) :
    Reads (ChainTiming × Int) := do
  let timing ← beacon.timing out
  match o.slot with
  | some slot => return (timing, slot)
  | none => return (timing, ← beacon.finalizedSlot out)

/-- Where a run tells its lines. -/
def Options.logger (o : Options) (elapsed : Number.Binary64) : Logger :=
  if o.quiet then .silent else .writing elapsed

/-- The snapshot of a slot and its stakes, or its rows if they are no nodes and minipools. -/
def calculate (out : Outside) (beacon : BeaconEndpoint) (chain : ChainReader) (o : Options)
    (elapsed : Number.Binary64) (slot : Int) (timing : ChainTiming) :
    Reads (RowSnapshot ⊕ Snapshot × EffectiveStakes) := do
  let log := o.logger elapsed
  let rows ← (Sources.ofReaders out beacon chain).toldSnapshot log slot timing
  match rows.typed? with
  | none => return .inl rows
  | some (s : Snapshot) =>
    let stakes ← s.toldStakes log (!o.noScale) o.threads
    s.stakeNotes.forM Reads.tell
    return .inr (s, stakes)

/-- The texts of the lines that were told, unless the run is to be quiet. -/
def told (o : Options) (elapsed : Number.Binary64) : Reads (List String) := do
  if o.quiet then return []
  return (← get).log.filterMap fun line => (line.text elapsed).toOption

/-- Ends a run with a message behind the lines that were told. -/
def endWith (o : Options) (elapsed : Number.Binary64) (exit : Nat) (message : String) :
    Reads Outcome := do
  return ⟨exit, [], (← told o elapsed) ++ [message]⟩

/-- A run with both addresses at hand. -/
def runWith (out : Outside) (untyped : RowSnapshot → Reads Outcome) (o : Options)
    (beacon : BeaconEndpoint) (chain : ChainReader) (beaconUrl : String)
    (elapsed : Number.Binary64) : Reads Outcome := do
  match ← Sources.attempt (startingPoint out beacon o) with
  | .error fault =>
    if fault.isReadFailure then
      endWith o elapsed 2
        ("Error: failed to query Beacon node at " ++ beaconUrl ++ ": " ++ fault.message)
    else throw fault
  | .ok (timing, slot) =>
    match ← Sources.attempt (calculate out beacon chain o elapsed slot timing) with
    | .error fault =>
      if fault.isConfiguration then
        endWith o elapsed 2 ("Error: invalid configuration: " ++ fault.message)
      else if fault.isSnapshotFailure || fault.isStakeFailure then
        endWith o elapsed 1 ("Error: " ++ fault.message)
      else throw fault
    | .ok (.inl rows) => untyped rows
    | .ok (.inr (s, stakes)) =>
      let summary ← Report.summary s
      let listing ← Report.listing s stakes (listingTop o)
      return ⟨0, summary ++ listing, ← told o elapsed⟩

/-- A run with the given options. -/
def runOptions (env : Environment) (out : Outside) (elapsed : Number.Binary64) (o : Options) :
    Reads Outcome := do
  match firstText o.rpcUrl env.rpcUrl, firstText o.beaconUrl env.beaconUrl with
  | some rpcUrl, some beaconUrl =>
    if env.connected then
      let storage ← env.checksum o.storage
      let beacon ← BeaconEndpoint.open? beaconUrl defaultTimeout defaultBatchSize (!o.noCache)
      runWith out env.untyped o beacon ⟨storage, !o.noCache⟩ beaconUrl elapsed
    else return ⟨2, [], ["Error: failed to connect to RPC at " ++ rpcUrl]⟩
  | _, _ =>
    return ⟨2, [], ["Error: both an execution RPC URL (--rpc-url / ETH_RPC_URL) and a Beacon API URL "
      ++ "(--beacon-url / BEACON_API_URL) are required."]⟩

/-- A run with the given words on the command line; `elapsed` is the number of seconds that progress
lines tell. -/
def run (env : Environment) (out : Outside) (elapsed : Number.Binary64) (words : List String) :
    Reads Outcome :=
  match parse words with
  | .error .help => return ⟨0, [], []⟩
  | .error (.usage fault) => return ⟨2, [], [programName ++ ": error: " ++ fault.message]⟩
  | .ok o => runOptions env out elapsed o

end StakeSnapshot.CommandLine
