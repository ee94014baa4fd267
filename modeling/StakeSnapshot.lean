import StakeSnapshot.Log.Template
import StakeSnapshot.Main
import StakeSnapshot.Proofs.Snapshot.Eligibility
import StakeSnapshot.Proofs.Stake.Reference
import StakeSnapshot.Proofs.Stake.Schedule
import StakeSnapshot.Proofs.Stake.Stepwise
import StakeSnapshot.Proofs.Stake.Failure
import StakeSnapshot.Proofs.Number.Nearest
import StakeSnapshot.Proofs.Number.Digits
import StakeSnapshot.Proofs.Number.Shortest
import StakeSnapshot.Proofs.Json.Number
import StakeSnapshot.Proofs.Json.Text
import StakeSnapshot.Proofs.Json.RoundTrip
import StakeSnapshot.Proofs.Contracts.World
import StakeSnapshot.Proofs.Store.Kept
import StakeSnapshot.Proofs.Beacon.World
import StakeSnapshot.Proofs.Store.Genuine
import StakeSnapshot.Proofs.Beacon.Batches
import StakeSnapshot.Proofs.Store.Transparency
import StakeSnapshot.Proofs.Beacon.Retry
import StakeSnapshot.Proofs.Store.Shapes
import StakeSnapshot.Proofs.Stake.Independence
import StakeSnapshot.Proofs.Snapshot.Pinning
import StakeSnapshot.Proofs.Snapshot.Repeat
import StakeSnapshot.Proofs.Snapshot.Construction
import StakeSnapshot.Proofs.CommandLine.Exit
import StakeSnapshot.Proofs.Store.Failure
import StakeSnapshot.Proofs.Beacon.Slices
import StakeSnapshot.Proofs.Lookups.Mirror
import StakeSnapshot.Proofs.Stake.Bounds
import StakeSnapshot.Proofs.Beacon.Batching
import StakeSnapshot.Proofs.Stake.Accounting
import StakeSnapshot.Proofs.Stake.Explanation
import StakeSnapshot.Proofs.Pubkey.Spelling
import StakeSnapshot.Proofs.Store.Latest
import StakeSnapshot.Proofs.Contracts.Memo
import StakeSnapshot.Proofs.Report.Listing
import StakeSnapshot.Proofs.Report.Duration
import StakeSnapshot.Proofs.Value.Integer
import StakeSnapshot.Proofs.Number.HalfEven
import StakeSnapshot.Proofs.Number.Decimal
import StakeSnapshot.Proofs.Stake.Units
import StakeSnapshot.Proofs.Report.Amount
