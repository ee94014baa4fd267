import StakeSnapshot.Log.Line
import StakeSnapshot.Snapshot

/-!
# The standing of a minipool

Whether a minipool counts towards its node's collateral, and if not, why. It counts if it is there,
is staking and has a validator that is active during the whole epoch of the snapshot.
-/

namespace StakeSnapshot

/-- Whether a minipool counts, with the epochs that decide it. -/
inductive Standing where
  | idle
  | unknown
  | early (start epoch : Int)
  | exited (exit epoch : Int)
  | eligible
  deriving DecidableEq

namespace Standing

/-- The standing of a staking minipool with a validator, in an epoch. -/
def ofEpochs (activation exit epoch : Int) : Standing :=
  if epoch < activation then .early activation epoch
  else if exit ≤ epoch then .exited exit epoch
  else .eligible

theorem ofEpochs_eq_eligible_iff {activation exit epoch : Int} :
    ofEpochs activation exit epoch = .eligible ↔ activation ≤ epoch ∧ epoch < exit := by
  unfold ofEpochs
  split
  · simp only [reduceCtorEq, false_iff]
    omega
  · split <;> simp <;> omega

/-- The line that explains why a staking minipool does not count. -/
def note? (m : Minipool) : Standing → Option LogLine
  | idle | eligible => none
  | unknown => some (.unknownValidator m.address m.pubkey)
  | early start epoch => some (.startsLater m.address start epoch)
  | exited exit epoch => some (.exited m.address exit epoch)

end Standing

namespace Snapshot

/-- The standing of a minipool. The epoch is needed only where there is a validator. -/
def standing (s : Snapshot) (m : Minipool) : Except Fault Standing :=
  if m.present = false ∨ m.status ≠ .staking then .ok .idle
  else
    match s.validatorOf m with
    | none => .ok .unknown
    | some v => s.epoch.map (Standing.ofEpochs v.activationEpoch v.exitEpoch)

/-- The lines that explain the standings of the given minipools, up to the first that fails. -/
def notes (s : Snapshot) : List Minipool → List LogLine
  | [] => []
  | m :: rest =>
    match s.standing m with
    | .error _ => []
    | .ok standing => (standing.note? m).toList ++ s.notes rest

end Snapshot

end StakeSnapshot
