import StakeSnapshot.Proofs.Table
import StakeSnapshot.Snapshot

/-!
# Lookups and the rows they are made of

In a snapshot whose lookups are those of its own rows, the minipools of a node are the sublist of the
rows that it owns.
-/

namespace StakeSnapshot

theorem Lookups.minipoolsByNode_ofRows (nodes : List Node) (minipools : List Minipool) :
    (ofRows nodes minipools).minipoolsByNode = Table.grouped (·.owner) minipools := rfl

namespace Snapshot

/-- The lookups are those of the rows. -/
def Indexed (s : Snapshot) : Prop := s.lookups = Lookups.ofRows s.nodes s.minipools

instance (s : Snapshot) : Decidable s.Indexed := inferInstanceAs (Decidable (_ = _))

/-- The snapshot with the lookups of its rows. -/
def reindexed (s : Snapshot) : Snapshot := { s with lookups := Lookups.ofRows s.nodes s.minipools }

theorem indexed_reindexed (s : Snapshot) : s.reindexed.Indexed := rfl

theorem Indexed.minipoolsOf {s : Snapshot} (h : s.Indexed) (address : String) :
    s.minipoolsOf address = s.minipools.filter (·.owner = address) := by
  rw [Snapshot.minipoolsOf, show s.lookups = _ from h, Lookups.minipoolsByNode_ofRows]
  exact Table.getD_find?_grouped _ _ _

end Snapshot

end StakeSnapshot
