import StakeSnapshot.Proofs.Contracts.Exchange
import StakeSnapshot.Proofs.Effects
import StakeSnapshot.Proofs.Snapshot.Run

/-!
# What is asked for a snapshot

However the outside answers, everything that is asked for the snapshot of a slot belongs to it: the
requests name the slot in their paths, and the calls are made at the block that was read for the slot
(`Sources.snapshot_pinned`). Up to the block there are only requests; the block itself is then what
all calls are made at. The lists that are read from the chain on the way are heard in order.
-/

namespace StakeSnapshot

open Reads

/-- A request for what a beacon node has at a slot: its block, or its validators. -/
def Request.Names (slot : Int) (r : Request) : Prop :=
  r.path = BeaconEndpoint.blockPath slot ∨ r.path = BeaconEndpoint.validatorsPath slot

/-- A question that belongs to a slot. The block of its calls is the one that the endpoint reads for
the slot, from a session in which nothing has been asked for it. -/
def Question.Pinned (out : Outside) (e : BeaconEndpoint) (slot : Int) (s : Session) :
    Question → Prop
  | .request r => r.Names slot
  | .call c => ∃ t, e.block out slot s = .ok c.block t

namespace Sources

variable (out : Outside) (e : BeaconEndpoint) (r : ChainReader) (slot : Int)

/-- Only questions that belong to the slot are asked for its snapshot, whether it is built or not. -/
theorem askedOnly_snapshot (log : Logger) (timing : ChainTiming) (s : Session) :
    s.AskedOnly (Question.Pinned out e slot s)
      (after ((ofReaders out e r).toldSnapshot log slot timing) s) := by
  -- up to the block, only requests are made
  let OfBlock : Question → Prop
    | .request r => r.Names slot
    | .call _ => False
  have hblock := moves_pinnedBlock out e r slot (Session.admitsStore_askedOnly OfBlock) (.inl rfl)
  have hmono : ∀ q, OfBlock q → Question.Pinned out e slot s q := by
    rintro (r | c) h
    · exact h
    · exact h.elim
  rw [toldSnapshot_eq]
  cases hread : (ofReaders out e r).pinnedBlock slot s with
  | error fault t =>
    rw [after_bind_of_error hread]
    exact (hblock.of_error hread).mono hmono
  | ok block t =>
    have hcalls : ∀ c : Call, c.block = block → Question.Pinned out e slot s (.call c) := by
      rintro c rfl
      exact ⟨t, (pinnedBlock_ok hread).1⟩
    have hrest := moves_pinned out e r slot
      (Session.admitsStore_askedOnly (Question.Pinned out e slot s)) hcalls
      (fun batch => .inr rfl) log timing t
    rw [after_bind_of_ok hread]
    exact trans_of (Session.AskedOnly _) ((hblock.of_ok hread).mono hmono) hrest

/-- Only questions that belong to the slot are asked for its snapshot, whether it is built or not,
whatever is answered, whatever the store holds, and wherever its progress is told. Wherever a list is
read that the store does not hold, it is heard from the chain: its rows belong to the indices below
the count in order, and each row is made of the answers about its address. -/
theorem snapshot_pinned (log : Logger) (timing : ChainTiming) (s : Session) :
    s.AskedOnly (Question.Pinned out e slot s)
      (after ((ofReaders out e r).toldSnapshot log slot timing) s) ∧
    ∀ (block : Value) (u v : Session),
      (∀ nodes, (r.useStore = true →
          u.store.load (Store.StoredReading.nodes r.storage block).key = .ok none) →
        r.nodes out block u = .ok nodes v →
          ∃ heard, u.Hears out heard v ∧ r.NodesHeard block nodes heard) ∧
      (∀ minipools, (r.useStore = true →
          u.store.load (Store.StoredReading.minipools r.storage block).key = .ok none) →
        r.minipools out block u = .ok minipools v →
          ∃ heard, u.Hears out heard v ∧ r.MinipoolsHeard block minipools heard) :=
  ⟨askedOnly_snapshot out e r slot log timing s, fun _ _ _ =>
    ⟨fun _ => ChainReader.nodes_hears, fun _ => ChainReader.minipools_hears⟩⟩

end Sources

/-! ### A chain with one node and one minipool -/

/-- The key of each minipool is empty, and everything else is the same text. -/
def onlyOnes : Outside where
  beacon _ _ := .failed "Timeout" ""
  chain _ c :=
    .ok (if c.function = Contracts.ViewFunction.minipoolPubkey.name then .bytes .constant []
      else .text "0x01")

def unstored : ChainReader := ⟨"0xS", false⟩

def onlyNodes : List NodeRow := [⟨.text "0x01", .int 1, .int 1⟩]

def onlyMinipools : List MinipoolRow :=
  [⟨.text "0x01", .text "0x01", .text "", .bool true, .prelaunch, .int 1, .int 1⟩]

theorem minipools_onlyOnes :
    ∃ t, unstored.minipools onlyOnes (.int 7) (.start .empty) = .ok onlyMinipools t := by
  have hrun : (match unstored.minipools onlyOnes (.int 7) (.start .empty) with
    | .ok minipools _ => minipools == onlyMinipools
    | .error .. => false) = true := by
    decide +kernel
  split at hrun
  · next minipools t hread =>
    rw [hread, beq_iff_eq.1 hrun]
    exact ⟨t, rfl⟩
  · cases hrun

/-- Both lists are read from the chain, and what is heard makes up their rows. -/
theorem Sources.snapshot_pinned_onlyOnes :
    (∃ heard t, (Session.start .empty).Hears onlyOnes heard t ∧
      unstored.NodesHeard (.int 7) onlyNodes heard) ∧
    ∃ heard t, (Session.start .empty).Hears onlyOnes heard t ∧
      unstored.MinipoolsHeard (.int 7) onlyMinipools heard := by
  have hpinned := fun t => (Sources.snapshot_pinned onlyOnes ⟨"http://b", 30, 100, false, by decide⟩
    unstored 64 .silent ⟨0, 12, 32⟩ (.start .empty)).2 (.int 7) (.start .empty) t
  constructor
  · obtain ⟨heard, hheard⟩ := (hpinned _).1 onlyNodes (by decide) rfl
    exact ⟨heard, _, hheard⟩
  · obtain ⟨t, ht⟩ := minipools_onlyOnes
    obtain ⟨heard, hheard⟩ := (hpinned t).2 onlyMinipools (by decide) ht
    exact ⟨heard, t, hheard⟩

end StakeSnapshot
