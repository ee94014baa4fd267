import StakeSnapshot.Proofs.Number.Digits
import StakeSnapshot.Proofs.Session
import StakeSnapshot.Proofs.Snapshot.Trace
import StakeSnapshot.Proofs.Table

/-!
# A snapshot is built from all its readings, or not at all

`Snapshot.readings` lists the readings that give a snapshot, and `Construction` relates the readings
that are made to what becomes of the snapshot: it is built after the last of them, and any failure
before ends with a fault that says what failed, at which block and slot, and why. The main statement
is `Sources.snapshot_construction`: whatever the readings answer, the snapshot is constructed so.
-/

namespace StakeSnapshot

/-! ### The readings of a snapshot -/

/-- The distinct keys that are assigned to minipools, in order of first appearance. -/
def assignedKeys (minipools : List Minipool) : List String :=
  ((minipools.map (·.pubkey)).filter (· ≠ unassignedPubkey)).eraseDups

theorem pubkeys_ofRows (nodes : List Node) (minipools : List Minipool) :
    (Lookups.ofRows nodes minipools).pubkeys = assignedKeys minipools :=
  Table.distinct_eq_eraseDups _

theorem nodup_assignedKeys (minipools : List Minipool) : (assignedKeys minipools).Nodup := by
  rw [assignedKeys, ← Table.distinct_eq_eraseDups]
  exact Table.nodup_distinct _

theorem mem_assignedKeys {minipools : List Minipool} {key : String} :
    key ∈ assignedKeys minipools ↔ (∃ m ∈ minipools, m.pubkey = key) ∧ key ≠ unassignedPubkey := by
  simp [assignedKeys]

/-- The readings that give a snapshot, in the order in which they are made. -/
def Snapshot.readings (s : Snapshot) : List Event :=
  [⟨.block s.slot, .ok s.block⟩,
    ⟨.price s.block, .ok s.parameters.price⟩,
    ⟨.minimumFraction s.block, .ok s.parameters.minimumFraction⟩,
    ⟨.maximumFraction s.block, .ok s.parameters.maximumFraction⟩,
    ⟨.rewardIndex s.block, .ok s.parameters.rewardIndex⟩,
    ⟨.interval s.parameters.rewardIndex s.block, .ok s.parameters.interval⟩,
    ⟨.shares s.parameters.rewardIndex s.block, .ok s.parameters.shares⟩,
    ⟨.pendingRewards s.parameters.rewardIndex s.block, .ok s.parameters.pendingRewards⟩,
    ⟨.nodes s.block, .ok s.nodes⟩,
    ⟨.minipools s.block, .ok s.minipools⟩,
    ⟨.validators (assignedKeys s.minipools) s.slot, .ok s.validators⟩]

/-- The snapshot that answers are put together to. -/
def Snapshot.assembled (slot : Int) (timing : ChainTiming) (block : Value) (parameters : Parameters)
    (nodes : List Node) (minipools : List Minipool) (validators : Table String Validator) :
    Snapshot where
  block := block
  slot := slot
  timing := timing
  parameters := parameters
  nodes := nodes
  minipools := minipools
  validators := validators
  lookups := Lookups.ofRows nodes minipools

/-- The fault of a snapshot one of whose readings fails; `block` is the one that is read at. -/
def Query.fault (q : Query) (block : Value) (slot : Int) (cause : Fault) : Fault :=
  match q.reading? with
  | none => .blockUnavailable slot cause
  | some what => .unavailable what block slot cause

/-- The readings that are made for a snapshot, and what becomes of it. A reading that fails is the
last one, except that the minipools are read beside the nodes. -/
inductive Construction (slot : Int) (timing : ChainTiming) :
    List Event → Except Fault Snapshot → Prop
  | built {s : Snapshot} (hslot : s.slot = slot) (hblock : s.block ≠ .null)
      (htiming : s.timing = timing) (hlookups : s.lookups = Lookups.ofRows s.nodes s.minipools) :
      Construction slot timing s.readings (.ok s)
  | empty :
      Construction slot timing [⟨.block slot, .ok Value.null⟩] (.error (Fault.emptySlot slot).raised)
  | failed {s : Snapshot} {before after : List Event} {q : Query} {a : q.Answer} {cause : Fault}
      (hslot : s.slot = slot) (hblock : s.block ≠ .null) (hreadings : s.readings = before ++ ⟨q, .ok a⟩ :: after)
      (hquery : q ≠ .nodes s.block) :
      Construction slot timing (before ++ [⟨q, .error cause⟩])
        (.error (q.fault s.block slot cause).raised)
  | nodesFailed {s : Snapshot} {before after : List Event} {cause : Fault}
      {answer : Except Fault (List Minipool)} (hslot : s.slot = slot) (hblock : s.block ≠ .null)
      (hreadings : s.readings = before ++ ⟨.nodes s.block, .ok s.nodes⟩ :: after) :
      Construction slot timing
        (before ++ [⟨.nodes s.block, .error cause⟩] ++ [⟨.minipools s.block, answer⟩])
        (.error (Fault.unavailable .nodes s.block slot cause).raised)

/-! ### What a construction says -/

/-- The first failure among events, and what was asked there. -/
def firstFailure? (trace : List Event) : Option (Query × Fault) :=
  trace.findSome? fun e => e.failure?.map fun cause => (e.query, cause)

/-- Whether a fault names a value in its message. -/
def Fault.Names (fault : Fault) (v : Value) : Prop :=
  (valueText v).toList <:+: fault.message.toList

theorem names_of_message {fault : Fault} {v : Value} (start rest : String)
    (h : fault.message = start ++ valueText v ++ rest) : fault.Names v := by
  refine ⟨start.toList, rest.toList, ?_⟩
  rw [h, String.toList_append, String.toList_append]

theorem firstFailure?_append_of_answered {trace rest : List Event}
    (h : ∀ e ∈ trace, e.failure? = none) :
    firstFailure? (trace ++ rest) = firstFailure? rest := by
  have hnone : firstFailure? trace = none := by
    refine List.findSome?_eq_none_iff.2 fun e he => ?_
    rw [h e he, Option.map_none]
  unfold firstFailure? at hnone ⊢
  rw [List.findSome?_append, hnone, Option.none_or]

theorem firstFailure?_failed (q : Query) (cause : Fault) (rest : List Event) :
    firstFailure? (⟨q, .error cause⟩ :: rest) = some (q, cause) := rfl

namespace Snapshot

theorem answered_readings (s : Snapshot) : ∀ e ∈ s.readings, e.failure? = none := by
  simp [readings, Event.failure?]

/-- The block of a snapshot is the one that its first reading answered. -/
theorem block_of_mem_readings {s : Snapshot} {slot : Int} {block : Value}
    (h : ⟨.block slot, .ok block⟩ ∈ s.readings) : block = s.block := by
  simp only [readings, List.mem_cons, Event.mk.injEq, List.not_mem_nil, reduceCtorEq,
    Query.block.injEq, false_and, or_false] at h
  obtain ⟨rfl, h⟩ := h
  exact Except.ok.inj (eq_of_heq h)

/-- Only the first reading is not made at a block. -/
theorem exists_reading_of_mem_tail (s : Snapshot) :
    ∀ e ∈ s.readings.tail, ∃ what, e.query.reading? = some what := by
  simp [readings, Query.reading?]

/-- The events before a reading were all answered, and have the block just if it is read at. -/
theorem before_readings {s : Snapshot} {before after : List Event} {e : Event}
    (h : s.readings = before ++ e :: after) :
    (∀ f ∈ before, f.failure? = none) ∧
      ∀ b : Value, ⟨.block s.slot, .ok b⟩ ∈ before ↔
        b = s.block ∧ ∃ what, e.query.reading? = some what := by
  refine ⟨fun f hf => s.answered_readings f (h ▸ List.mem_append_left _ hf), fun b => ?_⟩
  cases before with
  | nil =>
    -- the first reading gives the block and is not made at one
    cases (List.cons.inj h).1
    simp [Query.reading?]
  | cons first rest =>
    obtain ⟨rfl, hrest⟩ := List.cons.inj h
    have hwhat : ∃ what, e.query.reading? = some what := by
      refine s.exists_reading_of_mem_tail e ?_
      rw [h, List.cons_append, List.tail_cons]
      exact List.mem_append_right _ List.mem_cons_self
    refine ⟨fun hb => ⟨?_, hwhat⟩, ?_⟩
    · exact block_of_mem_readings (h ▸ List.mem_append_left _ hb)
    · rintro ⟨rfl, -⟩
      exact List.mem_cons_self

end Snapshot

theorem message_blockUnavailable (slot : Int) (cause : Fault) :
    (Fault.blockUnavailable slot cause).message =
      "error getting Beacon block for slot " ++ numberText slot ++ ": " ++ cause.message := rfl

theorem message_unavailable (what : Reading) (block : Value) (slot : Int) (cause : Fault) :
    (Fault.unavailable what block slot cause).message =
      "error getting " ++ what.label ++ " at EL block " ++ valueText block ++ " (slot " ++
        numberText slot ++ "): " ++ cause.message := rfl

namespace Query

variable (q : Query) (block : Value) (slot : Int) (cause : Fault)

theorem fault_of_reading {q : Query} {what : Reading} (hq : q.reading? = some what) :
    q.fault block slot cause = .unavailable what block slot cause := by
  rw [fault, hq]

theorem fault_of_no_reading {q : Query} (hq : q.reading? = none) :
    q.fault block slot cause = .blockUnavailable slot cause := by
  rw [fault, hq]

theorem fault_isSnapshotFailure : (q.fault block slot cause).isSnapshotFailure := by
  cases hq : q.reading? with
  | none => rw [fault_of_no_reading block slot cause hq]; rfl
  | some what => rw [fault_of_reading block slot cause hq]; rfl

theorem fault_names_slot : (q.fault block slot cause).Names (.int slot) := by
  cases hq : q.reading? with
  | none =>
    rw [fault_of_no_reading block slot cause hq]
    refine names_of_message "error getting Beacon block for slot " (": " ++ cause.message) ?_
    rw [message_blockUnavailable, String.append_assoc, valueText_int]
  | some what =>
    rw [fault_of_reading block slot cause hq]
    refine names_of_message
      ("error getting " ++ what.label ++ " at EL block " ++ valueText block ++ " (slot ")
      ("): " ++ cause.message) ?_
    rw [message_unavailable, String.append_assoc, valueText_int]

variable {q} in
theorem fault_names_block {what : Reading} (hq : q.reading? = some what) :
    (q.fault block slot cause).Names block := by
  rw [fault_of_reading block slot cause hq]
  refine names_of_message ("error getting " ++ what.label ++ " at EL block ")
    (" (slot " ++ numberText slot ++ "): " ++ cause.message) ?_
  simp only [message_unavailable, String.append_assoc]

theorem fault_isWritable_iff :
    (∀ v ∈ (q.fault block slot cause).named, v.isWritable = true) ↔
      Number.isWritable slot = true ∧
        ((∃ what, q.reading? = some what) → block.isWritable = true) := by
  cases hq : q.reading? with
  | none => simp [fault_of_no_reading block slot cause hq, Fault.named]
  | some what => simp [fault_of_reading block slot cause hq, Fault.named, and_comm]

end Query

theorem emptySlot_names (slot : Int) : (Fault.emptySlot slot).Names (.int slot) :=
  names_of_message "slot " " did not have a Beacon block" rfl

/-- The slot, and the block once it is known, can be written into messages. -/
def Legible (slot : Int) (trace : List Event) : Prop :=
  Number.isWritable slot = true ∧
    ∀ b : Value, ⟨.block slot, .ok b⟩ ∈ trace → b.isWritable = true

namespace Construction

variable {slot : Int} {timing : ChainTiming} {trace : List Event} {result : Except Fault Snapshot}

/-- A snapshot is built exactly if there is a block and every reading was answered. -/
theorem exists_ok_iff (h : Construction slot timing trace result) :
    (∃ s, result = .ok s) ↔
      (∀ e ∈ trace, e.failure? = none) ∧ ⟨.block slot, .ok Value.null⟩ ∉ trace := by
  cases h with
  | @built s hslot hblock htiming hlookups =>
    refine ⟨fun _ => ⟨s.answered_readings, fun hm => ?_⟩, fun _ => ⟨s, rfl⟩⟩
    exact absurd (Snapshot.block_of_mem_readings hm).symm hblock
  | empty =>
    refine ⟨fun ⟨s, hs⟩ => by simp at hs, fun ⟨_, hm⟩ => ?_⟩
    exact absurd (List.mem_singleton.2 rfl) hm
  | failed hslot hblock hreadings hquery =>
    refine ⟨fun ⟨s, hs⟩ => by simp at hs, fun ⟨hall, _⟩ => ?_⟩
    have hlast := hall _ (List.mem_append_right _ (List.mem_singleton.2 rfl))
    simp [Event.failure?] at hlast
  | nodesFailed hslot hblock hreadings =>
    refine ⟨fun ⟨s, hs⟩ => by simp at hs, fun ⟨hall, _⟩ => ?_⟩
    have hnodes := hall _
      (List.mem_append_left _ (List.mem_append_right _ (List.mem_singleton.2 rfl)))
    simp [Event.failure?] at hnodes

/-- A snapshot that is not built has no block, or the fault has the first failure as its cause. -/
theorem error_cases {fault : Fault} (h : Construction slot timing trace (.error fault)) :
    (trace = [⟨.block slot, .ok Value.null⟩] ∧ fault = (Fault.emptySlot slot).raised) ∨
      ∃ q cause block, firstFailure? trace = some (q, cause) ∧
        fault = (q.fault block slot cause).raised ∧
        ∀ b : Value, ⟨.block slot, .ok b⟩ ∈ trace ↔
          b = block ∧ ∃ what, q.reading? = some what := by
  cases h with
  | empty => exact .inl ⟨rfl, rfl⟩
  | @failed s before after q a cause hslot _ hreadings hquery =>
    subst hslot
    -- all readings before the last one were answered, and the block is among them
    obtain ⟨hanswered, hblock⟩ := Snapshot.before_readings hreadings
    refine .inr ⟨q, cause, s.block, ?_, rfl, fun b => ?_⟩
    · rw [firstFailure?_append_of_answered hanswered, firstFailure?_failed]
    · rw [← hblock b, List.mem_append, or_iff_left]
      intro hb
      have hfailure := congrArg Event.failure? (List.mem_singleton.1 hb)
      simp [Event.failure?] at hfailure
  | @nodesFailed s before after cause answer hslot _ hreadings =>
    subst hslot
    obtain ⟨hanswered, hblock⟩ := Snapshot.before_readings hreadings
    refine .inr ⟨.nodes s.block, cause, s.block, ?_, rfl, fun b => ?_⟩
    · rw [List.append_assoc, firstFailure?_append_of_answered hanswered, List.singleton_append,
        firstFailure?_failed]
    · rw [← hblock b, List.append_assoc, List.mem_append, or_iff_left]
      intro hb
      have hquery := List.mem_map_of_mem (f := Event.query) hb
      simp at hquery

/-- The fault of a snapshot that is not built is a failure of the snapshot, and names its slot and
the block once it is known, just if these can be written. -/
theorem error_names {fault : Fault} (h : Construction slot timing trace (.error fault)) :
    (Legible slot trace → fault.isSnapshotFailure ∧ fault.Names (.int slot) ∧
      ∀ b ≠ Value.null, ⟨.block slot, .ok b⟩ ∈ trace → fault.Names b) ∧
    (¬ Legible slot trace → fault = .numberTooLong) := by
  rcases h.error_cases with ⟨rfl, rfl⟩ | ⟨q, cause, block, hfirst, rfl, hblock⟩
  · have hempty : ∀ b : Value,
        ⟨.block slot, .ok b⟩ ∈ [(⟨.block slot, .ok Value.null⟩ : Event)] → b = .null := by
      intro b hb
      cases List.mem_singleton.1 hb
      rfl
    have hlegible : Legible slot [⟨.block slot, .ok Value.null⟩] ↔
        ∀ v ∈ (Fault.emptySlot slot).named, v.isWritable = true := by
      rw [Legible, Fault.named, List.forall_mem_singleton, Value.isWritable_int, and_iff_left]
      rintro b hb
      rw [hempty b hb, Value.isWritable_null]
    rw [hlegible]
    refine ⟨fun hwritable => ?_, fun hlong => ?_⟩
    · rw [Fault.raised_of_writable hwritable]
      exact ⟨rfl, emptySlot_names slot, fun b hb hmem => absurd (hempty b hmem) hb⟩
    · exact (Fault.raised_cases _).elim (fun h => absurd h.1 hlong) And.right
  · have hlegible : Legible slot trace ↔
        ∀ v ∈ (q.fault block slot cause).named, v.isWritable = true := by
      rw [Query.fault_isWritable_iff, Legible]
      simp only [hblock, and_imp, forall_eq]
    rw [hlegible]
    refine ⟨fun hwritable => ?_, fun hlong => ?_⟩
    · rw [Fault.raised_of_writable hwritable]
      refine ⟨q.fault_isSnapshotFailure block slot cause, q.fault_names_slot block slot cause, ?_⟩
      intro b _ hb
      obtain ⟨rfl, what, hq⟩ := (hblock b).1 hb
      exact Query.fault_names_block b slot cause hq
    · exact (Fault.raised_cases _).elim (fun h => absurd h.1 hlong) And.right

end Construction

/-! ### Every snapshot is constructed so -/

namespace Sources

variable {σ : Type}

/-- Nodes and minipools are always indexed. -/
theorem index_bind {β : Type} (nodes : List Node) (minipools : List Minipool)
    (next : Lookups → EStateM Fault σ β) :
    ((liftM (Indexing.index nodes minipools) : EStateM Fault σ Lookups) >>= next) =
      next (Lookups.ofRows nodes minipools) := rfl

/-- Recorded or not, the readings construct a snapshot. Where one of them fails, those before it are
the first readings of a snapshot whose other parts do not matter. -/
theorem leads_snapshot (src : Sources σ String Node Minipool) (slot : Int) (timing : ChainTiming) :
    Leads [] (src.recorded.snapshot slot timing) (src.snapshot slot timing)
      (Construction slot timing) := by
  simp only [snapshot, toldSnapshot, parameters, bind_assoc, pure_bind]
  apply Leads.pinnedBlock
  · intro cause
    let unread : Snapshot := .assembled slot timing 0 ⟨0, 0, 0, 0, 0, ⟨0, 0, 0⟩, 0⟩ [] [] []
    have hfirst : unread.readings = [] ++ ⟨.block slot, .ok (0 : Value)⟩ :: unread.readings.tail :=
      rfl
    exact .failed rfl (by rintro ⟨⟩) hfirst (by simp)
  · exact .empty
  intro block hblock
  -- a failure ends the readings of a snapshot whose later parts are made up
  let upTo (p : Parameters) : Snapshot := .assembled slot timing block p [] [] []
  refine Leads.reading (fun cause => ?_) fun price => ?_
  · exact .failed (s := upTo ⟨0, 0, 0, 0, 0, ⟨0, 0, 0⟩, 0⟩) rfl hblock rfl (by simp)
  refine Leads.reading (fun cause => ?_) fun low => ?_
  · exact .failed (s := upTo ⟨price, 0, 0, 0, 0, ⟨0, 0, 0⟩, 0⟩) rfl hblock rfl (by simp)
  refine Leads.reading (fun cause => ?_) fun high => ?_
  · exact .failed (s := upTo ⟨price, low, 0, 0, 0, ⟨0, 0, 0⟩, 0⟩) rfl hblock rfl (by simp)
  refine Leads.reading (fun cause => ?_) fun index => ?_
  · exact .failed (s := upTo ⟨price, low, high, 0, 0, ⟨0, 0, 0⟩, 0⟩) rfl hblock rfl (by simp)
  refine Leads.reading (fun cause => ?_) fun interval => ?_
  · exact .failed (s := upTo ⟨price, low, high, index, 0, ⟨0, 0, 0⟩, 0⟩) rfl hblock rfl (by simp)
  refine Leads.reading (fun cause => ?_) fun shares => ?_
  · exact .failed (s := upTo ⟨price, low, high, index, interval, ⟨0, 0, 0⟩, 0⟩) rfl hblock rfl (by simp)
  refine Leads.reading (fun cause => ?_) fun pending => ?_
  · exact .failed (s := upTo ⟨price, low, high, index, interval, shares, 0⟩) rfl hblock rfl (by simp)
  apply Leads.tell
  let p : Parameters := ⟨price, low, high, index, interval, shares, pending⟩
  refine Leads.lists (fun cause answer => ?_) (fun nodes cause => ?_) fun nodes minipools => ?_
  · exact .nodesFailed (s := .assembled slot timing block p [] [] []) rfl hblock rfl
  · exact .failed (s := .assembled slot timing block p nodes [] []) rfl hblock rfl (by simp)
  rw [index_bind, index_bind, pubkeys_ofRows]
  apply Leads.tell
  refine Leads.reading (fun cause => ?_) fun validators => ?_
  · exact .failed (s := .assembled slot timing block p nodes minipools []) rfl hblock rfl (by simp)
  apply Leads.tell
  let complete : Snapshot := .assembled slot timing block p nodes minipools validators
  exact Leads.pure (.built (s := complete) rfl hblock rfl rfl)

/-- Whatever the readings answer, those that are made, and what becomes of the snapshot, are related
by `Construction`. In particular a snapshot is built exactly if its slot has a block and no reading
fails; otherwise the fault is that of an empty slot, before anything else is read, or it is caused by
the first reading that failed. -/
theorem snapshot_construction (src : Sources σ String Node Minipool) (slot : Int) (timing : ChainTiming) (start : σ) :
    ∃ trace result final, src.snapshot slot timing start = ended result final ∧
      src.recorded.snapshot slot timing (start, []) = ended result (final, trace) ∧
      Construction slot timing trace result ∧
      ((∃ s, result = .ok s) ↔
        (∀ e ∈ trace, e.failure? = none) ∧ ⟨.block slot, .ok Value.null⟩ ∉ trace) ∧
      ∀ fault, result = .error fault →
        ((trace = [⟨.block slot, .ok Value.null⟩] ∧ fault = (Fault.emptySlot slot).raised) ∨
          ∃ q cause block, firstFailure? trace = some (q, cause) ∧
            fault = (q.fault block slot cause).raised) ∧
        (Legible slot trace → fault.isSnapshotFailure ∧ fault.Names (.int slot) ∧
          ∀ b ≠ Value.null, ⟨.block slot, .ok b⟩ ∈ trace → fault.Names b) ∧
        (¬ Legible slot trace → fault = .numberTooLong) := by
  obtain ⟨trace, result, final, hplain, hrecd, h⟩ := leads_snapshot src slot timing start
  refine ⟨trace, result, final, hplain, hrecd, h, h.exists_ok_iff, ?_⟩
  rintro fault rfl
  refine ⟨?_, h.error_names⟩
  rcases h.error_cases with hempty | ⟨q, cause, block, hfirst, hfault, -⟩
  · exact .inl hempty
  · exact .inr ⟨q, cause, block, hfirst, hfault⟩

/-- Readings that find no block in any slot. -/
def emptySlots : Sources Unit String Node Minipool where
  block _ := return .null
  price _ := return 0
  minimumFraction _ := return 0
  maximumFraction _ := return 0
  rewardIndex _ := return 0
  interval _ _ := return 0
  shares _ _ := return ⟨0, 0, 0⟩
  pendingRewards _ _ := return 0
  nodes _ := return []
  minipools _ := return []
  validators _ _ := return []
  told _ _ := ()

/-- An empty slot of 4301 digits is not reported as one. -/
theorem snapshot_illegible :
    emptySlots.block (Int.pow 10 Number.maxDigits) () = .ok .null () ∧
      emptySlots.snapshot (Int.pow 10 Number.maxDigits) ⟨0, 12, 32⟩ () = .error .numberTooLong () ∧
      Fault.numberTooLong.isSnapshotFailure = false := by
  have hlong : (Fault.emptySlot (Int.pow 10 Number.maxDigits)).raised = .numberTooLong := by
    refine if_neg ?_
    rw [Fault.named, List.all_cons, Value.isWritable_int, Number.isWritable_pow le_rfl]
    exact Bool.false_ne_true
  have hpinned : emptySlots.pinnedBlock (Int.pow 10 Number.maxDigits) () =
      .error (Fault.emptySlot (Int.pow 10 Number.maxDigits)).raised () := rfl
  rw [hlong] at hpinned
  exact ⟨rfl, Reads.bind_of_error hpinned, rfl⟩

end Sources

end StakeSnapshot
