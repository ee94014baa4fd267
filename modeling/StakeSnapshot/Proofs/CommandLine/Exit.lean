import StakeSnapshot.CommandLine.Run
import StakeSnapshot.Proofs.Report.Printable
import StakeSnapshot.Proofs.Lookups.Rows
import StakeSnapshot.Proofs.Snapshot.Typed
import StakeSnapshot.Proofs.Stake.Failure

/-!
# How a run of the command line ends

A run goes through three stages: it reads where to start, it calculates the stakes of a snapshot, and
it reports them. `run_ends` tells the exit code from the stage in which something fails. A fault
escapes before the first stage if the storage is no address, from the first stage if an answer cannot
be understood, from the second one if a number is too long to be written or a row cannot be looked up
by its keys, and from the last one if the snapshot cannot be printed: so the exit code that the failure
should have is not given (`run_escapes_withoutData`). What the environment says about rows that are no
nodes and minipools matters only with an undeclared answer of the chain or with foreign rows in the
store (`not_untyped`).
-/

namespace StakeSnapshot

open Reads

/-! ### Kinds of faults -/

theorem Fault.isConfiguration_of_isSnapshotFailure {fault : Fault}
    (h : fault.isSnapshotFailure = true) : fault.isConfiguration = false := by
  cases fault <;> first | rfl | cases h

theorem Fault.isStakeFailure_of_isConfiguration {fault : Fault}
    (h : fault.isConfiguration = true) : fault.isStakeFailure = false := by
  cases fault <;> first | rfl | cases h

theorem Fault.isConfiguration_of_isStakeFailure {fault : Fault}
    (h : fault.isStakeFailure = true) : fault.isConfiguration = false := by
  cases fault <;> first | rfl | cases h

/-- A number is too long to be written, in a message or in a line. -/
def Fault.IsTooLong (fault : Fault) : Prop :=
  fault = .numberTooLong ∨ ∃ cause, fault = .template cause

theorem Fault.IsTooLong.kinds {fault : Fault} (h : fault.IsTooLong) :
    fault.isConfiguration = false ∧ fault.isSnapshotFailure = false ∧
      fault.isStakeFailure = false := by
  rcases h with rfl | ⟨cause, rfl⟩ <;> exact ⟨rfl, rfl, rfl⟩

/-- A value cannot be a key. -/
def Fault.IsUnkeyed (fault : Fault) : Prop := ∃ type, fault = .shape (.notKey type)

theorem Fault.IsUnkeyed.kinds {fault : Fault} (h : fault.IsUnkeyed) :
    fault.isConfiguration = false ∧ fault.isSnapshotFailure = false ∧
      fault.isStakeFailure = false := by
  obtain ⟨type, rfl⟩ := h
  exact ⟨rfl, rfl, rfl⟩

theorem Fault.raised_eq_or (fault : Fault) : fault.raised = fault ∨ fault.raised.IsTooLong :=
  fault.raised_cases.imp And.right fun h => .inl h.2

theorem Logger.isTooLong_of_writing {elapsed : Number.Binary64} {line : LogLine} {fault : Fault}
    (h : writing elapsed line = .error fault) : fault.IsTooLong := by
  unfold writing LogLine.text Template.fill at h
  split at h
  · cases h
  · split at h
    · cases h
    · cases h
      exact .inr ⟨_, rfl⟩

/-! ### What the building and the calculation may fail with -/

/-- The fault that work ends with, if it fails, is of some kind. -/
def Reads.Throws {σ α : Type} (P : Fault → Prop) (work : EStateM Fault σ α) : Prop :=
  ∀ s fault t, work s = .error fault t → P fault

namespace Reads.Throws
variable {σ α β : Type} {P : Fault → Prop}

theorem bind {work : EStateM Fault σ α} {next : α → EStateM Fault σ β} (h : Throws P work)
    (hnext : ∀ a, Throws P (next a)) : Throws P (work >>= next) := by
  intro s fault t hwork
  rcases error_of_bind hwork with hwork | ⟨a, u, -, hnext'⟩
  · exact h s fault t hwork
  · exact hnext a u fault t hnext'

theorem pure (a : α) : Throws P (pure a : EStateM Fault σ α) := fun _ _ _ h => by cases h

theorem lift {x : Except Fault α} (h : ∀ fault, x = .error fault → P fault) :
    Throws P (liftM x : EStateM Fault σ α) := by
  intro s fault t hx
  cases x with
  | ok a => cases hx
  | error other =>
    cases hx
    exact h _ rfl

theorem raise {fault : Fault} (h : P fault) : Throws P (throw fault : EStateM Fault σ α) := by
  intro s other t hthrow
  cases hthrow
  exact h

theorem attempt (work : EStateM Fault σ α) : Throws P (Sources.attempt work) := by
  intro s fault t h
  unfold Sources.attempt at h
  split at h <;> cases h

/-- What was attempted fails later as it would have at once. -/
theorem attempt_bind {work : EStateM Fault σ α} {next : Except Fault α → EStateM Fault σ β}
    (h : Throws P work) (hok : ∀ a, Throws P (next (.ok a)))
    (herror : ∀ fault, P fault → Throws P (next (.error fault))) :
    Throws P (Sources.attempt work >>= next) := by
  intro s fault t hwork
  cases hs : work s with
  | ok a u => exact hok a u fault t ((bind_of_ok (Sources.attempt_of_ok hs)).symm.trans hwork)
  | error other u =>
    have hattempt : Sources.attempt work s = .ok (.error other) u := by rw [Sources.attempt, hs]
    exact herror other (h s other u hs) u fault t ((bind_of_ok hattempt).symm.trans hwork)

end Reads.Throws

/-! ### Rows without keys -/

theorem Value.isUnkeyed_of_keyForm {v : Value} {fault : Fault} (h : v.keyForm = .error fault) :
    fault.IsUnkeyed := by
  cases v with
  | bytes form octets =>
    cases form with
    | buffer => cases h; exact ⟨_, rfl⟩
    | view | constant => cases h
  | list | record | raggedRecord => cases h; exact ⟨_, rfl⟩
  | null | bool | int | float | text | ragged => cases h

theorem RowLookups.isUnkeyed_of_keyed {row : MinipoolRow} {fault : Fault}
    (h : keyed row = .error fault) : fault.IsUnkeyed := by
  rcases Except.error_of_bind h with h | ⟨address, -, h⟩
  · exact Value.isUnkeyed_of_keyForm h
  · rcases Except.error_of_bind h with h | ⟨owner, -, h⟩
    · exact Value.isUnkeyed_of_keyForm h
    · rcases Except.error_of_bind h with h | ⟨pubkey, -, h⟩
      · exact Value.isUnkeyed_of_keyForm h
      · cases h

/-- Rows are indexed unless one of them has a value for a key that is none. -/
theorem RowLookups.isUnkeyed_of_ofRows {nodes : List NodeRow} {minipools : List MinipoolRow}
    {fault : Fault} (h : ofRows nodes minipools = .error fault) : fault.IsUnkeyed := by
  rcases Except.error_of_bind h with h | ⟨_, -, h⟩
  · obtain ⟨row, -, hrow⟩ := exists_of_mapM_error h
    rcases Except.error_of_bind hrow with hrow | ⟨address, -, hrow⟩
    · exact Value.isUnkeyed_of_keyForm hrow
    · cases hrow
  · rcases Except.error_of_bind h with h | ⟨_, -, h⟩
    · obtain ⟨row, -, hrow⟩ := exists_of_mapM_error h
      exact isUnkeyed_of_keyed hrow
    · cases h

namespace Sources
variable {α : Type} {σ : Type} {src : Sources σ Value NodeRow MinipoolRow} {log : Logger}
  {slot : Int} {block : Value}

/-- The building fails with a failure of the snapshot, unless a number is too long to say so, or a row
has a value for a key that is none. -/
def Unbuildable (fault : Fault) : Prop :=
  fault.isSnapshotFailure = true ∨ fault.IsTooLong ∨ fault.IsUnkeyed

theorem unbuildable_raised {fault : Fault} (h : fault.isSnapshotFailure = true) :
    Unbuildable fault.raised :=
  fault.raised_eq_or.imp (fun hraised => by rwa [hraised]) .inl

theorem throws_reading (what : Reading) (block : Value) (slot : Int) (work : EStateM Fault σ α) :
    Throws Unbuildable (reading what block slot work) := by
  intro s fault t h
  unfold reading at h
  split at h <;> cases h
  exact unbuildable_raised rfl

theorem throws_pinnedBlock : Throws Unbuildable (src.pinnedBlock slot) := by
  refine .bind (.attempt _) fun answer => ?_
  cases answer with
  | error _ => exact .raise (unbuildable_raised rfl)
  | ok block =>
    cases block with
    | null => exact .raise (unbuildable_raised rfl)
    | _ => exact .pure _

theorem throws_parameters : Throws Unbuildable (src.parameters block slot) := by
  refine .bind (throws_reading _ _ _ _) fun _ => .bind (throws_reading _ _ _ _) fun _ => ?_
  refine .bind (throws_reading _ _ _ _) fun _ => .bind (throws_reading _ _ _ _) fun _ => ?_
  refine .bind (throws_reading _ _ _ _) fun _ => .bind (throws_reading _ _ _ _) fun _ => ?_
  exact .bind (throws_reading _ _ _ _) fun _ => .pure _

section
variable (hlog : ∀ line fault, log line = .error fault → fault.IsTooLong)
include hlog

theorem throws_tell (line : LogLine) : Throws Unbuildable (src.tell log line) := by
  intro s fault t h
  unfold tell at h
  split at h
  · cases h
  · next other hline =>
    cases h
    exact .inr (.inl (hlog line _ hline))

theorem throws_lists : Throws Unbuildable (src.lists log block slot) := by
  have hlists : ∀ (nodes? : Except Fault (List NodeRow))
      (minipools? : Except Fault (List MinipoolRow)),
      (∀ fault, nodes? = .error fault → Unbuildable fault) →
      (∀ fault, minipools? = .error fault → Unbuildable fault) →
      Throws Unbuildable (do
        let nodes ← nodes?
        src.tell log .nodesRead
        let minipools ← minipools?
        src.tell log .minipoolsRead
        return (nodes, minipools) : EStateM Fault σ (List NodeRow × List MinipoolRow)) :=
    fun _ _ hnodes hminipools => .bind (.lift hnodes) fun _ => .bind (throws_tell hlog _) fun _ =>
      .bind (.lift hminipools) fun _ => .bind (throws_tell hlog _) fun _ => .pure _
  have hok : ∀ {α : Type} (a : α) (fault : Fault), (.ok a : Except Fault α) = .error fault →
      Unbuildable fault := fun _ _ h => by cases h
  have herror : ∀ {α : Type} {fault : Fault}, Unbuildable fault → ∀ other,
      (.error fault : Except Fault α) = .error other → Unbuildable other :=
    fun hfault _ h => by cases h; exact hfault
  refine .attempt_bind (throws_reading _ _ _ _) (fun nodes => ?_) fun fault hfault => ?_
  · exact .attempt_bind (throws_reading _ _ _ _)
      (fun minipools => hlists (.ok nodes) (.ok minipools) (hok _) (hok _))
      fun fault hfault => hlists (.ok nodes) (.error fault) (hok _) (herror hfault)
  · exact .attempt_bind (throws_reading _ _ _ _)
      (fun minipools => hlists (.error fault) (.ok minipools) (herror hfault) (hok _))
      fun other hother => hlists (.error fault) (.error other) (herror hfault) (herror hother)

theorem throws_toldSnapshot (timing : ChainTiming) :
    Throws Unbuildable (src.toldSnapshot log slot timing) := by
  refine .bind throws_pinnedBlock fun block => .bind throws_parameters fun parameters => ?_
  refine .bind (throws_tell hlog _) fun _ => .bind (throws_lists hlog) fun lists => ?_
  refine .bind (.lift fun fault h => .inr (.inr (RowLookups.isUnkeyed_of_ofRows h))) fun _ => ?_
  refine .bind (throws_tell hlog _) fun _ => .bind (throws_reading _ _ _ _) fun validators => ?_
  exact .bind (throws_tell hlog _) fun _ => .pure _

end

end Sources

theorem Snapshot.kind_of_checkConfiguration {s : Snapshot} {scale : Bool} {threads : Int}
    {fault : Fault} (h : s.checkConfiguration scale threads = .error fault) :
    fault.isConfiguration = true ∨ fault.IsTooLong := by
  have hraised : ∀ g : Fault, g.isConfiguration = true →
      g.raised.isConfiguration = true ∨ g.raised.IsTooLong :=
    fun g hg => g.raised_eq_or.imp (fun hraised => by rwa [hraised]) id
  unfold checkConfiguration at h
  split at h
  · cases h
    exact hraised _ rfl
  · split at h
    · cases h
      exact hraised _ rfl
    · split at h
      · cases h
        exact hraised _ rfl
      · cases h

/-- The calculation fails with a fault of the configuration, unless a number is too long to say so, or
with the failure of a node. -/
theorem Snapshot.kind_of_toldStakes {s : Snapshot} {log : Logger} {scale : Bool} {threads : Int}
    {fault : Fault} (hi : s.Indexed) (h : s.toldStakes log scale threads = .error fault) :
    fault.isConfiguration = true ∨ fault.isStakeFailure = true ∨ fault.IsTooLong := by
  by_cases hc : s.Misconfigured scale threads
  · cases hcheck : s.checkConfiguration scale threads with
    | ok _ => exact absurd hc (checkConfiguration_eq_ok_iff.1 hcheck)
    | error other =>
      rw [(ends_of_misconfigured hcheck).1] at h
      cases h
      exact (kind_of_checkConfiguration hcheck).imp id .inr
  · exact .inr (.inl ((failures_of_configured log hi hc).2 fault h))

namespace CommandLine

/-- The endpoint of a run. -/
def Options.endpoint (o : Options) (beaconUrl : String) : BeaconEndpoint :=
  ⟨BeaconEndpoint.withoutSlashes beaconUrl, defaultTimeout, defaultBatchSize.toNat, !o.noCache,
    by decide⟩

/-- The chain reader of a run, with the address of the storage contract. -/
def Options.reader (o : Options) (storage : String) : ChainReader := ⟨storage, !o.noCache⟩

variable (env : Environment) (out : Outside) (o : Options) (beaconUrl : String)
  (elapsed : Number.Binary64) (s : Session)

/-- The storage contract has an address, but where to start cannot be read. -/
def Unread (fault : Fault) : Prop :=
  ∃ storage t, env.checksum o.storage = .ok storage ∧
    startingPoint out (o.endpoint beaconUrl) o s = .error fault t

/-- There is a start, and the building of a snapshot ends with a result. -/
def Builds (result : Except Fault RowSnapshot) (u : Session) : Prop :=
  ∃ storage timing slot t, env.checksum o.storage = .ok storage ∧
    startingPoint out (o.endpoint beaconUrl) o s = .ok (timing, slot) t ∧
    (Sources.ofReaders out (o.endpoint beaconUrl) (o.reader storage)).toldSnapshot
      (o.logger elapsed) slot timing t = Sources.ended result u

/-- There is a start, but no snapshot. -/
def Unbuilt (fault : Fault) : Prop := ∃ u, Builds env out o beaconUrl elapsed s (.error fault) u

/-- There is a snapshot of nodes and minipools. -/
def Built (snap : Snapshot) : Prop :=
  ∃ rows u, Builds env out o beaconUrl elapsed s (.ok rows) u ∧ rows.typed? = some snap

/-- There is a snapshot with rows that are no nodes and minipools, and the run ends in some way. -/
def Untyped (result : EStateM.Result Fault Session Outcome) : Prop :=
  ∃ rows u, Builds env out o beaconUrl elapsed s (.ok rows) u ∧ rows.typed? = none ∧
    env.untyped rows u = result

/-- The stakes of a snapshot, as they are asked for. -/
def Options.stakes (o : Options) (elapsed : Number.Binary64) (snap : Snapshot) : Except Fault EffectiveStakes :=
  snap.toldStakes (o.logger elapsed) (!o.noScale) o.threads

/-- The lines that report a snapshot and its stakes. -/
def Options.report (o : Options) (snap : Snapshot) (stakes : EffectiveStakes) :
    Except Fault (List String) := do
  let summary ← Report.summary snap
  let listing ← Report.listing snap stakes (listingTop o)
  return summary ++ listing

/-- The summary can be written, and so can the amounts and the shares of the listing. -/
structure Printable (snap : Snapshot) (stakes : EffectiveStakes) : Prop where
  summary : Report.Summarizable snap
  amounts : Report.AmountsInRange snap stakes (listingTop o)
  shares : ∀ row ∈ Report.shownRows (listingTop o) (Report.ranked stakes.byNode),
    ∃ text, Report.share row.2 stakes.total = .ok text

/-- The exit code of a run, or that a fault escapes, by the stage at which something fails. -/
structure Ends (result : EStateM.Result Fault Session Outcome) : Prop where
  two : (∃ messages t, result = .ok ⟨2, [], messages⟩ t) ↔
    (∃ fault, Unread env out o beaconUrl s fault ∧ fault.isReadFailure = true) ∨
      (∃ snap fault, Built env out o beaconUrl elapsed s snap ∧
        o.stakes elapsed snap = .error fault ∧ fault.isConfiguration = true) ∨
      ∃ messages t, Untyped env out o beaconUrl elapsed s (.ok ⟨2, [], messages⟩ t)
  one : (∃ messages t, result = .ok ⟨1, [], messages⟩ t) ↔
    (∃ fault, Unbuilt env out o beaconUrl elapsed s fault ∧ fault.isSnapshotFailure = true) ∨
      (∃ snap fault, Built env out o beaconUrl elapsed s snap ∧
        o.stakes elapsed snap = .error fault ∧ fault.isStakeFailure = true) ∨
      ∃ messages t, Untyped env out o beaconUrl elapsed s (.ok ⟨1, [], messages⟩ t)
  zero : ∀ lines, (∃ messages t, result = .ok ⟨0, lines, messages⟩ t) ↔
    (∃ snap stakes, Built env out o beaconUrl elapsed s snap ∧
        o.stakes elapsed snap = .ok stakes ∧ o.report snap stakes = .ok lines) ∨
      ∃ messages t, Untyped env out o beaconUrl elapsed s (.ok ⟨0, lines, messages⟩ t)
  escapes : (∃ fault t, result = .error fault t) ↔
    (∃ fault, env.checksum o.storage = .error fault) ∨
      (∃ fault, Unread env out o beaconUrl s fault ∧ fault.isReadFailure = false) ∨
      (∃ fault, Unbuilt env out o beaconUrl elapsed s fault ∧
        (fault.IsTooLong ∨ fault.IsUnkeyed)) ∨
      (∃ snap fault, Built env out o beaconUrl elapsed s snap ∧
        o.stakes elapsed snap = .error fault ∧ fault.IsTooLong) ∨
      (∃ snap stakes, Built env out o beaconUrl elapsed s snap ∧
        o.stakes elapsed snap = .ok stakes ∧ ¬ Printable o snap stakes) ∨
      ∃ fault t, Untyped env out o beaconUrl elapsed s (.error fault t)

variable {env out o beaconUrl s} {rows : RowSnapshot} {snap : Snapshot} {stakes : EffectiveStakes} {fault : Fault}
  {timing : ChainTiming} {slot : Int} {t u : Session} {elapsed : Number.Binary64}

/-- A snapshot whose stakes were calculated can be reported exactly if it is printable. -/
theorem exists_report_iff (hi : snap.Indexed) (h : o.stakes elapsed snap = .ok stakes) :
    (∃ lines, o.report snap stakes = .ok lines) ↔ Printable o snap stakes := by
  have hparts : (∃ lines, o.report snap stakes = .ok lines) ↔
      (∃ lines, Report.summary snap = .ok lines) ∧
        ∃ lines, Report.listing snap stakes (listingTop o) = .ok lines := by
    rw [Options.report]
    exact Except.exists_ok_both_iff
  rw [hparts, Report.exists_summary_iff, Report.exists_listing_iff hi (Snapshot.effectiveStakes_of_toldStakes h)]
  exact ⟨fun ⟨summary, amounts, shares⟩ => ⟨summary, amounts, shares⟩,
    fun ⟨summary, amounts, shares⟩ => ⟨summary, amounts, shares⟩⟩

/-! ### The parts of a run -/

theorem exists_told (o : Options) (elapsed : Number.Binary64) (s : Session) :
    ∃ lines, told o elapsed s = .ok lines s := by
  unfold told
  cases o.quiet with
  | true => exact ⟨_, rfl⟩
  | false => exact ⟨_, rfl⟩

theorem exists_endWith (o : Options) (elapsed : Number.Binary64) (exit : Nat) (message : String)
    (s : Session) : ∃ messages, endWith o elapsed exit message s = .ok ⟨exit, [], messages⟩ s := by
  obtain ⟨lines, hlines⟩ := exists_told o elapsed s
  exact ⟨lines ++ [message], (bind_of_ok hlines).trans rfl⟩

theorem exists_forM_tell (lines : List LogLine) (s : Session) :
    ∃ t, lines.forM Reads.tell s = .ok () t := by
  induction lines generalizing s with
  | nil => exact ⟨s, rfl⟩
  | cons line lines ih =>
    obtain ⟨t, ht⟩ := ih (s.told line)
    exact ⟨t, ht⟩

theorem indexed_of_typed (h : rows.typed? = some snap) : snap.Indexed := by
  obtain ⟨nodes, -, h⟩ := Option.bind_eq_some_iff.1 h
  obtain ⟨minipools, -, h⟩ := Option.bind_eq_some_iff.1 h
  cases h
  rfl

section
variable {e : BeaconEndpoint} {r : ChainReader}

theorem calculate_of_unbuilt
    (h : (Sources.ofReaders out e r).toldSnapshot (o.logger elapsed) slot timing s = .error fault t) :
    calculate out e r o elapsed slot timing s = .error fault t :=
  bind_of_error h

section
variable (h : (Sources.ofReaders out e r).toldSnapshot (o.logger elapsed) slot timing s = .ok rows t)
include h

theorem calculate_of_untyped (htyped : rows.typed? = none) :
    calculate out e r o elapsed slot timing s = .ok (.inl rows) t := by
  refine (bind_of_ok h).trans ?_
  rw [htyped]
  rfl

theorem calculate_of_stakes_error (htyped : rows.typed? = some snap)
    (hstakes : o.stakes elapsed snap = .error fault) :
    calculate out e r o elapsed slot timing s = .error fault t := by
  refine (bind_of_ok h).trans ?_
  rw [htyped]
  refine bind_of_error ?_
  rw [show snap.toldStakes (o.logger elapsed) (!o.noScale) o.threads = .error fault from hstakes]
  rfl

theorem exists_calculate_of_stakes (htyped : rows.typed? = some snap)
    (hstakes : o.stakes elapsed snap = .ok stakes) :
    ∃ u, calculate out e r o elapsed slot timing s = .ok (.inr (snap, stakes)) u := by
  obtain ⟨u, hu⟩ := exists_forM_tell snap.stakeNotes t
  refine ⟨u, (bind_of_ok h).trans ?_⟩
  rw [htyped]
  refine (bind_of_ok ?_).trans ((bind_of_ok hu).trans rfl)
  rw [show snap.toldStakes (o.logger elapsed) (!o.noScale) o.threads = .ok stakes from hstakes]
  rfl

end

variable {untyped : RowSnapshot → Reads Outcome}

theorem runWith_of_unread (hstart : startingPoint out e o s = .error fault t) :
    runWith out untyped o e r beaconUrl elapsed s =
      if fault.isReadFailure then
        endWith o elapsed 2
          ("Error: failed to query Beacon node at " ++ beaconUrl ++ ": " ++ fault.message) t
      else .error fault t := by
  have hattempt : Sources.attempt (startingPoint out e o) s = .ok (.error fault) t := by
    rw [Sources.attempt, hstart]
  refine (bind_of_ok hattempt).trans ?_
  dsimp only
  split <;> rfl

theorem runWith_of_uncalculated (hstart : startingPoint out e o s = .ok (timing, slot) t)
    (h : calculate out e r o elapsed slot timing t = .error fault u) :
    runWith out untyped o e r beaconUrl elapsed s =
      if fault.isConfiguration then
        endWith o elapsed 2 ("Error: invalid configuration: " ++ fault.message) u
      else if fault.isSnapshotFailure || fault.isStakeFailure then
        endWith o elapsed 1 ("Error: " ++ fault.message) u
      else .error fault u := by
  have hattempt : Sources.attempt (calculate out e r o elapsed slot timing) t = .ok (.error fault) u := by
    rw [Sources.attempt, h]
  refine (bind_of_ok (Sources.attempt_of_ok hstart)).trans ((bind_of_ok hattempt).trans ?_)
  dsimp only
  split
  · rfl
  · split <;> rfl

theorem runWith_of_untyped (hstart : startingPoint out e o s = .ok (timing, slot) t)
    (h : calculate out e r o elapsed slot timing t = .ok (.inl rows) u) :
    runWith out untyped o e r beaconUrl elapsed s = untyped rows u :=
  (bind_of_ok (Sources.attempt_of_ok hstart)).trans
    ((bind_of_ok (Sources.attempt_of_ok h)).trans rfl)

theorem runWith_of_calculated (r : ChainReader) (beaconUrl : String) (elapsed : Number.Binary64)
    (hstart : startingPoint out e o s = .ok (timing, slot) t)
    (h : calculate out e r o elapsed slot timing t = .ok (.inr (snap, stakes)) u) :
    ∃ messages, runWith out untyped o e r beaconUrl elapsed s =
      match o.report snap stakes with
      | .ok lines => .ok ⟨0, lines, messages⟩ u
      | .error fault => .error fault u := by
  obtain ⟨messages, hmessages⟩ := exists_told o elapsed u
  refine ⟨messages, (bind_of_ok (Sources.attempt_of_ok hstart)).trans
    ((bind_of_ok (Sources.attempt_of_ok h)).trans ?_)⟩
  dsimp only [Options.report]
  cases Report.summary snap with
  | error fault => rfl
  | ok summary =>
    cases Report.listing snap stakes (listingTop o) with
    | error fault => rfl
    | ok listing => exact (bind_of_ok hmessages).trans rfl

/-! ### Rows of other types -/

theorem moves_startingPoint (out : Outside) (e : BeaconEndpoint) (o : Options) :
    Moves Session.SameStore (startingPoint out e o) := by
  have hstore := Session.admits_sameStore fun _ => True
  refine (e.moves_timing out hstore fun _ => trivial).bind fun timing => ?_
  cases o.slot with
  | some slot => exact .pure (timing, slot)
  | none =>
    exact (e.moves_finalizedSlot out hstore fun _ => trivial).bind fun slot => .pure (timing, slot)

/-- The rows of a snapshot are nodes and minipools if the chain answers as it declares, and the store,
if it is used, has no rows of other types. -/
theorem not_untyped (hout : out.Declared) (hs : o.noCache = true ∨ s.store.RowsTyped)
    (result : EStateM.Result Fault Session Outcome) :
    ¬ Untyped env out o beaconUrl elapsed s result := by
  rintro ⟨rows, u, ⟨storage, timing, slot, t, -, hstart, hsnapshot⟩, htyped, -⟩
  have hstore : t.store = s.store :=
    (moves_startingPoint out (o.endpoint beaconUrl) o).of_ok hstart
  have ht : (o.reader storage).useStore = true → t.store.RowsTyped := by
    intro huse
    rw [hstore]
    exact hs.resolve_left fun hno => by simp [Options.reader, hno] at huse
  obtain ⟨snap, hsnap⟩ := Sources.exists_typed hout ht hsnapshot
  cases hsnap.symm.trans htyped

/-! ### One end for each stage -/

variable (beaconUrl elapsed r)

theorem exists_run_refused (hstart : startingPoint out e o s = .error fault t)
    (hread : fault.isReadFailure = true) :
    ∃ messages, runWith out untyped o e r beaconUrl elapsed s = .ok ⟨2, [], messages⟩ t := by
  rw [runWith_of_unread hstart, if_pos hread]
  exact exists_endWith o elapsed 2 _ t

theorem run_misread (hstart : startingPoint out e o s = .error fault t)
    (hread : fault.isReadFailure = false) :
    runWith out untyped o e r beaconUrl elapsed s = .error fault t := by
  rw [runWith_of_unread hstart, hread, if_neg Bool.false_ne_true]

section
variable (hstart : startingPoint out e o s = .ok (timing, slot) t)
  (h : calculate out e r o elapsed slot timing t = .error fault u)
include hstart h

theorem exists_run_misconfigured (hconf : fault.isConfiguration = true) :
    ∃ messages, runWith out untyped o e r beaconUrl elapsed s = .ok ⟨2, [], messages⟩ u := by
  rw [runWith_of_uncalculated hstart h, if_pos hconf]
  exact exists_endWith o elapsed 2 _ u

theorem exists_run_failed (hkind : fault.isSnapshotFailure = true ∨ fault.isStakeFailure = true) :
    ∃ messages, runWith out untyped o e r beaconUrl elapsed s = .ok ⟨1, [], messages⟩ u := by
  have hconf : fault.isConfiguration = false :=
    hkind.elim Fault.isConfiguration_of_isSnapshotFailure Fault.isConfiguration_of_isStakeFailure
  rw [runWith_of_uncalculated hstart h, hconf, if_neg Bool.false_ne_true,
    if_pos (by simpa using hkind)]
  exact exists_endWith o elapsed 1 _ u

theorem run_unnamed (hkinds : fault.isConfiguration = false ∧ fault.isSnapshotFailure = false ∧
    fault.isStakeFailure = false) :
    runWith out untyped o e r beaconUrl elapsed s = .error fault u := by
  obtain ⟨hconf, hsnapshot, hstake⟩ := hkinds
  rw [runWith_of_uncalculated hstart h, hconf, hsnapshot, hstake]
  rfl

end

theorem exists_run_reported (hstart : startingPoint out e o s = .ok (timing, slot) t)
    (h : (Sources.ofReaders out e r).toldSnapshot (o.logger elapsed) slot timing t =
      .ok rows u) (htyped : rows.typed? = some snap)
    (hstakes : o.stakes elapsed snap = .ok stakes) :
    ∃ messages v, runWith out untyped o e r beaconUrl elapsed s =
      match o.report snap stakes with
      | .ok lines => .ok ⟨0, lines, messages⟩ v
      | .error fault => .error fault v := by
  obtain ⟨v, hcalculate⟩ := exists_calculate_of_stakes h htyped hstakes
  obtain ⟨messages, hrun⟩ := runWith_of_calculated r beaconUrl elapsed hstart hcalculate
  exact ⟨messages, v, hrun⟩

end

/-! ### Stages that are reached -/

theorem not_builds_of_unread (env : Environment) (elapsed : Number.Binary64)
    (hstart : startingPoint out (o.endpoint beaconUrl) o s = .error fault t)
    (result : Except Fault RowSnapshot) (u : Session) :
    ¬ Builds env out o beaconUrl elapsed s result u := by
  rintro ⟨_, timing, slot, v, -, hended, -⟩
  cases hstart.symm.trans hended

section
variable {storage : String} (hstorage : env.checksum o.storage = .ok storage)
include hstorage

theorem unread_iff {start : Except Fault (ChainTiming × Int)}
    (hstart : startingPoint out (o.endpoint beaconUrl) o s = Sources.ended start t) (fault : Fault) :
    Unread env out o beaconUrl s fault ↔ start = .error fault := by
  unfold Unread
  rw [hstart]
  constructor
  · rintro ⟨_, u, -, hended⟩
    cases start <;> cases hended
    rfl
  · rintro rfl
    exact ⟨storage, t, hstorage, rfl⟩

theorem builds_iff (hstart : startingPoint out (o.endpoint beaconUrl) o s = .ok (timing, slot) t)
    {result : Except Fault RowSnapshot}
    (h : (Sources.ofReaders out (o.endpoint beaconUrl) (o.reader storage)).toldSnapshot
      (o.logger elapsed) slot timing t = Sources.ended result u)
    (other : Except Fault RowSnapshot) (v : Session) :
    Builds env out o beaconUrl elapsed s other v ↔ other = result ∧ v = u := by
  constructor
  · rintro ⟨_, timing', slot', t', hstorage', hstart', hended⟩
    cases hstorage.symm.trans hstorage'
    cases hstart.symm.trans hstart'
    exact Sources.ended_inj (hended.symm.trans h)
  · rintro ⟨rfl, rfl⟩
    exact ⟨storage, timing, slot, t, hstorage, hstart, h⟩

end

/-! ### The end at each stage -/

theorem isTooLong_of_logger {line : LogLine} (h : o.logger elapsed line = .error fault) :
    fault.IsTooLong := by
  unfold Options.logger at h
  split at h
  · cases h
  · exact Logger.isTooLong_of_writing h

theorem ends_of_no_address (out : Outside) (beaconUrl : String) (elapsed : Number.Binary64)
    (s : Session) (hstorage : env.checksum o.storage = .error fault) :
    Ends env out o beaconUrl elapsed s (.error fault s) := by
  constructor <;> simp [Unread, Unbuilt, Built, Untyped, Builds, hstorage]

section
variable {storage : String} (hstorage : env.checksum o.storage = .ok storage)
include hstorage

theorem ends_of_unread (elapsed : Number.Binary64)
    (hstart : startingPoint out (o.endpoint beaconUrl) o s = .error fault t) :
    Ends env out o beaconUrl elapsed s
      (runWith out env.untyped o (o.endpoint beaconUrl) (o.reader storage) beaconUrl elapsed s) := by
  have hunread := unread_iff hstorage (show _ = Sources.ended (.error fault) t from hstart)
  have hbuilds := not_builds_of_unread env elapsed hstart
  cases hread : fault.isReadFailure with
  | true =>
    obtain ⟨messages, hrun⟩ :=
      exists_run_refused beaconUrl elapsed (o.reader storage) hstart hread
    rw [hrun]
    constructor <;> simp [hstorage, hunread, Unbuilt, Built, Untyped, hbuilds, hread]
  | false =>
    rw [run_misread beaconUrl elapsed (o.reader storage) hstart hread]
    constructor <;> simp [hstorage, hunread, Unbuilt, Built, Untyped, hbuilds, hread]

section
variable (hstart : startingPoint out (o.endpoint beaconUrl) o s = .ok (timing, slot) t)
include hstart

theorem ends_of_unbuilt
    (hsnapshot : (Sources.ofReaders out (o.endpoint beaconUrl) (o.reader storage)).toldSnapshot
      (o.logger elapsed) slot timing t = .error fault u) :
    Ends env out o beaconUrl elapsed s
      (runWith out env.untyped o (o.endpoint beaconUrl) (o.reader storage) beaconUrl elapsed s) := by
  have hunread := unread_iff hstorage (show _ = Sources.ended (.ok (timing, slot)) t from hstart)
  have hbuilds := builds_iff hstorage hstart
    (show _ = Sources.ended (.error fault) u from hsnapshot)
  have hcalculate := calculate_of_unbuilt hsnapshot
  cases hkind : fault.isSnapshotFailure with
  | true =>
    obtain ⟨messages, hrun⟩ :=
      exists_run_failed beaconUrl elapsed (o.reader storage) hstart hcalculate (.inl hkind)
    have hwritten : ¬ fault.IsTooLong := fun h => by simp [h.kinds] at hkind
    have hkeyed : ¬ fault.IsUnkeyed := fun h => by simp [h.kinds] at hkind
    rw [hrun]
    constructor <;>
      simp [hstorage, hunread, Unbuilt, Built, Untyped, hbuilds, hkind, hwritten, hkeyed]
  | false =>
    -- the building fails in no other way
    have hloose : fault.IsTooLong ∨ fault.IsUnkeyed :=
      (Sources.throws_toldSnapshot (fun line fault => isTooLong_of_logger) timing t fault u
        hsnapshot).resolve_left (by simp [hkind])
    rw [run_unnamed beaconUrl elapsed (o.reader storage) hstart hcalculate
      (hloose.elim Fault.IsTooLong.kinds Fault.IsUnkeyed.kinds)]
    constructor <;> simp [hstorage, hunread, Unbuilt, Built, Untyped, hbuilds, hkind, hloose]

section
variable
  (hsnapshot : (Sources.ofReaders out (o.endpoint beaconUrl) (o.reader storage)).toldSnapshot
    (o.logger elapsed) slot timing t = .ok rows u)
include hsnapshot

theorem ends_of_untyped (htyped : rows.typed? = none) :
    Ends env out o beaconUrl elapsed s
      (runWith out env.untyped o (o.endpoint beaconUrl) (o.reader storage) beaconUrl elapsed s) := by
  have hunread := unread_iff hstorage (show _ = Sources.ended (.ok (timing, slot)) t from hstart)
  have hbuilds := builds_iff hstorage hstart (show _ = Sources.ended (.ok rows) u from hsnapshot)
  rw [runWith_of_untyped hstart (calculate_of_untyped hsnapshot htyped)]
  constructor <;> simp [hstorage, hunread, Unbuilt, Built, Untyped, hbuilds, htyped]

theorem ends_of_uncalculated (htyped : rows.typed? = some snap)
    (hstakes : o.stakes elapsed snap = .error fault) :
    Ends env out o beaconUrl elapsed s
      (runWith out env.untyped o (o.endpoint beaconUrl) (o.reader storage) beaconUrl elapsed s) := by
  have hunread := unread_iff hstorage (show _ = Sources.ended (.ok (timing, slot)) t from hstart)
  have hbuilds := builds_iff hstorage hstart (show _ = Sources.ended (.ok rows) u from hsnapshot)
  have hcalculate := calculate_of_stakes_error hsnapshot htyped hstakes
  rcases Snapshot.kind_of_toldStakes (indexed_of_typed htyped) hstakes with hconf | hstake | hlong
  · obtain ⟨messages, hrun⟩ :=
      exists_run_misconfigured beaconUrl elapsed (o.reader storage) hstart hcalculate hconf
    have hwritten : ¬ fault.IsTooLong := fun h => by simp [h.kinds] at hconf
    rw [hrun]
    constructor <;> simp [hstorage, hunread, Unbuilt, Built, Untyped, hbuilds, htyped, hstakes,
      hconf, hwritten, Fault.isStakeFailure_of_isConfiguration hconf]
  · obtain ⟨messages, hrun⟩ :=
      exists_run_failed beaconUrl elapsed (o.reader storage) hstart hcalculate (.inr hstake)
    have hwritten : ¬ fault.IsTooLong := fun h => by simp [h.kinds] at hstake
    rw [hrun]
    constructor <;> simp [hstorage, hunread, Unbuilt, Built, Untyped, hbuilds, htyped, hstakes,
      hstake, hwritten, Fault.isConfiguration_of_isStakeFailure hstake]
  · rw [run_unnamed beaconUrl elapsed (o.reader storage) hstart hcalculate hlong.kinds]
    constructor <;> simp [hstorage, hunread, Unbuilt, Built, Untyped, hbuilds, htyped, hstakes,
      hlong, hlong.kinds]

theorem ends_of_calculated (htyped : rows.typed? = some snap)
    (hstakes : o.stakes elapsed snap = .ok stakes) :
    Ends env out o beaconUrl elapsed s
      (runWith out env.untyped o (o.endpoint beaconUrl) (o.reader storage) beaconUrl elapsed s) := by
  have hunread := unread_iff hstorage (show _ = Sources.ended (.ok (timing, slot)) t from hstart)
  have hbuilds := builds_iff hstorage hstart (show _ = Sources.ended (.ok rows) u from hsnapshot)
  have hreport := exists_report_iff (indexed_of_typed htyped) hstakes
  obtain ⟨messages, v, hrun⟩ :=
    exists_run_reported beaconUrl elapsed (o.reader storage) hstart hsnapshot htyped hstakes
  rw [hrun]
  cases hlines : o.report snap stakes with
  | error fault =>
    have hunprintable : ¬ Printable o snap stakes := by simp [← hreport, hlines]
    constructor <;> simp [hstorage, hunread, Unbuilt, Built, Untyped, hbuilds, htyped, hstakes,
      hlines, hunprintable]
  | ok lines =>
    have hprintable : Printable o snap stakes := hreport.1 ⟨lines, hlines⟩
    constructor <;> simp [hstorage, hunread, Unbuilt, Built, Untyped, hbuilds, htyped, hstakes,
      hlines, hprintable]

end

end

end

/-! ### Whole runs -/

section
variable {env : Environment} {words : List String} {rpcUrl : String}
  (hwords : parse words = .ok o) (hrpc : firstText o.rpcUrl env.rpcUrl = some rpcUrl)
  (hbeacon : firstText o.beaconUrl env.beaconUrl = some beaconUrl) (hconnected : env.connected = true)
include hwords hrpc hbeacon hconnected

theorem run_eq_runOptions (out : Outside) (elapsed : Number.Binary64) :
    run env out elapsed words = (do
      let storage ← env.checksum o.storage
      runWith out env.untyped o (o.endpoint beaconUrl) (o.reader storage) beaconUrl elapsed) := by
  rw [run, hwords]
  dsimp only
  rw [runOptions, hrpc, hbeacon]
  dsimp only
  rw [if_pos hconnected]
  rfl

theorem run_of_no_address (out : Outside) (elapsed : Number.Binary64) (s : Session)
    (hstorage : env.checksum o.storage = .error fault) :
    run env out elapsed words s = .error fault s := by
  rw [run_eq_runOptions hwords hrpc hbeacon hconnected, hstorage]
  rfl

theorem run_eq_runWith {storage : String} (hstorage : env.checksum o.storage = .ok storage)
    (out : Outside) (elapsed : Number.Binary64) :
    run env out elapsed words =
      runWith out env.untyped o (o.endpoint beaconUrl) (o.reader storage) beaconUrl elapsed := by
  rw [run_eq_runOptions hwords hrpc hbeacon hconnected, hstorage]
  rfl

/-- With both addresses given and the chain connected, the exit code tells where a run failed. It is 2
if a request at the start fails, or if the settings or the parameters make the calculation
meaningless; 1 if the snapshot cannot be built, or if the stake of a node cannot be calculated; and 0
with the lines of the report. In all other cases a fault escapes: before the start, if the storage is
no address; at the start, if a request was answered but the answer cannot be understood; from the
building and the calculation, if a number is too long to be written, or a row cannot be looked up by
its keys; and after the calculation, if the snapshot is not printable. Where rows are no nodes and
minipools, the run ends as the environment says; but this does not happen if the chain answers as it
declares, and the store, if it is used, has no rows of other types. -/
theorem run_ends (out : Outside) (elapsed : Number.Binary64) (s : Session) :
    Ends env out o beaconUrl elapsed s (run env out elapsed words s) ∧
      (out.Declared → (o.noCache = true ∨ s.store.RowsTyped) →
        ∀ result, ¬ Untyped env out o beaconUrl elapsed s result) := by
  refine ⟨?_, fun hout hs result => not_untyped hout hs result⟩
  cases hstorage : env.checksum o.storage with
  | error fault =>
    rw [run_of_no_address hwords hrpc hbeacon hconnected out elapsed s hstorage]
    exact ends_of_no_address out beaconUrl elapsed s hstorage
  | ok storage =>
    rw [run_eq_runWith hwords hrpc hbeacon hconnected hstorage]
    cases hstart : startingPoint out (o.endpoint beaconUrl) o s with
    | error fault t => exact ends_of_unread hstorage elapsed hstart
    | ok start t =>
      cases hsnapshot : (Sources.ofReaders out (o.endpoint beaconUrl)
          (o.reader storage)).toldSnapshot (o.logger elapsed) start.2 start.1 t with
      | error fault u => exact ends_of_unbuilt hstorage hstart hsnapshot
      | ok rows u =>
        cases htyped : rows.typed? with
        | none => exact ends_of_untyped hstorage hstart hsnapshot htyped
        | some snap =>
          cases hstakes : o.stakes elapsed snap with
          | error fault => exact ends_of_uncalculated hstorage hstart hsnapshot htyped hstakes
          | ok stakes => exact ends_of_calculated hstorage hstart hsnapshot htyped hstakes

end

/-! ### Two beacon nodes -/

/-- Both addresses are there, and the chain is connected; addresses are taken as they are given. -/
def connectedEnvironment : Environment where
  rpcUrl := some "http://r"
  beaconUrl := some "http://b"
  connected := true
  checksum := .ok
  untyped _ := throw (.foreign "TypeError" "")

/-- The beacon node is down. -/
def unavailable : Outside where
  beacon _ _ := .response 503 "down"
  chain := onlyOnes.chain

/-- The beacon node answers with an empty record. -/
def withoutData : Outside where
  beacon _ _ := .response 200 "{}"
  chain _ _ := .ok .null

/-- A request that is refused at the start gives the exit code 2, and there are no rows of other types. -/
theorem run_ends_unavailable :
    (∃ messages t, run connectedEnvironment unavailable (.ofInt 0) [] (.start .empty) =
      .ok ⟨2, [], messages⟩ t) ∧
    ∀ result, ¬ Untyped connectedEnvironment unavailable .default "http://b" (.ofInt 0)
      (.start .empty) result := by
  have hwords : parse [] = .ok .default := rfl
  have hrpc : firstText Options.default.rpcUrl connectedEnvironment.rpcUrl = some "http://r" := rfl
  have hbeacon : firstText Options.default.beaconUrl connectedEnvironment.beaconUrl =
      some "http://b" := rfl
  have hunread : Unread connectedEnvironment unavailable .default "http://b" (.start .empty)
      (.requestRefused "/eth/v1/beacon/genesis" 503 "down") := ⟨_, _, rfl, rfl⟩
  have hdeclared : unavailable.Declared := ⟨declared_onlyOnes.addresses, declared_onlyOnes.pubkeys⟩
  obtain ⟨hends, htyped⟩ := run_ends hwords hrpc hbeacon rfl unavailable (.ofInt 0) (.start .empty)
  exact ⟨hends.two.2 (.inl ⟨_, hunread, rfl⟩),
    htyped hdeclared (.inr Store.rowsTyped_empty)⟩

/-- An answer at the start without its data lets a fault escape. -/
theorem run_escapes_withoutData :
    parse ["--quiet"] = .ok { Options.default with quiet := true } ∧
      connectedEnvironment.connected = true ∧
      ∃ t, run connectedEnvironment withoutData (.ofInt 0) ["--quiet"] (.start .empty) =
        .error (.missingField "data") t :=
  ⟨rfl, rfl, _, rfl⟩

end CommandLine

end StakeSnapshot
