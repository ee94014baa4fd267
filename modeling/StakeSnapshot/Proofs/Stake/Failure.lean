import StakeSnapshot.Proofs.Log.Line
import StakeSnapshot.Proofs.Number.Digits
import StakeSnapshot.Proofs.Stake.Reference
import StakeSnapshot.Proofs.Stake.Stepwise

/-!
# When the effective stakes cannot be calculated

With some settings and parameters no stakes can be calculated at all (`Snapshot.Misconfigured`), and
with all others the rows of some nodes are at fault (`Snapshot.Bad`): a minipool has a validator, but
epochs have no length, or the node registered after the time of the snapshot. A logger that does not
take every line is at fault as well (`Snapshot.Mute`): the one that writes the lines does not take those
with an epoch of too many digits. The main statement is `effectiveStakes_failures`: the calculation
fails exactly in these cases, with the first of them as the fault, and its divisions have no part in
it.
-/

namespace StakeSnapshot

namespace Snapshot

/-- The settings or the parameters do not allow to calculate stakes. -/
def Misconfigured (s : Snapshot) (scale : Bool) (threads : Int) : Prop :=
  threads < 1 ∨ s.parameters.price ≤ 0 ∨ (scale = true ∧ s.parameters.interval ≤ 0)

instance (s : Snapshot) (scale : Bool) (threads : Int) : Decidable (s.Misconfigured scale threads) :=
  inferInstanceAs (Decidable (_ ∨ _))

/-- The epoch has to be known for a minipool: it is there, is staking and has a validator. -/
def Awaited (s : Snapshot) (m : Minipool) : Prop :=
  m.present = true ∧ m.status = .staking ∧ ∃ v, s.validatorOf m = some v

instance (s : Snapshot) (m : Minipool) : Decidable (s.Awaited m) :=
  decidable_of_iff (m.present = true ∧ m.status = .staking ∧ (s.validatorOf m).isSome = true)
    (by simp [Awaited, Option.isSome_iff_exists])

/-- Epochs have no length, but that of a minipool of the node has to be known. -/
def Timeless (s : Snapshot) (n : Node) : Prop :=
  s.timing.slotsPerEpoch = 0 ∧ ∃ m ∈ s.minipools, m.owner = n.address ∧ s.Awaited m

instance (s : Snapshot) (n : Node) : Decidable (s.Timeless n) :=
  inferInstanceAs (Decidable (_ ∧ _))

/-- The time since the registration counts, but the node registered after the snapshot. -/
def Belated (s : Snapshot) (scale : Bool) (n : Node) : Prop :=
  scale = true ∧ s.time < n.registered

instance (s : Snapshot) (scale : Bool) (n : Node) : Decidable (s.Belated scale n) :=
  inferInstanceAs (Decidable (_ ∧ _))

/-- The row of a node for which no stake can be calculated. -/
def Bad (s : Snapshot) (scale : Bool) (n : Node) : Prop := s.Timeless n ∨ s.Belated scale n

instance (s : Snapshot) (scale : Bool) (n : Node) : Decidable (s.Bad scale n) :=
  inferInstanceAs (Decidable (_ ∨ _))

/-- Why no stake can be calculated for the row of a node that is bad. -/
def badness (s : Snapshot) (n : Node) : Fault :=
  if s.Timeless n then .zeroSlotsPerEpoch else (Fault.registeredLater n.registered s.time).raised

/-- The logger does not take one of the lines about the minipools of a node. -/
def Mute (s : Snapshot) (log : Logger) (n : Node) : Prop :=
  ∃ fault, log.tell (s.nodeNotes n) = .error fault

/-- With its lines told to a logger, the row of a node has no stake. -/
def Fails (s : Snapshot) (log : Logger) (scale : Bool) (n : Node) : Prop :=
  s.Mute log n ∨ s.Bad scale n

/-- Why the row of a node has no stake with its lines told to a logger. Lines come first. -/
def failure (s : Snapshot) (log : Logger) (n : Node) : Fault :=
  match log.tell (s.nodeNotes n) with
  | .error fault => fault
  | .ok _ => s.badness n

variable {s : Snapshot} {log : Logger} {scale : Bool} {threads : Int} {n : Node}

theorem not_mute_silent : ¬ s.Mute .silent n := by
  rintro ⟨fault, h⟩
  rw [Logger.tell_silent] at h
  cases h

theorem fails_silent_iff : s.Fails .silent scale n ↔ s.Bad scale n := or_iff_right not_mute_silent

theorem failure_silent : s.failure .silent n = s.badness n := by
  rw [failure, Logger.tell_silent]

theorem fits_of_mem_notes {minipools : List Minipool} {line : LogLine}
    (h : line ∈ s.notes minipools) : line.Fits := by
  induction minipools with
  | nil => cases h
  | cons m rest ih =>
    rw [notes] at h
    split at h
    · cases h
    · next standing _ =>
      rcases List.mem_append.1 h with h | h
      · cases standing <;> simp only [Standing.note?, Option.toList_none, Option.toList_some,
          List.not_mem_nil, List.mem_singleton] at h <;> rw [h] <;> trivial
      · exact ih h

/-- The lines about a node cannot be written just if one of them has an epoch of too many digits. -/
theorem mute_writing_iff {elapsed : Number.Binary64} :
    s.Mute (.writing elapsed) n ↔
      ∃ line ∈ s.nodeNotes n, ∃ i ∈ line.integers, Number.isWritable i = false := by
  rw [Mute, Logger.exists_tell_eq_error_iff]
  refine exists_congr fun line => and_congr_right fun hline => ?_
  exact Logger.exists_writing_eq_error_iff (fits_of_mem_notes hline)

/-! ### The configuration -/

theorem checkConfiguration_eq_ok_iff :
    s.checkConfiguration scale threads = .ok () ↔ ¬ s.Misconfigured scale threads := by
  unfold checkConfiguration Misconfigured
  split
  · simp [*]
  · split
    · simp [*]
    · split <;> simp [*]

/-- A calculation that is meaningless fails with a fault of the configuration, or with that of a number
that is too long for its message. -/
theorem isStakeFailure_of_checkConfiguration {fault : Fault}
    (h : s.checkConfiguration scale threads = .error fault) : fault.isStakeFailure = false := by
  have hraised : ∀ g : Fault, g.isStakeFailure = false → g.raised.isStakeFailure = false := by
    intro g hg
    rcases g.raised_cases with ⟨-, hg'⟩ | ⟨-, hg'⟩ <;> rw [hg']
    · exact hg
    · rfl
  unfold checkConfiguration at h
  split at h
  · cases h
    exact hraised _ rfl
  · split at h
    · cases h
      exact hraised _ rfl
    · split at h
      · cases h
        exact hraised _ rfl
      · cases h

/-! ### Single nodes -/

theorem epoch_eq_error_iff {fault : Fault} :
    s.epoch = .error fault ↔ s.timing.slotsPerEpoch = 0 ∧ fault = .zeroSlotsPerEpoch := by
  unfold epoch ChainTiming.epochOf
  split <;> simp [*, eq_comm]

/-- A minipool has no standing exactly if it needs the epoch and there is none. -/
theorem standing_eq_error_iff {m : Minipool} {fault : Fault} :
    s.standing m = .error fault ↔
      s.Awaited m ∧ s.timing.slotsPerEpoch = 0 ∧ fault = .zeroSlotsPerEpoch := by
  unfold standing Awaited
  by_cases hidle : m.present = false ∨ m.status ≠ .staking
  · rw [if_pos hidle]
    rcases hidle with hpresent | hstatus <;> simp [*]
  · obtain ⟨hpresent, hstatus⟩ : m.present = true ∧ m.status = .staking := by simpa using hidle
    rw [if_neg hidle]
    cases hv : s.validatorOf m with
    | none => simp
    | some v =>
      simp only [hpresent, hstatus, Option.some.injEq, exists_eq', true_and]
      rw [← epoch_eq_error_iff]
      cases s.epoch <;> simp [Except.map]

/-- Minipools that all have a standing have deposits. -/
theorem exists_foldlM_counted {ms : List Minipool}
    (h : ∀ m ∈ ms, ∃ standing, s.standing m = .ok standing) (d : Deposits) :
    ∃ e, ms.foldlM (fun d m => (s.standing m).map (·.counted d m)) d = .ok e := by
  induction ms generalizing d with
  | nil => exact ⟨d, rfl⟩
  | cons m ms ih =>
    obtain ⟨standing, hstanding⟩ := h m List.mem_cons_self
    rw [List.foldlM_cons, hstanding]
    exact ih (fun p hp => h p (List.mem_cons_of_mem m hp)) _

/-- One minipool without a standing is enough for a failure, which is the same for all of them. -/
theorem foldlM_counted_eq_error {ms : List Minipool} {m : Minipool} (hm : m ∈ ms)
    (h : s.standing m = .error .zeroSlotsPerEpoch) (d : Deposits) :
    ms.foldlM (fun d m => (s.standing m).map (·.counted d m)) d = .error .zeroSlotsPerEpoch := by
  induction ms generalizing d with
  | nil => cases hm
  | cons p ms ih =>
    rw [List.foldlM_cons]
    cases hp : s.standing p with
    | error fault =>
      rw [(standing_eq_error_iff.1 hp).2.2]
      rfl
    | ok standing =>
      rcases List.mem_cons.1 hm with rfl | hm
      · rw [h] at hp
        cases hp
      · exact ih hm _

theorem exists_eligibleDeposits (hi : s.Indexed) (h : ¬ s.Timeless n) :
    ∃ d, s.eligibleDeposits (s.minipoolsOf n.address) = .ok d := by
  rw [eligibleDeposits_eq_foldlM]
  refine exists_foldlM_counted (fun m hm => ?_) _
  rw [hi.minipoolsOf, List.mem_filter, decide_eq_true_iff] at hm
  cases hstanding : s.standing m with
  | ok standing => exact ⟨standing, rfl⟩
  | error fault =>
    obtain ⟨hawaited, hzero, -⟩ := standing_eq_error_iff.1 hstanding
    exact absurd ⟨hzero, m, hm.1, hm.2, hawaited⟩ h

theorem eligibleDeposits_of_timeless (hi : s.Indexed) (h : s.Timeless n) :
    s.eligibleDeposits (s.minipoolsOf n.address) = .error .zeroSlotsPerEpoch := by
  obtain ⟨hzero, m, hm, howner, hawaited⟩ := h
  rw [eligibleDeposits_eq_foldlM, hi.minipoolsOf]
  refine foldlM_counted_eq_error (m := m) ?_ (standing_eq_error_iff.2 ⟨hawaited, hzero, rfl⟩) _
  exact List.mem_filter.2 ⟨hm, decide_eq_true howner⟩

theorem scaleByParticipation_of_lt {registered time : Int} (h : time < registered)
    (stake interval : Int) :
    scaleByParticipation stake registered time interval =
      .error (Fault.registeredLater registered time).raised := if_pos (by omega)

theorem exists_scaleByParticipation {registered time : Int} (h : registered ≤ time)
    (stake interval : Int) : ∃ scaled, scaleByParticipation stake registered time interval =
      .ok scaled := by
  unfold scaleByParticipation
  dsimp only
  rw [if_neg (by omega)]
  split
  · exact ⟨_, rfl⟩
  · exact ⟨_, rfl⟩

theorem isStakeFailure_badness : (s.badness n).isStakeFailure = false := by
  unfold badness
  split
  · rfl
  · rcases (Fault.registeredLater n.registered s.time).raised_cases with ⟨-, h⟩ | ⟨-, h⟩ <;> rw [h] <;>
      rfl

theorem atNode_badness (address : String) :
    (s.badness n).atNode address = .nodeStake address (s.badness n) :=
  if_neg (by rw [isStakeFailure_badness]; exact Bool.false_ne_true)

section
variable (hi : s.Indexed) (hp : 0 < s.parameters.price)
include hi hp

theorem namedStake_of_bad (h : s.Bad scale n) :
    s.namedStake scale n = .error (.nodeStake n.address (s.badness n)) := by
  by_cases htimeless : s.Timeless n
  · rw [badness, if_pos htimeless, namedStake, nodeStake, eligibleDeposits_of_timeless hi htimeless]
    rfl
  · obtain ⟨hscale, hlater⟩ : s.Belated scale n := h.resolve_left htimeless
    obtain ⟨d, hd⟩ := exists_eligibleDeposits hi htimeless
    rw [badness, if_neg htimeless, namedStake, nodeStake_of_deposits hd hp, if_pos hscale,
      scaleByParticipation_of_lt hlater]
    rfl

theorem toldStake_of_fails (h : s.Fails log scale n) :
    s.toldStake log scale n = .error ((s.failure log n).atNode n.address) := by
  unfold toldStake failure
  cases htold : log.tell (s.nodeNotes n) with
  | error fault => rfl
  | ok _ =>
    have hbad : s.Bad scale n := h.resolve_left fun ⟨fault, hmute⟩ => by cases htold.symm.trans hmute
    rw [atNode_badness]
    exact namedStake_of_bad hi hp hbad

theorem exists_namedStake (h : ¬ s.Bad scale n) :
    ∃ stake, s.namedStake scale n = .ok stake := by
  obtain ⟨d, hd⟩ := exists_eligibleDeposits hi fun htimeless => h (.inl htimeless)
  rw [namedStake, nodeStake_of_deposits hd hp]
  dsimp only
  by_cases hscale : scale = true
  · have htime : n.registered ≤ s.time := by
      by_contra hlater
      exact h (.inr ⟨hscale, by omega⟩)
    obtain ⟨scaled, hscaled⟩ := exists_scaleByParticipation htime
      (Collateral.clamp ⟨(d.borrowed * s.parameters.minimumFraction).fdiv s.parameters.price,
        (d.bonded * s.parameters.maximumFraction).fdiv s.parameters.price⟩ n.stake)
      s.parameters.interval
    rw [if_pos hscale, hscaled]
    exact ⟨scaled, rfl⟩
  · rw [if_neg hscale]
    exact ⟨_, rfl⟩

theorem exists_toldStake (h : ¬ s.Fails log scale n) :
    ∃ stake, s.toldStake log scale n = .ok stake := by
  obtain ⟨stake, hstake⟩ := exists_namedStake hi hp fun hbad => h (.inr hbad)
  refine ⟨stake, ?_⟩
  rw [toldStake, hstake]
  cases htold : log.tell (s.nodeNotes n) with
  | error fault => exact absurd (.inl ⟨fault, htold⟩) h
  | ok _ => rfl

end

/-! ### All nodes -/

open Sources (ended)

/-- The calculation ends with a result, also step by step with its divisions watched, and the logger
has taken some lines by then. -/
def Ends (s : Snapshot) (log : Logger) (scale : Bool) (threads : Int)
    (result : Except Fault EffectiveStakes) (told : List LogLine) : Prop :=
  s.toldStakes log scale threads = result ∧
    ∀ byZero, s.stakeSteps log byZero scale threads [] = ended result told

theorem ends_of_misconfigured {fault : Fault}
    (h : s.checkConfiguration scale threads = .error fault) :
    s.Ends log scale threads (.error fault) [] := by
  refine ⟨?_, fun byZero => ?_⟩
  · rw [toldStakes, h]
    rfl
  · rw [stakeSteps, h]
    rfl

theorem toldStakes_of_check (hc : s.checkConfiguration scale threads = .ok ()) :
    s.toldStakes log scale threads =
      EffectiveStakes.collect (s.nodes.map fun n => (n.address, s.toldStake log scale n)) := by
  rw [toldStakes, hc]
  rfl

theorem namedStake_of_toldStake {stake : Int} (h : s.toldStake log scale n = .ok stake) :
    s.namedStake scale n = .ok stake := by
  unfold toldStake at h
  cases htold : log.tell (s.nodeNotes n) with
  | error fault =>
    rw [htold] at h
    cases h
  | ok _ =>
    rw [htold] at h
    exact h

/-- Stakes that are calculated with any logger are the stakes. -/
theorem effectiveStakes_of_toldStakes {stakes : EffectiveStakes}
    (h : s.toldStakes log scale threads = .ok stakes) :
    s.effectiveStakes scale threads = .ok stakes := by
  cases hc : s.checkConfiguration scale threads with
  | error fault =>
    rw [(ends_of_misconfigured hc).1] at h
    cases h
  | ok _ =>
    rw [toldStakes_of_check hc] at h
    obtain ⟨stake, hstake, rfl⟩ := EffectiveStakes.collect_eq_ok_iff.1 h
    exact effectiveStakes_of_namedStake hc fun n hn => namedStake_of_toldStake (hstake n hn)

theorem stakeSteps_of_check (byZero : Fault) (told : List LogLine)
    (h : s.checkConfiguration scale threads = .ok ()) :
    s.stakeSteps log byZero scale threads told =
      (s.nodes.mapM (s.namedSteps log byZero scale) >>= fun rows =>
        (return .ofRows rows : Telling EffectiveStakes)) told := by
  rw [stakeSteps, h]
  rfl

/-- If every row has a stake, the calculation ends with all of them, and every node has been
explained. -/
theorem ends_of_toldStake {stake : Node → Int} (hc : s.checkConfiguration scale threads = .ok ())
    (h : ∀ n ∈ s.nodes, s.toldStake log scale n = .ok (stake n)) :
    s.Ends log scale threads (.ok (.ofRows (s.nodes.map fun n => (n.address, stake n))))
      s.stakeNotes := by
  refine ⟨?_, fun byZero => ?_⟩
  · rw [toldStakes_of_check hc, EffectiveStakes.collect_of_stakes h]
  · rw [stakeSteps_of_check byZero [] hc]
    exact Reads.bind_of_ok (mapM_namedSteps_of_ok log byZero scale h)

/-- The first row that fails ends the calculation, and the nodes up to it have been explained. -/
theorem ends_of_first {stake : Node → Int} {before after : List Node} {fault : Fault}
    (hc : s.checkConfiguration scale threads = .ok ()) (hnodes : s.nodes = before ++ n :: after)
    (h : ∀ m ∈ before, s.toldStake log scale m = .ok (stake m))
    (hn : s.toldStake log scale n = .error fault) :
    s.Ends log scale threads (.error fault)
      (before.flatMap s.nodeNotes ++ log.heard (s.nodeNotes n)) := by
  refine ⟨?_, fun byZero => ?_⟩
  · rw [toldStakes_of_check hc, hnodes, EffectiveStakes.collect_of_first h hn]
  · rw [stakeSteps_of_check byZero [] hc, hnodes]
    exact Reads.bind_of_error (mapM_namedSteps_of_error log byZero scale h hn)

/-- A list has no row that fails, or a first one. -/
theorem good_or_first_failing (s : Snapshot) (log : Logger) (scale : Bool) (nodes : List Node) :
    (∀ n ∈ nodes, ¬ s.Fails log scale n) ∨
      ∃ before n after, nodes = before ++ n :: after ∧ (∀ m ∈ before, ¬ s.Fails log scale m) ∧
        s.Fails log scale n := by
  induction nodes with
  | nil => exact .inl fun n hn => by cases hn
  | cons m nodes ih =>
    by_cases hm : s.Fails log scale m
    · exact .inr ⟨[], m, nodes, rfl, fun p hp => (by cases hp), hm⟩
    rcases ih with hgood | ⟨before, n, after, rfl, hbefore, hn⟩
    · exact .inl (List.forall_mem_cons.2 ⟨hm, hgood⟩)
    · exact .inr ⟨m :: before, n, after, rfl, List.forall_mem_cons.2 ⟨hm, hbefore⟩, hn⟩

theorem price_pos_of_configured (h : ¬ s.Misconfigured scale threads) :
    0 < s.parameters.price := by
  by_contra hprice
  exact h (.inr (.inl (by omega)))

section
variable (hi : s.Indexed) (h : ¬ s.Misconfigured scale threads)
include hi h

theorem ends_of_first_failing {before after : List Node} (hnodes : s.nodes = before ++ n :: after)
    (hbefore : ∀ m ∈ before, ¬ s.Fails log scale m) (hn : s.Fails log scale n) :
    s.Ends log scale threads (.error ((s.failure log n).atNode n.address))
      (before.flatMap s.nodeNotes ++ log.heard (s.nodeNotes n)) := by
  have hprice := price_pos_of_configured h
  have hstakes : ∀ m ∈ before, ∃ stake, s.toldStake log scale m = .ok stake :=
    fun m hm => exists_toldStake hi hprice (hbefore m hm)
  choose! stake hstake using hstakes
  exact ends_of_first (checkConfiguration_eq_ok_iff.2 h) hnodes hstake
    (toldStake_of_fails hi hprice hn)

theorem exists_ends_of_good (hgood : ∀ n ∈ s.nodes, ¬ s.Fails log scale n) :
    ∃ stake : Node → Int, (∀ n ∈ s.nodes, s.toldStake log scale n = .ok (stake n)) ∧
      s.Ends log scale threads (.ok (.ofRows (s.nodes.map fun n => (n.address, stake n))))
        s.stakeNotes := by
  have hstakes : ∀ n ∈ s.nodes, ∃ stake, s.toldStake log scale n = .ok stake :=
    fun n hn => exists_toldStake hi (price_pos_of_configured h) (hgood n hn)
  choose! stake hstake using hstakes
  exact ⟨stake, hstake, ends_of_toldStake (checkConfiguration_eq_ok_iff.2 h) hstake⟩

variable (log) in
/-- With settings and parameters that allow it, a failure is that of a row. -/
theorem failures_of_configured :
    ((∃ fault, s.toldStakes log scale threads = .error fault) ↔
      ∃ n ∈ s.nodes, s.Fails log scale n) ∧
      ∀ fault, s.toldStakes log scale threads = .error fault → fault.isStakeFailure = true := by
  rcases good_or_first_failing s log scale s.nodes with
    hgood | ⟨before, n, after, hnodes, hbefore, hn⟩
  · obtain ⟨stake, -, hends, -⟩ := exists_ends_of_good hi h hgood
    refine ⟨⟨fun ⟨fault, hfault⟩ => ?_, fun ⟨n, hn, hbad⟩ => absurd hbad (hgood n hn)⟩,
      fun fault hfault => ?_⟩ <;>
    · rw [hends] at hfault
      cases hfault
  · have hends := (ends_of_first_failing hi h hnodes hbefore hn).1
    refine ⟨⟨fun _ => ⟨n, by simp [hnodes], hn⟩, fun _ => ⟨_, hends⟩⟩, fun fault hfault => ?_⟩
    rw [hends] at hfault
    cases hfault
    exact Fault.isStakeFailure_atNode _ _

end

/-- The calculation, with its lines told to any logger, ends in one of three ways. With settings or
parameters that make it meaningless it fails before anything is evaluated or told: the number of
workers comes first, then the price, then the length of the interval; the fault says so unless the
number that it names is too long. Otherwise the first row that fails, in the order of the nodes, is
the fault, with the address of its node: a line that the logger does not take comes before a missing
epoch, and that before a late registration. If no row fails there is a stake for every row. A silent
logger takes all lines, and one that writes them takes those whose epochs can be written. No division
by zero ever happens, whatever fault it would raise. -/
theorem effectiveStakes_failures (s : Snapshot) (log : Logger) (scale : Bool) (threads : Int)
    (hi : s.Indexed) :
    ((∃ fault, s.toldStakes log scale threads = .error fault ∧ fault.isStakeFailure = false) ↔
      s.Misconfigured scale threads) ∧
    (threads < 1 → s.Ends log scale threads (.error (Fault.threadLimit threads).raised) []) ∧
    (1 ≤ threads → s.parameters.price ≤ 0 → s.Ends log scale threads
      (.error (Fault.priceNotPositive s.parameters.price (some s.block)).raised) []) ∧
    (1 ≤ threads → 0 < s.parameters.price → scale = true → s.parameters.interval ≤ 0 →
      s.Ends log scale threads
        (.error (Fault.intervalNotPositive s.parameters.interval).raised) []) ∧
    (¬ s.Misconfigured scale threads →
      ((∃ fault, s.toldStakes log scale threads = .error fault ∧ fault.isStakeFailure = true) ↔
        ∃ n ∈ s.nodes, s.Fails log scale n) ∧
      (∀ before n after, s.nodes = before ++ n :: after → (∀ m ∈ before, ¬ s.Fails log scale m) →
        s.Fails log scale n → s.Ends log scale threads
          (.error ((s.failure log n).atNode n.address))
          (before.flatMap s.nodeNotes ++ log.heard (s.nodeNotes n))) ∧
      ((∀ n ∈ s.nodes, ¬ s.Fails log scale n) →
        ∃ stake : Node → Int, (∀ n ∈ s.nodes, s.toldStake log scale n = .ok (stake n)) ∧
          s.Ends log scale threads (.ok (.ofRows (s.nodes.map fun n => (n.address, stake n))))
            s.stakeNotes)) ∧
    ∀ n, (s.Fails .silent scale n ↔ s.Bad scale n) ∧ s.failure .silent n = s.badness n ∧
      ∀ elapsed, s.Fails (.writing elapsed) scale n ↔
        (∃ line ∈ s.nodeNotes n, ∃ i ∈ line.integers, Number.isWritable i = false) ∨
          s.Bad scale n := by
  refine ⟨⟨?_, fun h => ?_⟩, fun hthreads => ?_,
    fun hthreads hprice => ?_, fun hthreads hprice hscale hinterval => ?_,
    fun h => ⟨?_, fun before n after => ends_of_first_failing hi h, exists_ends_of_good hi h⟩,
    fun n => ⟨fails_silent_iff, failure_silent, fun elapsed => or_congr_left mute_writing_iff⟩⟩
  · rintro ⟨fault, hfault, hkind⟩
    by_contra h
    rw [(failures_of_configured log hi h).2 fault hfault] at hkind
    cases hkind
  · cases hcheck : s.checkConfiguration scale threads with
    | ok _ => exact absurd h (checkConfiguration_eq_ok_iff.1 hcheck)
    | error fault =>
      exact ⟨fault, (ends_of_misconfigured hcheck).1, isStakeFailure_of_checkConfiguration hcheck⟩
  · refine ends_of_misconfigured ?_
    rw [checkConfiguration, if_pos hthreads]
  · refine ends_of_misconfigured ?_
    rw [checkConfiguration, if_neg (by omega), if_pos hprice]
  · refine ends_of_misconfigured ?_
    rw [checkConfiguration, if_neg (by omega), if_neg (by omega), if_pos ⟨hscale, hinterval⟩]
  · obtain ⟨hiff, hfailure⟩ := failures_of_configured log hi h
    rw [← hiff]
    constructor
    · rintro ⟨fault, hfault, -⟩
      exact ⟨fault, hfault⟩
    · rintro ⟨fault, hfault⟩
      exact ⟨fault, hfault, hfailure fault hfault⟩

/-- Three nodes of which the second registered late and the third has a minipool whose epoch would
have to be known. -/
def timeless : Snapshot := reindexed
  { block := 7
    slot := 100
    timing := ⟨0, 12, 0⟩
    parameters := ⟨10, 1, 25, 3, 600, ⟨70, 15, 15⟩, 0⟩
    nodes := [⟨"0xa", 301, 900⟩, ⟨"0xb", 12, 2000⟩, ⟨"0xc", 90, 2000⟩]
    minipools := [⟨"0xm", "0xa", "0x1", true, .prelaunch, 160, 80⟩,
      ⟨"0xn", "0xc", "0x2", true, .staking, 80, 80⟩]
    validators := [("0x2", ⟨"0x2", 2, "active", 32, 32, false, 0, 9, farFutureEpoch⟩)]
    lookups := ⟨[], [], [], []⟩ }

/-- The second node fails with scaling, and the third one without it. -/
theorem effectiveStakes_failures_timeless :
    timeless.Indexed ∧
    timeless.toldStakes .silent true 4 = .error (.nodeStake "0xb" (.registeredLater 2000 1200)) ∧
    timeless.toldStakes .silent false 4 = .error (.nodeStake "0xc" .zeroSlotsPerEpoch) := by
  have hi : timeless.Indexed := indexed_reindexed _
  have hgood : ∀ scale n, ¬ timeless.Bad scale n → ¬ timeless.Fails .silent scale n :=
    fun scale n h => fun hfails => h (fails_silent_iff.1 hfails)
  have hscaled := (effectiveStakes_failures timeless .silent true 4 hi).2.2.2.2.1 (by decide)
  have hplain := (effectiveStakes_failures timeless .silent false 4 hi).2.2.2.2.1 (by decide)
  refine ⟨hi, ?_, ?_⟩
  · refine (hscaled.2.1 [⟨"0xa", 301, 900⟩] ⟨"0xb", 12, 2000⟩ [⟨"0xc", 90, 2000⟩] rfl ?_ ?_).1
    · exact List.forall_mem_singleton.2 (hgood _ _ (by decide))
    · exact fails_silent_iff.2 (by decide)
  · refine (hplain.2.1 [⟨"0xa", 301, 900⟩, ⟨"0xb", 12, 2000⟩] ⟨"0xc", 90, 2000⟩ [] rfl ?_ ?_).1
    · exact List.forall_mem_cons.2 ⟨hgood _ _ (by decide),
        List.forall_mem_singleton.2 (hgood _ _ (by decide))⟩
    · exact fails_silent_iff.2 (by decide)

/-- A node whose only minipool has a validator that starts in an epoch of 4301 digits. -/
def longEpoch : Snapshot := reindexed
  { block := 7
    slot := 64
    timing := ⟨0, 12, 32⟩
    parameters := ⟨10, 1, 25, 3, 600, ⟨70, 15, 15⟩, 0⟩
    nodes := [⟨"0xa", 301, 0⟩]
    minipools := [⟨"0xm", "0xa", "0x1", true, .staking, 160, 80⟩]
    validators := [("0x1", ⟨"0x1", 2, "pending", 32, 32, false, Int.pow 10 Number.maxDigits, farFutureEpoch,
      farFutureEpoch⟩)]
    lookups := ⟨[], [], [], []⟩ }

theorem nodeNotes_longEpoch :
    longEpoch.nodeNotes ⟨"0xa", 301, 0⟩ = [.startsLater "0xm" (Int.pow 10 Number.maxDigits) 2] := by
  decide +kernel

/-- The node has a stake, but not if the line about its minipool is to be written. -/
theorem toldStakes_longEpoch :
    longEpoch.effectiveStakes false 4 = .ok ⟨[("0xa", 0)], 0⟩ ∧
      ∀ elapsed, ∃ fault, longEpoch.toldStakes (.writing elapsed) false 4 = .error fault ∧
        fault.isStakeFailure = true := by
  refine ⟨by decide +kernel, fun elapsed => ?_⟩
  have hmute : longEpoch.Mute (.writing elapsed) ⟨"0xa", 301, 0⟩ := by
    rw [mute_writing_iff, nodeNotes_longEpoch]
    exact ⟨_, List.mem_singleton_self _, _, List.mem_cons_self, Number.isWritable_pow le_rfl⟩
  have hi : longEpoch.Indexed := indexed_reindexed _
  have hc : ¬ longEpoch.Misconfigured false 4 := by decide
  obtain ⟨hiff, hkind⟩ := failures_of_configured (.writing elapsed) hi hc
  obtain ⟨fault, hfault⟩ := hiff.2 ⟨_, List.mem_singleton_self _, .inl hmute⟩
  exact ⟨fault, hfault, hkind fault hfault⟩

end Snapshot

end StakeSnapshot
