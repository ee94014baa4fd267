import Mathlib.Algebra.Ring.Int.Defs
import Mathlib.Algebra.Ring.Nat
import Mathlib.Data.Nat.Find
import Mathlib.Tactic.SplitIfs
import StakeSnapshot.Proofs.Stake.Collect
import StakeSnapshot.Proofs.Stake.Pool

/-!
# The schedule does not matter

`Pool.Consistent` holds of every pool that can be reached: what has been taken lies in front of what
waits, and a cancelled job has a failed one in front of it. So nothing in front of the first failure
is cancelled, and `ending_eq_collect` says that every run ends as if the nodes had been evaluated one
after the other. `exists_ended` says that every run can be brought to an end.
-/

namespace StakeSnapshot
namespace Pool

variable {threads : Int} {outcomes : List (String × Except Fault Int)} {p q : Pool}

/-! ### Changing one job -/

/-- The jobs `after` are `before` with the job `k` in the given state. -/
def Changes (before : List Job) (k : Nat) (job : Job) (after : List Job) : Prop :=
  ∀ i, after[i]? = if i = k then some job else before[i]?

theorem changes_concat (jobs : List Job) (job : Job) :
    Changes jobs jobs.length job (jobs ++ [job]) := by
  intro i
  rw [List.getElem?_append, List.getElem?_singleton]
  split_ifs with h1 h2 h3 h4
  · omega
  · rfl
  · rfl
  · omega
  · omega
  · exact (List.getElem?_eq_none (by omega)).symm

theorem changes_set {jobs : List Job} {k : Nat} {old : Job} (hk : jobs[k]? = some old) (job : Job) :
    Changes jobs k job (jobs.set k job) := by
  intro i
  obtain ⟨hlt, -⟩ := List.getElem?_eq_some_iff.1 hk
  rw [List.getElem?_set]
  split_ifs with h1 h2
  · rfl
  · exact absurd h1.symm h2
  · next h2 => exact absurd h2.symm h1
  · rfl

/-- Why a job can be in a state: a finished one has come to its outcome, nothing has been taken
behind a waiting one, and there is a failure in front of a cancelled one. -/
def Justified (outcomes : List (String × Except Fault Int)) (p : Pool) (i : Nat) : Job → Prop
  | .waiting => ∀ j, i < j → ∀ job, p.jobs[j]? = some job → job = .waiting ∨ job = .cancelled
  | .running => True
  | .cancelled => ∃ j < i, ∃ fault, p.jobs[j]? = some (.failed fault)
  | .succeeded => ∃ address stake,
      outcomes[i]? = some (address, .ok stake) ∧ p.slots[i]? = some (some stake)
  | .failed fault => ∃ address, outcomes[i]? = some (address, .error fault)

/-- What a pool satisfies at any time. -/
structure Consistent (outcomes : List (String × Except Fault Int)) (p : Pool) : Prop where
  slots_length : p.slots.length = outcomes.length
  jobs_length : p.jobs.length ≤ outcomes.length
  awake : p.woken = true → ∃ (i : Nat) (fault : Fault), p.jobs[i]? = some (.failed fault)
  justified : ∀ (i : Nat) job, p.jobs[i]? = some job → Justified outcomes p i job

theorem consistent_start : Consistent outcomes (start outcomes.length) where
  slots_length := by simp [start]
  jobs_length := by simp [start]
  awake := by simp [start]
  justified := by simp [start]

/-- Changing a job that has not failed keeps the reasons of the others, if it stays behind what
waits. -/
theorem Justified.change {i k : Nat} {job new : Job} (hj : Justified outcomes p i job)
    (hc : Changes p.jobs k new q.jobs) (hopen : ∀ fault, p.jobs[k]? ≠ some (.failed fault))
    (hslot : q.slots[i]? = p.slots[i]?)
    (hfifo : job = .waiting → i < k → new = .waiting ∨ new = .cancelled) :
    Justified outcomes q i job := by
  cases job with
  | waiting =>
    intro j hij other hother
    rw [hc j] at hother
    split at hother
    · next hjk =>
      cases hother
      exact hfifo rfl (hjk ▸ hij)
    · exact hj j hij other hother
  | running => trivial
  | cancelled =>
    obtain ⟨j, hji, fault, hfailed⟩ := hj
    have hjk : j ≠ k := by
      rintro rfl
      exact hopen fault hfailed
    exact ⟨j, hji, fault, by rw [hc j, if_neg hjk, hfailed]⟩
  | succeeded =>
    obtain ⟨address, stake, ho, hs⟩ := hj
    exact ⟨address, stake, ho, hslot.trans hs⟩
  | failed fault => exact hj

theorem Consistent.change {k : Nat} {new : Job} (h : Consistent outcomes p)
    (hc : Changes p.jobs k new q.jobs) (hwoken : q.woken = p.woken)
    (hopen : ∀ fault, p.jobs[k]? ≠ some (.failed fault))
    (hslots_length : q.slots.length = p.slots.length)
    (hjobs_length : q.jobs.length ≤ outcomes.length)
    (hslots : ∀ i ≠ k, q.slots[i]? = p.slots[i]?)
    (hfifo : (∀ i < k, p.jobs[i]? ≠ some .waiting) ∨ new = .waiting ∨ new = .cancelled)
    (hnew : Justified outcomes q k new) : Consistent outcomes q where
  slots_length := hslots_length.trans h.slots_length
  jobs_length := hjobs_length
  awake := by
    intro hw
    obtain ⟨i, fault, hfailed⟩ := h.awake (hwoken ▸ hw)
    have hik : i ≠ k := by
      rintro rfl
      exact hopen fault hfailed
    exact ⟨i, fault, by rw [hc i, if_neg hik, hfailed]⟩
  justified := by
    intro i job hi
    rw [hc i] at hi
    split at hi
    · next hik =>
      cases hi
      exact hik ▸ hnew
    · next hik =>
      refine (h.justified i job hi).change hc hopen (hslots i hik) ?_
      rintro rfl hlt
      exact hfifo.resolve_left fun hfirst => hfirst i hlt hi

/-- Nothing waits in front of a job that has been taken. -/
theorem Consistent.first_taken {k : Nat} {job : Job} (h : Consistent outcomes p)
    (hk : p.jobs[k]? = some job) (htaken : job ≠ .waiting ∧ job ≠ .cancelled) :
    ∀ i < k, p.jobs[i]? ≠ some .waiting := by
  intro i hik hi
  rcases h.justified i .waiting hi k hik job hk with hw | hcan
  · exact htaken.1 hw
  · exact htaken.2 hcan

theorem setJob_jobs_length (p : Pool) (i : Nat) (job : Job) :
    (p.setJob i job).jobs.length = p.jobs.length := by simp [setJob]

/-- One step keeps a pool consistent. -/
theorem Consistent.step (h : Consistent outcomes p) (hs : Step threads outcomes p q) :
    Consistent outcomes q := by
  have hlen := h.jobs_length
  cases hs with
  | submit hleft =>
    refine h.change (changes_concat p.jobs .waiting) rfl ?_ rfl ?_ (fun _ _ => rfl)
      (.inr (.inl rfl)) ?_
    · intro fault
      rw [List.getElem?_eq_none (Nat.le_refl _)]
      exact nofun
    · simpa using Nat.succ_le_of_lt hleft
    · intro j hj job hjob
      rw [List.getElem?_eq_none (by simpa using Nat.succ_le_of_lt hj)] at hjob
      cases hjob
  | @take i hfree hi hfirst =>
    exact h.change (changes_set hi .running) rfl (by simp [hi]) rfl
      (by rwa [setJob_jobs_length]) (fun _ _ => rfl) (.inl hfirst) trivial
  | @succeed i address stake hi ho =>
    have hlt : i < p.slots.length := by
      rw [h.slots_length]
      exact (List.getElem?_eq_some_iff.1 ho).1
    refine h.change (changes_set hi .succeeded) rfl (by simp [hi]) (by simp [fill, setJob]) ?_ ?_
      (.inl (h.first_taken hi (by simp))) ⟨address, stake, ho, ?_⟩
    · simpa [fill, setJob] using hlen
    · intro j hj
      simp [fill, setJob, Ne.symm hj]
    · simp [fill, setJob, hlt]
  | @fail i address fault hi ho =>
    exact h.change (changes_set hi (.failed fault)) rfl (by simp [hi]) rfl
      (by rwa [setJob_jobs_length]) (fun _ _ => rfl) (.inl (h.first_taken hi (by simp)))
      ⟨address, ho⟩
  | wake hall hasleep hfailed =>
    obtain ⟨fault, hmem⟩ := hfailed
    obtain ⟨i, hi⟩ := List.getElem?_of_mem hmem
    exact ⟨h.slots_length, hlen, fun _ => ⟨i, fault, hi⟩, fun i job hi =>
      match job, h.justified i job hi with
      | .waiting, hj | .running, hj | .cancelled, hj | .succeeded, hj | .failed _, hj => hj⟩
  | @cancel i hwoken hi =>
    obtain ⟨j, fault, hj⟩ := h.awake hwoken
    -- the failed job was taken, so it lies in front of one that still waits
    have hji : j < i := by
      rcases Nat.lt_trichotomy j i with hlt | rfl | hgt
      · exact hlt
      · rw [hi] at hj
        cases hj
      · exact absurd hi (h.first_taken hj (by simp) i hgt)
    have hc := changes_set hi .cancelled
    exact h.change hc rfl (by simp [hi]) rfl (by rwa [setJob_jobs_length]) (fun _ _ => rfl)
      (.inr (.inr rfl)) ⟨j, hji, fault, by rw [setJob, hc j, if_neg (Nat.ne_of_lt hji), hj]⟩

theorem Reachable.consistent (h : Reachable threads outcomes p) : Consistent outcomes p := by
  induction h with
  | refl => exact consistent_start
  | tail _ hs ih => exact ih.step hs

/-! ### Endings -/

/-- At the end a job has come to its outcome, unless there is a failure in front of it. -/
theorem Consistent.settled {i : Nat} (h : Consistent outcomes p) (he : p.Ended outcomes)
    (hi : i < outcomes.length) :
    (∃ address stake, p.jobs[i]? = some .succeeded ∧
      outcomes[i]? = some (address, .ok stake)) ∨
    (∃ address fault, p.jobs[i]? = some (.failed fault) ∧
      outcomes[i]? = some (address, .error fault)) ∨
    ∃ j < i, ∃ address fault, outcomes[j]? = some (address, .error fault) := by
  obtain ⟨job, hjob⟩ : ∃ job, p.jobs[i]? = some job :=
    ⟨_, List.getElem?_eq_getElem (he.1 ▸ hi)⟩
  have hsettled := he.2 job (List.mem_of_getElem? hjob)
  have hjust := h.justified i job hjob
  cases job with
  | waiting | running => exact hsettled.elim
  | succeeded =>
    obtain ⟨address, stake, ho, -⟩ := hjust
    exact .inl ⟨address, stake, hjob, ho⟩
  | failed fault =>
    obtain ⟨address, ho⟩ := hjust
    exact .inr (.inl ⟨address, fault, hjob, ho⟩)
  | cancelled =>
    obtain ⟨j, hji, fault, hj⟩ := hjust
    obtain ⟨address, ho⟩ := h.justified j _ hj
    exact .inr (.inr ⟨j, hji, address, fault, ho⟩)

/-- If all jobs up to one have stakes, that one has succeeded at the end. -/
theorem Consistent.eq_succeeded {i : Nat} (h : Consistent outcomes p) (he : p.Ended outcomes)
    (hi : i < outcomes.length)
    (hok : ∀ j ≤ i, ∃ address stake, outcomes[j]? = some (address, .ok stake)) :
    p.jobs[i]? = some .succeeded := by
  have hnofault : ∀ j ≤ i, ∀ address fault, outcomes[j]? ≠ some (address, .error fault) := by
    intro j hj address fault hf
    obtain ⟨_, _, ho⟩ := hok j hj
    rw [ho] at hf
    cases hf
  rcases h.settled he hi with ⟨_, _, hjob, -⟩ | ⟨address, fault, -, ho⟩ |
    ⟨j, hji, address, fault, ho⟩
  · exact hjob
  · exact absurd ho (hnofault i (Nat.le_refl i) address fault)
  · exact absurd ho (hnofault j (Nat.le_of_lt hji) address fault)

theorem tally_filled (rows : List (String × Int)) (stakes : EffectiveStakes) :
    tally stakes (rows.map fun row => (row.1, some row.2)) =
      some ⟨Table.putAll stakes.byNode rows, stakes.total + (rows.map Prod.snd).sum⟩ := by
  induction rows generalizing stakes with
  | nil => simp [tally, Table.putAll]
  | cons row rows ih =>
    rw [List.map_cons, tally, ih]
    simp [Table.putAll, Int.add_assoc]

/-- Without a failure the slots are added up. -/
theorem Consistent.ending_stakesOnly {rows : List (String × Int)}
    (h : Consistent (EffectiveStakes.stakesOnly rows) p)
    (he : p.Ended (EffectiveStakes.stakesOnly rows)) :
    p.ending (rows.map Prod.fst) = .returned (.ofRows rows) := by
  have hlen := EffectiveStakes.length_stakesOnly rows
  have hok : ∀ i < rows.length, p.jobs[i]? = some .succeeded := by
    intro i hi
    refine h.eq_succeeded he (hlen ▸ hi) fun j hj => ?_
    rw [EffectiveStakes.getElem?_stakesOnly,
      List.getElem?_eq_getElem (Nat.lt_of_le_of_lt hj hi)]
    exact ⟨_, _, rfl⟩
  have hfault : p.jobs.findSome? Job.fault? = none := by
    refine List.findSome?_eq_none_iff.2 fun job hjob => ?_
    obtain ⟨i, hi⟩ := List.getElem?_of_mem hjob
    obtain ⟨hlt, -⟩ := List.getElem?_eq_some_iff.1 hi
    rw [hok i (by rwa [he.1, hlen] at hlt)] at hi
    cases hi
    rfl
  -- each slot was filled by its own job, since that job has succeeded
  have hslots : p.slots = rows.map fun row => some row.2 := by
    refine List.ext_getElem? fun i => ?_
    rw [List.getElem?_map]
    by_cases hi : i < rows.length
    · obtain ⟨address, stake, ho, hs⟩ := h.justified i _ (hok i hi)
      rw [EffectiveStakes.getElem?_stakesOnly, List.getElem?_eq_getElem hi] at ho
      cases ho
      rw [hs, List.getElem?_eq_getElem hi]
      rfl
    · rw [List.getElem?_eq_none (by rw [h.slots_length, hlen]; omega),
        List.getElem?_eq_none (by omega)]
      rfl
  have hzip : (rows.map Prod.fst).zip p.slots = rows.map fun row => (row.1, some row.2) := by
    rw [hslots, List.zip_map']
  rw [ending, hfault, hzip, tally_filled]
  simp only [Int.zero_add]
  rfl

/-- The first failure in the order of the jobs is raised. -/
theorem Consistent.ending_failure {m : Nat} {address : String} {fault : Fault}
    (h : Consistent outcomes p) (he : p.Ended outcomes)
    (hm : outcomes[m]? = some (address, .error fault))
    (hfirst : ∀ j < m, ∃ address stake, outcomes[j]? = some (address, .ok stake))
    (addresses : List String) : p.ending addresses = .raised fault := by
  obtain ⟨hlt, -⟩ := List.getElem?_eq_some_iff.1 hm
  have hbelow : ∀ j < m, p.jobs[j]? = some .succeeded := fun j hj =>
    h.eq_succeeded he (Nat.lt_trans hj hlt) fun k hk => hfirst k (Nat.lt_of_le_of_lt hk hj)
  -- the job was not cancelled, for that takes a failure in front of it
  have hfailed : p.jobs[m]? = some (.failed fault) := by
    rcases h.settled he hlt with ⟨_, _, -, ho⟩ | ⟨_, other, hjob, ho⟩ | ⟨j, hjm, _, _, ho⟩
    · rw [hm] at ho
      cases ho
    · rw [hm] at ho
      cases ho
      exact hjob
    · obtain ⟨_, _, ho'⟩ := hfirst j hjm
      rw [ho'] at ho
      cases ho
  have hfault : p.jobs.findSome? Job.fault? = some fault := by
    obtain ⟨hlt', hget⟩ := List.getElem?_eq_some_iff.1 hfailed
    refine List.findSome?_eq_some_iff.2 ⟨p.jobs.take m, .failed fault, p.jobs.drop (m + 1), ?_,
      rfl, fun job hjob => ?_⟩
    · rw [← hget, List.getElem_cons_drop, List.take_append_drop]
    · obtain ⟨j, hj⟩ := List.getElem?_of_mem hjob
      rw [List.getElem?_take] at hj
      split at hj
      · next hjm =>
        rw [hbelow j hjm] at hj
        cases hj
        rfl
      · cases hj
  rw [ending, hfault]

/-! ### Every run comes to an end -/

/-- How many steps there may still be. -/
def stepsLeft (outcomes : List (String × Except Fault Int)) (p : Pool) : Nat :=
  3 * (outcomes.length - p.jobs.length) + (p.jobs.map Job.stepsLeft).sum +
    if p.woken then 0 else 1

theorem sum_stepsLeft_set {jobs : List Job} {i : Nat} {old : Job} (hi : jobs[i]? = some old)
    (new : Job) :
    ((jobs.set i new).map Job.stepsLeft).sum + old.stepsLeft =
      (jobs.map Job.stepsLeft).sum + new.stepsLeft := by
  induction jobs generalizing i with
  | nil => cases hi
  | cons job jobs ih =>
    cases i with
    | zero =>
      cases hi
      simp only [List.set_cons_zero, List.map_cons, List.sum_cons]
      omega
    | succ i =>
      have := ih (i := i) hi
      simp only [List.set_cons_succ, List.map_cons, List.sum_cons]
      omega

theorem stepsLeft_setJob_lt {i : Nat} {old new : Job} (hi : p.jobs[i]? = some old)
    (hlt : new.stepsLeft < old.stepsLeft) :
    (p.setJob i new).stepsLeft outcomes < p.stepsLeft outcomes := by
  have hsum := sum_stepsLeft_set hi new
  have hlen := setJob_jobs_length p i new
  change 3 * (outcomes.length - (p.setJob i new).jobs.length) +
    ((p.jobs.set i new).map Job.stepsLeft).sum + (if p.woken then 0 else 1) < _
  rw [hlen, stepsLeft]
  omega

theorem Step.stepsLeft_lt (hs : Step threads outcomes p q) :
    q.stepsLeft outcomes < p.stepsLeft outcomes := by
  cases hs with
  | submit hleft =>
    simp only [stepsLeft, List.length_append, List.map_append, List.sum_append, List.length_cons,
      List.length_nil, List.map_cons, List.map_nil, List.sum_cons, List.sum_nil, Job.stepsLeft]
    omega
  | take hfree hi hfirst => exact stepsLeft_setJob_lt hi (by decide)
  | succeed hi ho => exact stepsLeft_setJob_lt hi (by decide)
  | fail hi ho => exact stepsLeft_setJob_lt hi (by simp [Job.stepsLeft])
  | wake hall hasleep hfailed => simp [stepsLeft, hasleep]
  | cancel hwoken hi => exact stepsLeft_setJob_lt hi (by decide)

/-- As long as something is left to do, some step is possible. -/
theorem Consistent.exists_step (h : Consistent outcomes p) (ht : 1 ≤ threads)
    (he : ¬ p.Ended outcomes) : ∃ q, Step threads outcomes p q := by
  by_cases hleft : p.jobs.length < outcomes.length
  · exact ⟨_, .submit hleft⟩
  have hlen : p.jobs.length = outcomes.length := by
    have := h.jobs_length
    omega
  by_cases hrunning : Job.running ∈ p.jobs
  · obtain ⟨i, hi⟩ := List.getElem?_of_mem hrunning
    obtain ⟨hlt, -⟩ := List.getElem?_eq_some_iff.1 hi
    obtain ⟨⟨address, outcome⟩, ho⟩ : ∃ outcome, outcomes[i]? = some outcome :=
      ⟨_, List.getElem?_eq_getElem (hlen ▸ hlt)⟩
    cases outcome with
    | ok stake => exact ⟨_, .succeed hi ho⟩
    | error fault => exact ⟨_, .fail hi ho⟩
  · -- all workers are free, and the first job that waits can be taken
    have hwaiting : ∃ i : Nat, p.jobs[i]? = some .waiting := by
      apply Classical.byContradiction
      intro hnone
      refine he ⟨hlen, fun job hjob => ?_⟩
      cases job with
      | waiting => exact absurd (List.getElem?_of_mem hjob) hnone
      | running => exact absurd hjob hrunning
      | cancelled | succeeded | failed => trivial
    have hfree : (p.busy : Int) < threads := by
      rw [busy, List.count_eq_zero.2 hrunning]
      omega
    exact ⟨_, .take hfree (Nat.find_spec hwaiting) fun j hj => Nat.find_min hwaiting hj⟩

/-- Every run can be brought to an end. -/
theorem Reachable.exists_ended (h : Reachable threads outcomes p) (ht : 1 ≤ threads) :
    ∃ q, Relation.ReflTransGen (Step threads outcomes) p q ∧ q.Ended outcomes := by
  induction hn : p.stepsLeft outcomes using Nat.strong_induction_on generalizing p with
  | _ n ih =>
    by_cases he : p.Ended outcomes
    · exact ⟨p, .refl, he⟩
    · obtain ⟨q, hs⟩ := h.consistent.exists_step ht he
      obtain ⟨r, hqr, hr⟩ := ih _ (hn ▸ hs.stepsLeft_lt) (h.tail hs) rfl
      exact ⟨r, .head hs hqr, hr⟩

/-- However a run goes, it can be brought to an end, and it ends as if the nodes had been evaluated
one after the other: with their stakes in order and the total, or with the failure of the first node
that fails. No slot is ever found unfilled. -/
theorem ending_eq_collect (hp : Reachable threads outcomes p) (ht : 1 ≤ threads) :
    (∃ q, Relation.ReflTransGen (Step threads outcomes) p q ∧ q.Ended outcomes) ∧
    (p.Ended outcomes →
      p.ending (outcomes.map Prod.fst) = .ofResult (EffectiveStakes.collect outcomes) ∧
      (∀ (m : Nat) address fault, outcomes[m]? = some (address, .error fault) →
        (∀ j < m, ∃ address stake, outcomes[j]? = some (address, .ok stake)) →
        p.ending (outcomes.map Prod.fst) = .raised fault) ∧
      p.ending (outcomes.map Prod.fst) ≠ .unfilled ∧
      ∀ (s : Snapshot) scale, outcomes = s.outcomes scale →
        s.checkConfiguration scale threads = .ok () →
        p.ending (outcomes.map Prod.fst) = .ofResult (s.effectiveStakes scale threads)) := by
  have hc := hp.consistent
  refine ⟨hp.exists_ended ht, fun he => ?_⟩
  have hend : p.ending (outcomes.map Prod.fst) = .ofResult (EffectiveStakes.collect outcomes) := by
    rcases EffectiveStakes.outcomes_cases outcomes with ⟨rows, rfl⟩ |
      ⟨rows, address, fault, rest, rfl⟩
    · rw [EffectiveStakes.map_fst_stakesOnly, hc.ending_stakesOnly he,
        EffectiveStakes.collect_stakesOnly]
      rfl
    · rw [EffectiveStakes.collect_failure]
      refine hc.ending_failure he (EffectiveStakes.getElem?_failure rows address fault rest)
        (fun j hj => ?_) _
      rw [EffectiveStakes.getElem?_before_failure hj]
      exact ⟨_, _, rfl⟩
  refine ⟨hend, fun m address fault hm hfirst => hc.ending_failure he hm hfirst _, ?_, ?_⟩
  · rw [hend]
    cases EffectiveStakes.collect outcomes <;> simp [Ending.ofResult]
  · rintro s scale rfl hcheck
    rw [hend, Snapshot.effectiveStakes_of_check hcheck]

/-- Four nodes, of which the second and the third fail. -/
def fourOutcomes : List (String × Except Fault Int) :=
  [("0xa", .ok 5), ("0xb", .error (.registeredLater 9 8)), ("0xc", .error .zeroSlotsPerEpoch),
    ("0xd", .ok 1)]

/-- The third node fails first, and the fourth one is cancelled before the second node fails; the
failure of the second is raised all the same. -/
theorem ending_fourOutcomes :
    let p : Pool := ⟨[.succeeded, .failed (.registeredLater 9 8), .failed .zeroSlotsPerEpoch,
      .cancelled], [some 5, none, none, none], true⟩
    Reachable 2 fourOutcomes p ∧ (1 : Int) ≤ 2 ∧ p.Ended fourOutcomes ∧
      p.ending (fourOutcomes.map Prod.fst) = .raised (.registeredLater 9 8) := by
  have hsubmitted : Reachable 2 fourOutcomes ⟨[.waiting, .waiting, .waiting, .waiting],
      [none, none, none, none], false⟩ :=
    .tail (.tail (.tail (.tail .refl (.submit (by decide))) (.submit (by decide)))
      (.submit (by decide))) (.submit (by decide))
  have hfirst : Reachable 2 fourOutcomes ⟨[.succeeded, .running, .waiting, .waiting],
      [some 5, none, none, none], false⟩ :=
    .tail (.tail (.tail hsubmitted (.take (i := 0) (by decide) rfl (by decide)))
      (.take (i := 1) (by decide) rfl (by decide))) (.succeed (i := 0) rfl rfl)
  have hthird : Reachable 2 fourOutcomes ⟨[.succeeded, .running, .failed .zeroSlotsPerEpoch,
      .waiting], [some 5, none, none, none], false⟩ :=
    .tail (.tail hfirst (.take (i := 2) (by decide) rfl (by decide))) (.fail (i := 2) rfl rfl)
  have hp : Reachable 2 fourOutcomes ⟨[.succeeded, .failed (.registeredLater 9 8),
      .failed .zeroSlotsPerEpoch, .cancelled], [some 5, none, none, none], true⟩ :=
    .tail (.tail (.tail hthird (.wake rfl rfl ⟨.zeroSlotsPerEpoch, by decide⟩))
      (.cancel (i := 3) rfl rfl)) (.fail (i := 1) rfl rfl)
  exact ⟨hp, by decide, ⟨rfl, by decide⟩,
    ((ending_eq_collect hp (by decide)).2 ⟨rfl, by decide⟩).1⟩

end Pool

end StakeSnapshot
