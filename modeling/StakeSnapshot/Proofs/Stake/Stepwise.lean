import StakeSnapshot.Proofs.Session
import StakeSnapshot.Proofs.Snapshot.Trace
import StakeSnapshot.Stake.Effective

/-!
# The calculation step by step

The calculation of the effective stakes with everything that it does on the way: lines are told to a
logger as the minipools are looked at, the nodes are evaluated one after the other until one fails, and
a division by zero would raise a fault, which the caller chooses. Whatever fault is chosen, the steps
end as the plain calculation does, so that no division by zero ever happens, and which lines have been
told by then is known (`namedSteps_eq`).
-/

namespace StakeSnapshot

/-! ### Divisions that are watched -/

/-- The quotient of two integers, rounded down; a divisor of zero raises a fault. -/
def watchedQuotient (byZero : Fault) (a b : Int) : Except Fault Int :=
  if b = 0 then .error byZero else .ok (a.fdiv b)

theorem watchedQuotient_of_pos (byZero : Fault) (a : Int) {b : Int} (h : 0 < b) :
    watchedQuotient byZero a b = .ok (a.fdiv b) := if_neg (by omega)

/-- The bounds for the given deposits, with both divisions watched. -/
def Collateral.watched (byZero : Fault) (d : Deposits) (price minimumFraction maximumFraction : Int) :
    Except Fault Collateral := do
  if price ≤ 0 then throw (Fault.priceNotPositive price .none).raised
  let minimum ← watchedQuotient byZero (d.borrowed * minimumFraction) price
  let maximum ← watchedQuotient byZero (d.bonded * maximumFraction) price
  return { minimum, maximum }

theorem Collateral.watched_eq (byZero : Fault) (d : Deposits)
    (price minimumFraction maximumFraction : Int) :
    watched byZero d price minimumFraction maximumFraction =
      ofDeposits d price minimumFraction maximumFraction := by
  unfold watched ofDeposits
  by_cases hprice : price ≤ 0
  · rw [if_pos hprice, if_pos hprice]
    rfl
  · have hpos : 0 < price := by omega
    rw [if_neg hprice, if_neg hprice, watchedQuotient_of_pos byZero _ hpos,
      watchedQuotient_of_pos byZero _ hpos]
    rfl

/-- The part of a stake that counts for the time since the registration, with the division
watched. -/
def watchedParticipation (byZero : Fault) (stake registered time interval : Int) :
    Except Fault Int :=
  let elapsed := time - registered
  if elapsed < 0 then .error (Fault.registeredLater registered time).raised
  else if elapsed < interval then watchedQuotient byZero (stake * elapsed) interval
  else .ok stake

theorem watchedParticipation_eq (byZero : Fault) (stake registered time interval : Int) :
    watchedParticipation byZero stake registered time interval =
      scaleByParticipation stake registered time interval := by
  unfold watchedParticipation scaleByParticipation
  dsimp only
  by_cases hlater : time - registered < 0
  · rw [if_pos hlater, if_pos hlater]
  · rw [if_neg hlater, if_neg hlater]
    by_cases hpart : time - registered < interval
    · rw [if_pos hpart, if_pos hpart, watchedQuotient_of_pos byZero _ (by omega)]
    · rw [if_neg hpart, if_neg hpart]

/-! ### The steps -/

/-- Work that may fail and that tells lines on the way. -/
abbrev Telling := EStateM Fault (List LogLine)

/-- Tells lines one after the other, as long as the logger takes them. -/
def Telling.tell (log : Logger) : List LogLine → Telling Unit
  | [] => pure ()
  | line :: rest => do
    log line
    modify (· ++ [line])
    tell log rest

/-- The lines up to the first one that the logger does not take. -/
def Logger.heard (log : Logger) (lines : List LogLine) : List LogLine :=
  lines.takeWhile fun line => (log line).isOk

namespace Logger
variable {log : Logger} {xs ys : List LogLine}

theorem heard_of_ok (h : log.tell xs = .ok ()) : log.heard xs = xs := by
  induction xs with
  | nil => rfl
  | cons line xs ih =>
    rw [tell] at h
    obtain ⟨_, hline, hxs⟩ := Except.ok_of_bind h
    rw [heard, List.takeWhile_cons_of_pos (by rw [hline]; rfl)]
    exact congrArg (List.cons line) (ih hxs)

theorem heard_append_of_ok (h : log.tell xs = .ok ()) : log.heard (xs ++ ys) = xs ++ log.heard ys := by
  induction xs with
  | nil => rfl
  | cons line xs ih =>
    rw [tell] at h
    obtain ⟨_, hline, hxs⟩ := Except.ok_of_bind h
    rw [heard, List.cons_append, List.takeWhile_cons_of_pos (by rw [hline]; rfl)]
    exact congrArg (List.cons line) (ih hxs)

theorem heard_append_of_error {fault : Fault} (h : log.tell xs = .error fault) :
    log.heard (xs ++ ys) = log.heard xs := by
  induction xs with
  | nil => cases h
  | cons line xs ih =>
    rw [tell] at h
    unfold heard
    cases hline : log line with
    | error other =>
      rw [List.cons_append, List.takeWhile_cons_of_neg (by rw [hline]; exact Bool.false_ne_true),
        List.takeWhile_cons_of_neg (by rw [hline]; exact Bool.false_ne_true)]
    | ok _ =>
      rw [hline] at h
      rw [List.cons_append, List.takeWhile_cons_of_pos (by rw [hline]; rfl),
        List.takeWhile_cons_of_pos (by rw [hline]; rfl)]
      exact congrArg (List.cons line) (ih h)

end Logger

open Sources (ended)

/-- Work that ends with a result, and what follows it. -/
theorem Telling.bind_eq {α β : Type} {work : Telling α} {next : α → Telling β} {x : Except Fault α}
    {f : α → Except Fault β} {s t u : List LogLine} (h : work s = ended x t)
    (hok : ∀ a, x = .ok a → next a t = ended (f a) u)
    (herror : ∀ fault, x = .error fault → t = u) : (work >>= next) s = ended (x >>= f) u := by
  cases x with
  | ok a => exact (Reads.bind_of_ok h).trans (hok a rfl)
  | error fault => exact (Reads.bind_of_error h).trans (by rw [herror fault rfl]; rfl)

theorem Telling.tell_eq (log : Logger) (lines told : List LogLine) :
    tell log lines told = ended (log.tell lines) (told ++ log.heard lines) := by
  induction lines generalizing told with
  | nil => rw [tell, Logger.heard, List.takeWhile_nil, List.append_nil]; rfl
  | cons line lines ih =>
    rw [tell, Logger.tell]
    cases hline : log line with
    | error fault =>
      rw [Logger.heard, List.takeWhile_cons_of_neg (by rw [hline]; exact Bool.false_ne_true),
        List.append_nil]
      rfl
    | ok _ =>
      have hnext := ih (told ++ [line])
      rw [List.append_assoc, List.singleton_append] at hnext
      rw [Logger.heard, List.takeWhile_cons_of_pos (by rw [hline]; rfl)]
      exact hnext

/-- The deposits so far with those of a minipool, if it counts. -/
def Standing.counted (d : Deposits) (m : Minipool) : Standing → Deposits
  | eligible => d.add ⟨m.borrowed, m.bonded⟩
  | _ => d

namespace Snapshot

variable (s : Snapshot) (log : Logger) (byZero : Fault) (scale : Bool)

/-- Adds the deposits of a minipool that counts, and tells why another one does not. -/
def countStep (d : Deposits) (m : Minipool) : Telling Deposits := do
  let standing ← s.standing m
  Telling.tell log (standing.note? m).toList
  return standing.counted d m

/-- The effective stake of a node whose minipools have the given deposits. -/
def watchedStake (n : Node) (d : Deposits) : Except Fault Int := do
  let collateral ← Collateral.watched byZero d s.parameters.price s.parameters.minimumFraction
    s.parameters.maximumFraction
  let stake := collateral.clamp n.stake
  if scale then
    (watchedParticipation byZero stake n.registered s.time s.parameters.interval).mapError
      (.nodeStake n.address)
  else return stake

/-- The effective stake of a node. -/
def nodeSteps (n : Node) : Telling Int := do
  let deposits ← (s.minipoolsOf n.address).foldlM (s.countStep log) .none
  s.watchedStake byZero scale n deposits

/-- The effective stake of a node; any failure names the node. -/
def namedSteps (n : Node) : Telling (String × Int) := fun told =>
  match s.nodeSteps log byZero scale n told with
  | .ok stake told => .ok (n.address, stake) told
  | .error fault told => .error (fault.atNode n.address) told

/-- The effective stakes of all nodes, one after the other. -/
def stakeSteps (threads : Int) : Telling EffectiveStakes := do
  s.checkConfiguration scale threads
  let rows ← s.nodes.mapM (s.namedSteps log byZero scale)
  return .ofRows rows

/-! ### The steps end as the calculation does -/

variable {s} {told : List LogLine}

/-- The deposits are counted minipool by minipool. -/
theorem eligibleDeposits_eq_foldlM (ms : List Minipool) :
    s.eligibleDeposits ms =
      ms.foldlM (fun d m => (s.standing m).map (·.counted d m)) Deposits.none := by
  rw [eligibleDeposits]
  congr 1
  funext d m
  cases s.standing m with
  | error fault => rfl
  | ok standing => cases standing <;> rfl

theorem countStep_of_error {m : Minipool} {fault : Fault} (h : s.standing m = .error fault)
    (d : Deposits) : s.countStep log d m told = .error fault told := by
  rw [countStep, h]
  rfl

theorem countStep_of_ok {m : Minipool} {standing : Standing} (h : s.standing m = .ok standing)
    (d : Deposits) :
    s.countStep log d m told =
      ended (log.tell (standing.note? m).toList >>= fun _ => .ok (standing.counted d m))
        (told ++ log.heard (standing.note? m).toList) := by
  rw [countStep, h]
  exact Telling.bind_eq (Telling.tell_eq log _ told) (fun _ _ => rfl) (fun _ _ => rfl)

/-- The lines of some minipools are told before the first one without a standing. -/
theorem foldlM_countStep (ms : List Minipool) (d : Deposits) (told : List LogLine) :
    ms.foldlM (s.countStep log) d told =
      ended (log.tell (s.notes ms) >>= fun _ =>
          ms.foldlM (fun d m => (s.standing m).map (·.counted d m)) d)
        (told ++ log.heard (s.notes ms)) := by
  induction ms generalizing d told with
  | nil =>
    rw [notes, Logger.heard, List.takeWhile_nil, List.append_nil]
    rfl
  | cons m ms ih =>
    rw [List.foldlM_cons, List.foldlM_cons, notes]
    cases hstanding : s.standing m with
    | error fault =>
      rw [Reads.bind_of_error (countStep_of_error log hstanding d)]
      dsimp only
      rw [Logger.heard, List.takeWhile_nil, List.append_nil]
      rfl
    | ok standing =>
      dsimp only
      rw [Logger.tell_append]
      have hstep : s.countStep log d m told = ended _ _ := countStep_of_ok log hstanding d
      cases hnote : log.tell (standing.note? m).toList with
      | error fault =>
        rw [hnote] at hstep
        rw [Logger.heard_append_of_error hnote]
        exact Reads.bind_of_error hstep
      | ok _ =>
        rw [hnote, Logger.heard_of_ok hnote] at hstep
        rw [Logger.heard_append_of_ok hnote, ← List.append_assoc]
        exact (Reads.bind_of_ok hstep).trans (ih _ _)

/-- The stake of a node follows from its deposits. -/
theorem nodeStake_eq_bind (n : Node) :
    s.nodeStake scale n =
      s.eligibleDeposits (s.minipoolsOf n.address) >>= s.watchedStake byZero scale n := by
  unfold nodeStake watchedStake
  simp only [Collateral.watched_eq, watchedParticipation_eq]

theorem nodeSteps_eq (n : Node) :
    s.nodeSteps log byZero scale n told =
      ended (log.tell (s.nodeNotes n) >>= fun _ => s.nodeStake scale n)
        (told ++ log.heard (s.nodeNotes n)) := by
  have hcount := foldlM_countStep (s := s) log (s.minipoolsOf n.address) .none told
  rw [← eligibleDeposits_eq_foldlM] at hcount
  rw [nodeSteps, nodeStake_eq_bind byZero scale n, nodeNotes, ← bind_assoc]
  exact Telling.bind_eq hcount (fun d _ => Sources.lift_eq_ended _ _) (fun _ _ => rfl)

theorem namedSteps_eq (n : Node) :
    s.namedSteps log byZero scale n told =
      ended ((s.toldStake log scale n).map fun stake => (n.address, stake))
        (told ++ log.heard (s.nodeNotes n)) := by
  rw [namedSteps, nodeSteps_eq, toldStake, namedStake]
  cases log.tell (s.nodeNotes n) with
  | error fault => rfl
  | ok _ => cases s.nodeStake scale n <;> rfl

/-- All lines of a node with a stake are told. -/
theorem heard_of_toldStake {n : Node} {stake : Int} (h : s.toldStake log scale n = .ok stake) :
    log.heard (s.nodeNotes n) = s.nodeNotes n := by
  refine Logger.heard_of_ok ?_
  obtain ⟨_, hnotes, -⟩ := Except.ok_of_bind h
  cases hlines : log.tell (s.nodeNotes n) with
  | ok _ => rfl
  | error fault =>
    rw [hlines] at hnotes
    cases hnotes

/-- As long as the nodes have stakes, their lines are told one after the other. -/
theorem mapM_namedSteps_of_ok {stake : Node → Int} {nodes : List Node}
    (h : ∀ n ∈ nodes, s.toldStake log scale n = .ok (stake n)) :
    nodes.mapM (s.namedSteps log byZero scale) told =
      .ok (nodes.map fun n => (n.address, stake n)) (told ++ nodes.flatMap s.nodeNotes) := by
  induction nodes generalizing told with
  | nil =>
    rw [List.flatMap_nil, List.append_nil]
    rfl
  | cons n nodes ih =>
    have hn := h n List.mem_cons_self
    have hstep : s.namedSteps log byZero scale n told =
        .ok (n.address, stake n) (told ++ s.nodeNotes n) := by
      rw [namedSteps_eq, heard_of_toldStake log scale hn, hn]
      rfl
    rw [List.mapM_cons, Reads.bind_of_ok hstep,
      Reads.bind_of_ok (ih fun m hm => h m (List.mem_cons_of_mem n hm)), List.append_assoc]
    rfl

/-- The first node that fails ends the steps. -/
theorem mapM_namedSteps_of_error {stake : Node → Int} {before after : List Node} {n : Node}
    {fault : Fault} (h : ∀ m ∈ before, s.toldStake log scale m = .ok (stake m))
    (hn : s.toldStake log scale n = .error fault) :
    (before ++ n :: after).mapM (s.namedSteps log byZero scale) told =
      .error fault (told ++ (before.flatMap s.nodeNotes ++ log.heard (s.nodeNotes n))) := by
  have hstep : ∀ told, s.namedSteps log byZero scale n told =
      .error fault (told ++ log.heard (s.nodeNotes n)) := by
    intro told
    rw [namedSteps_eq, hn]
    rfl
  rw [List.mapM_append, Reads.bind_of_ok (mapM_namedSteps_of_ok log byZero scale h), List.mapM_cons]
  refine Reads.bind_of_error ?_
  refine (Reads.bind_of_error (hstep _)).trans ?_
  rw [List.append_assoc]

end Snapshot

end StakeSnapshot
