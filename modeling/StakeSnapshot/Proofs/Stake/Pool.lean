import Mathlib.Logic.Relation
import StakeSnapshot.Stake.Effective

/-!
# A pool of workers

The stakes of the nodes are calculated by a pool. One job for each node is submitted, in the order
of the nodes; at most as many workers as the limit allows take jobs, first in, first out, and finish
them in any order. Each job that succeeds fills its own slot of the results. Once a job has failed,
the main thread may wake up and cancel the jobs that nobody has taken, in any order, while workers go
on taking others. When no job is left to do, the main thread looks for a failure in the order of the
jobs, and without one adds up the slots.
-/

namespace StakeSnapshot

/-- What has become of a job that was submitted. -/
inductive Job where
  | waiting
  | running
  | cancelled
  | succeeded
  | failed (fault : Fault)
  deriving DecidableEq

namespace Job

/-- The failure of a job. -/
def fault? : Job → Option Fault
  | failed fault => some fault
  | _ => none

/-- Nothing more will happen to the job. -/
def Settled : Job → Prop
  | waiting | running => False
  | cancelled | succeeded | failed _ => True

instance : DecidablePred Settled
  | waiting | running => .isFalse id
  | cancelled | succeeded | failed _ => .isTrue trivial

/-- How many steps a job may still take. -/
def stepsLeft : Job → Nat
  | waiting => 2
  | running => 1
  | _ => 0

end Job

/-- The submitted jobs, the slots for all results, and whether the main thread has woken up. -/
structure Pool where
  jobs : List Job
  slots : List (Option Int)
  woken : Bool
  deriving DecidableEq

/-- How a calculation ends. -/
inductive Ending where
  | raised (fault : Fault)
  | returned (stakes : EffectiveStakes)
  | unfilled
  deriving DecidableEq

/-- The ending with a result that is known. -/
def Ending.ofResult : Except Fault EffectiveStakes → Ending
  | .ok stakes => returned stakes
  | .error fault => raised fault

namespace Pool

/-- The pool before the first job is submitted. -/
def start (size : Nat) : Pool := ⟨[], List.replicate size none, false⟩

/-- How many workers are busy. -/
def busy (p : Pool) : Nat := p.jobs.count .running

/-- The pool with the job `i` in another state. -/
def setJob (p : Pool) (i : Nat) (job : Job) : Pool := { p with jobs := p.jobs.set i job }

/-- The pool with the slot `i` filled. -/
def fill (p : Pool) (i : Nat) (stake : Int) : Pool := { p with slots := p.slots.set i (some stake) }

/-- What can happen next, where `outcomes` has what each job will arrive at. -/
inductive Step (threads : Int) (outcomes : List (String × Except Fault Int)) : Pool → Pool → Prop
  | submit {p : Pool} (hleft : p.jobs.length < outcomes.length) :
      Step threads outcomes p { p with jobs := p.jobs ++ [.waiting] }
  | take {p : Pool} {i : Nat} (hfree : p.busy < threads) (hi : p.jobs[i]? = some .waiting)
      (hfirst : ∀ j < i, p.jobs[j]? ≠ some .waiting) :
      Step threads outcomes p (p.setJob i .running)
  | succeed {p : Pool} {i : Nat} {address : String} {stake : Int}
      (hi : p.jobs[i]? = some .running) (ho : outcomes[i]? = some (address, .ok stake)) :
      Step threads outcomes p ((p.setJob i .succeeded).fill i stake)
  | fail {p : Pool} {i : Nat} {address : String} {fault : Fault}
      (hi : p.jobs[i]? = some .running) (ho : outcomes[i]? = some (address, .error fault)) :
      Step threads outcomes p (p.setJob i (.failed fault))
  | wake {p : Pool} (hall : p.jobs.length = outcomes.length) (hasleep : p.woken = false)
      (hfailed : ∃ fault, Job.failed fault ∈ p.jobs) :
      Step threads outcomes p { p with woken := true }
  | cancel {p : Pool} {i : Nat} (hwoken : p.woken = true) (hi : p.jobs[i]? = some .waiting) :
      Step threads outcomes p (p.setJob i .cancelled)

/-- The pool can be reached from the start. -/
def Reachable (threads : Int) (outcomes : List (String × Except Fault Int)) (p : Pool) : Prop :=
  Relation.ReflTransGen (Step threads outcomes) (start outcomes.length) p

/-- All jobs have been submitted, and none is left to do. -/
def Ended (outcomes : List (String × Except Fault Int)) (p : Pool) : Prop :=
  p.jobs.length = outcomes.length ∧ ∀ job ∈ p.jobs, job.Settled

/-- Adds up filled slots, starting with the given stakes. -/
def tally (stakes : EffectiveStakes) : List (String × Option Int) → Option EffectiveStakes
  | [] => some stakes
  | (_, none) :: _ => none
  | (address, some stake) :: rest =>
    tally ⟨Table.put stakes.byNode address stake, stakes.total + stake⟩ rest

/-- What the main thread makes of the jobs and the slots of the nodes at the given addresses. -/
def ending (addresses : List String) (p : Pool) : Ending :=
  match p.jobs.findSome? Job.fault? with
  | some fault => .raised fault
  | none =>
    match tally ⟨[], 0⟩ (addresses.zip p.slots) with
    | some stakes => .returned stakes
    | none => .unfilled

end Pool

end StakeSnapshot
