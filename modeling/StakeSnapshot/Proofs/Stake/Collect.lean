import Mathlib.Tactic.Choose
import StakeSnapshot.Stake.Effective

/-!
# Collecting outcomes

Every list of outcomes is either the outcomes of rows that all have a stake, or starts with such
rows and goes on with a failure (`outcomes_cases`). In the first case the collected stakes are those
of the rows, in the second the failure is the result.
-/

namespace StakeSnapshot
namespace EffectiveStakes

/-- The outcomes of rows that all have a stake. -/
def stakesOnly (rows : List (String × Int)) : List (String × Except Fault Int) :=
  rows.map fun row => (row.1, .ok row.2)

theorem length_stakesOnly (rows : List (String × Int)) :
    (stakesOnly rows).length = rows.length := by
  simp [stakesOnly]

theorem map_fst_stakesOnly (rows : List (String × Int)) :
    (stakesOnly rows).map Prod.fst = rows.map Prod.fst := by
  simp [stakesOnly]

theorem getElem?_stakesOnly (rows : List (String × Int)) (i : Nat) :
    (stakesOnly rows)[i]? = rows[i]?.map fun row => (row.1, .ok row.2) := by
  rw [stakesOnly, List.getElem?_map]

theorem mapM_stakesOnly (rows : List (String × Int)) :
    ((stakesOnly rows).mapM fun (address, outcome) =>
      outcome.map fun stake => (address, stake)) = Except.ok (ε := Fault) rows := by
  induction rows with
  | nil => rfl
  | cons row rows ih =>
    simp only [stakesOnly, List.map_cons, List.mapM_cons] at ih ⊢
    rw [ih]
    rfl

theorem collect_stakesOnly (rows : List (String × Int)) :
    collect (stakesOnly rows) = .ok (ofRows rows) := by
  rw [collect, mapM_stakesOnly]
  rfl

/-- The first failure is the result, whatever comes behind it. -/
theorem collect_failure (rows : List (String × Int)) (address : String) (fault : Fault)
    (rest : List (String × Except Fault Int)) :
    collect (stakesOnly rows ++ (address, .error fault) :: rest) = .error fault := by
  rw [collect, List.mapM_append, mapM_stakesOnly, List.mapM_cons]
  rfl

theorem getElem?_failure (rows : List (String × Int)) (address : String) (fault : Fault)
    (rest : List (String × Except Fault Int)) :
    (stakesOnly rows ++ (address, .error fault) :: rest)[rows.length]? =
      some (address, .error fault) := by
  rw [List.getElem?_append_right (Nat.le_of_eq (length_stakesOnly rows)), length_stakesOnly,
    Nat.sub_self]
  rfl

theorem getElem?_before_failure {rows : List (String × Int)}
    {rest : List (String × Except Fault Int)} {i : Nat} (hi : i < rows.length) :
    (stakesOnly rows ++ rest)[i]? = some (rows[i].1, .ok rows[i].2) := by
  rw [List.getElem?_append_left (by rwa [length_stakesOnly]), getElem?_stakesOnly,
    List.getElem?_eq_getElem hi]
  rfl

/-- If every node has a stake, the result is the table of these stakes with their sum. -/
theorem collect_of_stakes {f : Node → Except Fault Int} {stake : Node → Int} {nodes : List Node}
    (h : ∀ n ∈ nodes, f n = .ok (stake n)) :
    collect (nodes.map fun n => (n.address, f n)) =
      .ok (.ofRows (nodes.map fun n => (n.address, stake n))) := by
  have hrows : nodes.map (fun n => (n.address, f n)) =
      stakesOnly (nodes.map fun n => (n.address, stake n)) := by
    rw [stakesOnly, List.map_map]
    exact List.map_congr_left fun n hn => by rw [h n hn]; rfl
  rw [hrows, collect_stakesOnly]

/-- The first node that fails decides. -/
theorem collect_of_first {f : Node → Except Fault Int} {stake : Node → Int}
    {before after : List Node} {n : Node} {fault : Fault}
    (h : ∀ m ∈ before, f m = .ok (stake m)) (hn : f n = .error fault) :
    collect ((before ++ n :: after).map fun m => (m.address, f m)) = .error fault := by
  have hrows : before.map (fun m => (m.address, f m)) =
      stakesOnly (before.map fun m => (m.address, stake m)) := by
    rw [stakesOnly, List.map_map]
    exact List.map_congr_left fun m hm => by rw [h m hm]; rfl
  rw [List.map_append, List.map_cons, hn, hrows, collect_failure]

/-- All rows have a stake, or there is a first one that failed. -/
theorem outcomes_cases (outcomes : List (String × Except Fault Int)) :
    (∃ rows, outcomes = stakesOnly rows) ∨
      ∃ rows address fault rest, outcomes = stakesOnly rows ++ (address, .error fault) :: rest := by
  induction outcomes with
  | nil => exact .inl ⟨[], rfl⟩
  | cons outcome outcomes ih =>
    obtain ⟨address, result⟩ := outcome
    cases result with
    | error fault => exact .inr ⟨[], address, fault, outcomes, rfl⟩
    | ok stake =>
      rcases ih with ⟨rows, rfl⟩ | ⟨rows, other, fault, rest, rfl⟩
      · exact .inl ⟨(address, stake) :: rows, rfl⟩
      · exact .inr ⟨(address, stake) :: rows, other, fault, rest, rfl⟩

/-- There is a result exactly if every node has a stake. -/
theorem collect_eq_ok_iff {f : Node → Except Fault Int} {nodes : List Node} {x : EffectiveStakes} :
    collect (nodes.map fun n => (n.address, f n)) = .ok x ↔
      ∃ stake : Node → Int, (∀ n ∈ nodes, f n = .ok (stake n)) ∧
        x = .ofRows (nodes.map fun n => (n.address, stake n)) := by
  constructor
  · intro h
    have hstakes : ∀ n ∈ nodes, ∃ stake, f n = .ok stake := by
      intro n hn
      have hmem : (n.address, f n) ∈ nodes.map fun n => (n.address, f n) :=
        List.mem_map.2 ⟨n, hn, rfl⟩
      rcases outcomes_cases (nodes.map fun n => (n.address, f n)) with
        ⟨rows, hrows⟩ | ⟨rows, address, fault, rest, hrows⟩
      · rw [hrows] at hmem
        obtain ⟨row, -, hrow⟩ := List.mem_map.1 hmem
        exact ⟨row.2, (congrArg Prod.snd hrow).symm⟩
      · rw [hrows, collect_failure] at h
        cases h
    choose! stake hstake using hstakes
    rw [collect_of_stakes hstake] at h
    exact ⟨stake, hstake, (Except.ok.inj h).symm⟩
  · rintro ⟨stake, hstake, rfl⟩
    exact collect_of_stakes hstake

end EffectiveStakes

namespace Snapshot

variable {s : Snapshot} {scale : Bool} {threads : Int}

/-- What the calculation arrives at for the rows, one after the other. -/
def outcomes (s : Snapshot) (scale : Bool) : List (String × Except Fault Int) :=
  s.nodes.map fun n => (n.address, s.namedStake scale n)

theorem effectiveStakes_of_check (hc : s.checkConfiguration scale threads = .ok ()) :
    s.effectiveStakes scale threads = EffectiveStakes.collect (s.outcomes scale) := by
  rw [effectiveStakes, hc]
  rfl

/-- If every row has a stake, the result is the table of these stakes with their sum. -/
theorem effectiveStakes_of_namedStake {stake : Node → Int}
    (hc : s.checkConfiguration scale threads = .ok ())
    (hn : ∀ n ∈ s.nodes, s.namedStake scale n = .ok (stake n)) :
    s.effectiveStakes scale threads =
      .ok (.ofRows (s.nodes.map fun n => (n.address, stake n))) := by
  rw [effectiveStakes_of_check hc, outcomes, EffectiveStakes.collect_of_stakes hn]

end Snapshot

end StakeSnapshot
