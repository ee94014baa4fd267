import StakeSnapshot.Snapshot.Build

/-!
# The readings of a snapshot as a trace

`Sources.recorded` records every reading that is made, with what it is given and what it answers.
`Leads` says of a piece of work that recording does not change it, and that the trace and the result
satisfy a condition; its rules follow the steps from which a snapshot is built.
-/

namespace StakeSnapshot

/-- A reading with what it is given. -/
inductive Query where
  | block (slot : Int)
  | price (block : Value)
  | minimumFraction (block : Value)
  | maximumFraction (block : Value)
  | rewardIndex (block : Value)
  | interval (index : Int) (block : Value)
  | shares (index : Int) (block : Value)
  | pendingRewards (index : Int) (block : Value)
  | nodes (block : Value)
  | minipools (block : Value)
  | validators (pubkeys : List String) (slot : Int)
  deriving DecidableEq

namespace Query

/-- What a reading answers. -/
def Answer : Query → Type
  | block _ => Value
  | price _ | minimumFraction _ | maximumFraction _ | rewardIndex _ => Int
  | interval _ _ | pendingRewards _ _ => Int
  | shares _ _ => RewardShares
  | nodes _ => List Node
  | minipools _ => List Minipool
  | validators _ _ => Table String Validator

/-- What is being read, if it is read at a block. -/
def reading? : Query → Option Reading
  | block _ => none
  | price _ => some .price
  | minimumFraction _ => some .minimumFraction
  | maximumFraction _ => some .maximumFraction
  | rewardIndex _ => some .rewardIndex
  | interval _ _ => some .interval
  | shares _ _ => some .shares
  | pendingRewards _ _ => some .pendingRewards
  | nodes _ => some .nodes
  | minipools _ => some .minipools
  | validators _ _ => some .validators

end Query

/-- A reading that was made, with its answer or its failure. -/
structure Event where
  query : Query
  answer : Except Fault query.Answer

/-- The failure of a reading. -/
def Event.failure? (e : Event) : Option Fault :=
  match e.answer with
  | .ok _ => none
  | .error fault => some fault

namespace Sources

variable {σ α β : Type}

/-- Work that ends with a result in a state. -/
def ended : Except Fault α → σ → EStateM.Result Fault σ α
  | .ok a, s => .ok a s
  | .error fault, s => .error fault s

theorem lift_eq_ended (x : Except Fault α) (s : σ) :
    (liftM x : EStateM Fault σ α) s = ended x s := by
  cases x <;> rfl

theorem ok_of_ended {x : Except Fault α} {s t : σ} {a : α} (h : ended x s = .ok a t) :
    x = .ok a ∧ s = t := by
  cases x with
  | ok b =>
    cases h
    exact ⟨rfl, rfl⟩
  | error fault => cases h

theorem error_of_ended {x : Except Fault α} {s t : σ} {fault : Fault}
    (h : ended x s = .error fault t) : x = .error fault ∧ s = t := by
  cases x with
  | ok b => cases h
  | error other =>
    cases h
    exact ⟨rfl, rfl⟩

theorem ended_inj {x y : Except Fault α} {s t : σ} (h : ended x s = ended y t) :
    x = y ∧ s = t := by
  cases x <;> cases y <;> cases h <;> exact ⟨rfl, rfl⟩

/-- A reading that is recorded. -/
def record (q : Query) (work : EStateM Fault σ q.Answer) :
    EStateM Fault (σ × List Event) q.Answer := fun s =>
  match work s.1 with
  | .ok a t => .ok a (t, s.2 ++ [⟨q, .ok a⟩])
  | .error fault t => .error fault (t, s.2 ++ [⟨q, .error fault⟩])

/-- The same readings, recorded. -/
def recorded (src : Sources σ String Node Minipool) :
    Sources (σ × List Event) String Node Minipool where
  block slot := record (.block slot) (src.block slot)
  price b := record (.price b) (src.price b)
  minimumFraction b := record (.minimumFraction b) (src.minimumFraction b)
  maximumFraction b := record (.maximumFraction b) (src.maximumFraction b)
  rewardIndex b := record (.rewardIndex b) (src.rewardIndex b)
  interval index b := record (.interval index b) (src.interval index b)
  shares index b := record (.shares index b) (src.shares index b)
  pendingRewards index b := record (.pendingRewards index b) (src.pendingRewards index b)
  nodes b := record (.nodes b) (src.nodes b)
  minipools b := record (.minipools b) (src.minipools b)
  validators pubkeys slot := record (.validators pubkeys slot) (src.validators pubkeys slot)
  told line s := (src.told line s.1, s.2)

/-- After the events `done`, recorded work ends as the plain work does, with a trace and a result
that satisfy `C`. -/
def Leads (done : List Event) (recd : EStateM Fault (σ × List Event) α) (plain : EStateM Fault σ α)
    (C : List Event → Except Fault α → Prop) : Prop :=
  ∀ s, ∃ trace result t, plain s = ended result t ∧ recd (s, done) = ended result (t, trace) ∧
    C trace result

variable {done : List Event} {C : List Event → Except Fault β → Prop}

theorem Leads.pure {b : β} (h : C done (.ok b)) :
    Leads (σ := σ) done (Pure.pure b) (Pure.pure b) C :=
  fun s => ⟨done, .ok b, s, rfl, rfl, h⟩

/-- A line that is told leaves no trace. -/
theorem Leads.tell {src : Sources σ String Node Minipool} {line : LogLine}
    {recd : Unit → EStateM Fault (σ × List Event) β} {plain : Unit → EStateM Fault σ β}
    (h : Leads done (recd ()) (plain ()) C) :
    Leads done (src.recorded.tell .silent line >>= recd) (src.tell .silent line >>= plain) C :=
  fun s => h (src.told line s)

theorem Leads.reading {q : Query} {what : Reading} {block : Value} {slot : Int}
    {work : EStateM Fault σ q.Answer} {recd : q.Answer → EStateM Fault (σ × List Event) β}
    {plain : q.Answer → EStateM Fault σ β}
    (hfail : ∀ cause, C (done ++ [⟨q, .error cause⟩])
      (.error (Fault.unavailable what block slot cause).raised))
    (hok : ∀ a, Leads (done ++ [⟨q, .ok a⟩]) (recd a) (plain a) C) :
    Leads done (reading what block slot (record q work) >>= recd)
      (reading what block slot work >>= plain) C := by
  intro s
  change ∃ trace result t, EStateM.bind _ _ _ = _ ∧ EStateM.bind _ _ _ = _ ∧ _
  unfold EStateM.bind Sources.reading record
  cases hw : work s with
  | ok a t => exact hok a t
  | error cause t => exact ⟨_, .error _, t, rfl, rfl, hfail cause⟩

theorem Leads.pinnedBlock {src : Sources σ String Node Minipool} {slot : Int}
    {recd : Value → EStateM Fault (σ × List Event) β} {plain : Value → EStateM Fault σ β}
    (hfail : ∀ cause,
      C (done ++ [⟨.block slot, .error cause⟩])
        (.error (Fault.blockUnavailable slot cause).raised))
    (hempty : C (done ++ [⟨.block slot, .ok Value.null⟩]) (.error (Fault.emptySlot slot).raised))
    (hok : ∀ b : Value, b ≠ .null →
      Leads (done ++ [⟨.block slot, .ok b⟩]) (recd b) (plain b) C) :
    Leads done (src.recorded.pinnedBlock slot >>= recd) (src.pinnedBlock slot >>= plain) C := by
  intro s
  unfold Sources.pinnedBlock
  change ∃ trace result t, EStateM.bind (EStateM.bind (attempt _) _) _ _ = _ ∧
    EStateM.bind (EStateM.bind (attempt (record _ _)) _) _ _ = _ ∧ _
  unfold EStateM.bind attempt record
  cases hw : src.block slot s with
  | error cause t => exact ⟨_, .error _, t, rfl, rfl, hfail cause⟩
  | ok a t =>
    cases a with
    | null => exact ⟨_, .error _, t, rfl, rfl, hempty⟩
    | _ => exact hok _ (by rintro ⟨⟩) t

/-- Both lists are read, whatever becomes of the first. -/
theorem Leads.lists {src : Sources σ String Node Minipool} {block : Value} {slot : Int}
    {recd : List Node × List Minipool → EStateM Fault (σ × List Event) β}
    {plain : List Node × List Minipool → EStateM Fault σ β}
    (hnodes : ∀ cause answer,
      C (done ++ [⟨.nodes block, .error cause⟩] ++ [⟨.minipools block, answer⟩])
        (.error (Fault.unavailable .nodes block slot cause).raised))
    (hminipools : ∀ ns cause,
      C (done ++ [⟨.nodes block, .ok ns⟩] ++ [⟨.minipools block, .error cause⟩])
        (.error (Fault.unavailable .minipools block slot cause).raised))
    (hok : ∀ (ns : List Node) (ms : List Minipool),
      Leads (done ++ [⟨.nodes block, .ok ns⟩] ++ [⟨.minipools block, .ok ms⟩])
        (recd (ns, ms)) (plain (ns, ms)) C) :
    Leads done (src.recorded.lists .silent block slot >>= recd)
      (src.lists .silent block slot >>= plain) C := by
  intro s
  unfold Sources.lists
  change ∃ trace result t,
    EStateM.bind (EStateM.bind (attempt (Sources.reading _ _ _ _)) fun _ =>
      EStateM.bind (attempt (Sources.reading _ _ _ _)) _) _ _ = _ ∧
    EStateM.bind (EStateM.bind (attempt (Sources.reading _ _ _ (record _ _))) fun _ =>
      EStateM.bind (attempt (Sources.reading _ _ _ (record _ _))) _) _ _ = _ ∧ _
  unfold EStateM.bind attempt Sources.reading record
  cases hn : src.nodes block s with
  | error cause t =>
    simp only []
    -- the second list is read all the same, and its answer is recorded
    cases hm : src.minipools block t with
    | error cause' u => exact ⟨_, .error _, u, rfl, rfl, hnodes cause (.error cause')⟩
    | ok ms u => exact ⟨_, .error _, u, rfl, rfl, hnodes cause (.ok ms)⟩
  | ok ns t =>
    simp only []
    cases hm : src.minipools block t with
    | error cause u => exact ⟨_, .error _, _, rfl, rfl, hminipools ns cause⟩
    | ok ms u => exact hok ns ms _

end Sources

end StakeSnapshot
