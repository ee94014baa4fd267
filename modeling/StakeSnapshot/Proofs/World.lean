import StakeSnapshot.Contracts.Reader
import StakeSnapshot.Proofs.Session
import StakeSnapshot.Proofs.Snapshot.Trace

/-!
# Work over a world that does not change

In a `World` the answers do not depend on what was asked before. `Reads.Ends` says that work ends the
same way wherever it starts, as long as the session has a property that the work keeps; `Reads.Steady`
leaves out the result. Both are about families of works, so that a reading with the store and without
it can be said to end alike. Addresses that are remembered do not matter, as they are those that the
chain has (`Session.Knows`).
-/

namespace StakeSnapshot

/-- A beacon node whose answers depend on the address of a request and the keys asked for, and a
chain whose answers depend on the call. -/
structure World where
  beacon : String → Option String → Reply
  chain : Call → Except Fault Value

/-- A world as the outside of a session. -/
def World.outside (w : World) : Outside where
  beacon _ r := w.beacon (r.base ++ r.path) (r.keys.map (String.intercalate ","))
  chain _ c := w.chain c

namespace Reads

variable {ι κ α β : Type} {inv : ι → Session → Prop}

/-- Each of some works ends with the result, from every session with its property, and keeps the
property. -/
def Ends (inv : ι → Session → Prop) (work : ι → Reads α) (result : Except Fault α) : Prop :=
  ∀ i s, inv i s → ∃ t, work i s = Sources.ended result t ∧ inv i t

/-- Some works end alike, from every session with their properties. -/
def Steady (inv : ι → Session → Prop) (work : ι → Reads α) : Prop :=
  ∃ result, Ends inv work result

theorem Ends.steady {work : ι → Reads α} {result : Except Fault α} (h : Ends inv work result) :
    Steady inv work :=
  ⟨result, h⟩

/-! ### One step after the other -/

theorem Ends.pure (a : α) : Ends inv (fun _ => pure a) (.ok a) :=
  fun _ s hs => ⟨s, rfl, hs⟩

theorem Ends.lift (x : Except Fault α) : Ends inv (fun _ => liftM x) x :=
  fun _ s hs => ⟨s, Sources.lift_eq_ended x s, hs⟩

theorem Ends.bind_ok {work : ι → Reads α} {next : ι → α → Reads β} {a : α}
    {result : Except Fault β} (h : Ends inv work (.ok a)) (hnext : Ends inv (next · a) result) :
    Ends inv (fun i => work i >>= next i) result := by
  intro i s hs
  obtain ⟨t, hwork, ht⟩ := h i s hs
  obtain ⟨u, hrest, hu⟩ := hnext i t ht
  exact ⟨u, (bind_of_ok hwork).trans hrest, hu⟩

theorem Ends.bind_error {work : ι → Reads α} {next : ι → α → Reads β} {fault : Fault}
    (h : Ends inv work (.error fault)) :
    Ends inv (fun i => work i >>= next i) (.error fault) := by
  intro i s hs
  obtain ⟨t, hwork, ht⟩ := h i s hs
  exact ⟨t, bind_of_error hwork, ht⟩

theorem Ends.bind {work : ι → Reads α} {next : ι → α → Reads β} {x : Except Fault α}
    {f : α → Except Fault β} (h : Ends inv work x)
    (hnext : ∀ a, x = .ok a → Ends inv (next · a) (f a)) :
    Ends inv (fun i => work i >>= next i) (x >>= f) := by
  cases x with
  | error fault => exact h.bind_error
  | ok a => exact h.bind_ok (hnext a rfl)

theorem Steady.pure (a : α) : Steady inv (fun _ => pure a) := ⟨_, .pure a⟩

theorem Steady.lift (x : Except Fault α) : Steady inv (fun _ => liftM x) := ⟨_, .lift x⟩

theorem Steady.bind {work : ι → Reads α} {next : ι → α → Reads β} (h : Steady inv work)
    (hnext : ∀ a, Steady inv (next · a)) : Steady inv (fun i => work i >>= next i) := by
  obtain ⟨result, hresult⟩ := h
  cases result with
  | error fault => exact ⟨_, hresult.bind_error⟩
  | ok a =>
    obtain ⟨result, hrest⟩ := hnext a
    exact ⟨result, hresult.bind_ok hrest⟩

theorem Steady.mapM {f : ι → α → Reads β} (h : ∀ x, Steady inv (f · x)) (xs : List α) :
    Steady inv (fun i => xs.mapM (f i)) := by
  induction xs with
  | nil => exact .pure []
  | cons x xs ih =>
    simp only [List.mapM_cons]
    exact (h x).bind fun y => ih.bind fun rest => .pure (y :: rest)

theorem Steady.foldlM {f : ι → β → α → Reads β} {xs : List α}
    (h : ∀ x ∈ xs, ∀ b, Steady inv (f · b x)) (b : β) :
    Steady inv (fun i => xs.foldlM (f i) b) := by
  induction xs generalizing b with
  | nil => exact .pure b
  | cons x xs ih =>
    simp only [List.foldlM_cons]
    exact (h x List.mem_cons_self b).bind fun c =>
      ih (fun y hy => h y (List.mem_cons_of_mem x hy)) c

/-- What works end with is determined as soon as there is a session that they may start from. -/
theorem Ends.unique {work : ι → Reads α} {x y : Except Fault α} (hx : Ends inv work x)
    (hy : Ends inv work y) {i : ι} {s : Session} (hs : inv i s) : x = y := by
  obtain ⟨t, ht, -⟩ := hx i s hs
  obtain ⟨u, hu, -⟩ := hy i s hs
  rw [ht] at hu
  cases x <;> cases y <;> cases hu <;> rfl

/-- One work that is steady for each property is steady under any other names. -/
theorem Steady.comp {work : Reads α} (h : Steady inv fun _ => work) (i : ι) :
    Steady (fun _ : κ => inv i) fun _ => work := by
  obtain ⟨result, hresult⟩ := h
  exact ⟨result, fun _ => hresult i⟩

end Reads

/-! ### Addresses of contracts -/

/-- The address that the chain has for a contract at a block. -/
def World.addressOf (w : World) (storage contract : String) (block : Value) :
    Except Fault Value := do
  let address ← w.chain ⟨.text storage, Contracts.ViewFunction.address.name,
    some (.digest (Contracts.registryKey contract)), block⟩
  if ← ChainReader.isUnregistered address then throw (Fault.unregistered contract block).raised
  return address

/-- The addresses that are remembered are those of the chain at integer blocks, and the store has a
property. -/
structure Session.Knows (w : World) (storage : String) (P : Store → Prop) (s : Session) : Prop where
  addresses : ∀ contract key address,
    Table.find? s.addresses (contract, key) = some address →
      ∃ n : Int, key = .int n ∧ w.addressOf storage contract (.int n) = .ok address
  store : P s.store

variable {w : World} {storage : String} {P : Store → Prop} {s t : Session}

namespace Session.Knows

theorem start (store : Store) (h : P store) : (Session.start store).Knows w storage P where
  addresses := by
    intro contract key address h
    cases h
  store := h

theorem of_eq (hs : s.Knows w storage P) (hstore : t.store = s.store)
    (haddresses : t.addresses = s.addresses) : t.Knows w storage P := by
  refine ⟨?_, ?_⟩
  · rw [haddresses]
    exact hs.addresses
  · rw [hstore]
    exact hs.store

/-- An address that was found is remembered. -/
theorem resolved (hs : s.Knows w storage P) {contract : String} {block : Int} {address : Value}
    (h : w.addressOf storage contract (.int block) = .ok address) :
    ({ s with addresses := Table.put s.addresses (contract, .int block) address } : Session).Knows
      w storage P := by
  refine ⟨?_, hs.store⟩
  intro contract' key address' hfind
  by_cases heq : (contract, Value.int block) = (contract', key)
  · cases heq
    rw [Table.find?_put_self] at hfind
    cases hfind
    exact ⟨block, rfl, h⟩
  · rw [Table.find?_put_of_ne heq] at hfind
    exact hs.addresses contract' key address' hfind

end Session.Knows

end StakeSnapshot
