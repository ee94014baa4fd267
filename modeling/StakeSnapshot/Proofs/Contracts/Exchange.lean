import Mathlib.Data.List.Forall2
import StakeSnapshot.Proofs.Contracts.Reader
import StakeSnapshot.Proofs.Store.Kept

/-!
# What is heard from a chain

The chain may answer the same call differently each time. `Session.Hears` lists the calls that some
work makes, in order, each with the answer that it got. A list that is read from the chain is heard in
one way (`ListHeard`): the count, the address at each index below it, and then what there is to know
about one address after the other. The rows are made of nothing else (`ChainReader.NodesHeard`,
`ChainReader.MinipoolsHeard`).
-/

namespace StakeSnapshot
open Contracts

/-- A call with the answer to it. -/
abbrev Exchange := Call × Value

/-- Calls that are made in a lane one after the other lead from one history to another, each of them
with its answer. -/
inductive Outside.Exchanges (out : Outside) (lane : Lane) :
    History → List Exchange → History → Prop
  | none {h : History} : Exchanges out lane h [] h
  | next {h t : History} {c : Call} {v : Value} {rest : List Exchange}
      (hanswer : out.chain h c = .ok v)
      (hrest : Exchanges out lane (h ++ [(lane, .call c)]) rest t) :
      Exchanges out lane h ((c, v) :: rest) t

theorem Outside.Exchanges.append {out : Outside} {lane : Lane} {h t u : History}
    {xs ys : List Exchange} (hxs : out.Exchanges lane h xs t) (hys : out.Exchanges lane t ys u) :
    out.Exchanges lane h (xs ++ ys) u := by
  induction hxs with
  | none => exact hys
  | next hanswer _ ih => exact .next hanswer (ih hys)

/-- From one session to another nothing is asked but these calls, with these answers. -/
structure Session.Hears (out : Outside) (s : Session) (heard : List Exchange) (t : Session) :
    Prop where
  lane : t.lane = s.lane
  exchanges : out.Exchanges s.lane s.history heard t.history

variable {out : Outside} {s t u : Session} {xs ys : List Exchange} {block : Value}

theorem Session.Hears.refl : s.Hears out [] s := ⟨rfl, .none⟩

theorem Session.Hears.trans (hxs : s.Hears out xs t) (hys : t.Hears out ys u) :
    s.Hears out (xs ++ ys) u where
  lane := hys.lane.trans hxs.lane
  exchanges := hxs.exchanges.append (hxs.lane ▸ hys.exchanges)

/-- The store and the addresses do not matter for what is heard. -/
theorem Session.Hears.of_eq (h : s.Hears out xs t) {s' t' : Session} (hlane : s'.lane = s.lane)
    (hhistory : s'.history = s.history) (hlane' : t'.lane = t.lane)
    (hhistory' : t'.history = t.history) : s'.Hears out xs t' where
  lane := by rw [hlane', h.lane, hlane]
  exchanges := by
    rw [hlane, hhistory, hhistory']
    exact h.exchanges

/-! ### Single calls -/

/-- A function of the contract at an address, with what it answers. -/
def ViewFunction.heard (f : ViewFunction) (address : Value) (argument : Option Argument)
    (block v : Value) : Exchange :=
  (⟨address, f.name, argument, block⟩, v)

namespace ChainReader

theorem ask_hears {address : Value} {f : ViewFunction} {argument : Option Argument} {v : Value}
    (h : ask out address f argument block s = .ok v t) :
    s.Hears out [ViewFunction.heard f address argument block v] t := by
  unfold ask Reads.call at h
  dsimp only at h
  cases hanswer : out.chain s.history ⟨address, f.name, argument, block⟩ with
  | ok w =>
    rw [hanswer] at h
    cases h
    exact ⟨rfl, .next hanswer .none⟩
  | error fault =>
    rw [hanswer] at h
    cases h

theorem askInt_hears {address : Value} {f : ViewFunction} {argument : Option Argument} {n : Int}
    (h : askInt out address f argument block s = .ok n t) :
    ∃ v, v.toInteger 0 = .ok n ∧
      s.Hears out [ViewFunction.heard f address argument block v] t := by
  obtain ⟨v, u, hv, h₁⟩ := Reads.ok_of_bind h
  obtain ⟨hn, rfl⟩ := Reads.ok_of_lift h₁
  exact ⟨v, hn, ask_hears hv⟩

/-- The address that the storage gives for a contract. -/
def resolution (r : ChainReader) (contract : String) (block address : Value) : Exchange :=
  ViewFunction.heard .address (.text r.storage) (some (.digest (registryKey contract))) block address

/-- For the address of a contract nothing is asked, or the storage is. -/
theorem resolve_hears {r : ChainReader} {contract : String} {address : Value}
    (h : r.resolve out contract block s = .ok address t) :
    ∃ heard, s.Hears out heard t ∧ ∀ x ∈ heard, x = r.resolution contract block address := by
  obtain ⟨key, s', hkey, h₀⟩ := Reads.ok_of_bind h
  obtain ⟨-, rfl⟩ := Reads.ok_of_lift hkey
  obtain ⟨here, u, hget, h'⟩ := Reads.ok_of_bind h₀
  cases hget
  cases hfind : Table.find? s'.addresses (contract, key) with
  | some known =>
    rw [hfind] at h'
    obtain ⟨rfl, rfl⟩ := Reads.ok_of_pure h'
    exact ⟨[], .refl, by simp⟩
  | none =>
    rw [hfind] at h'
    obtain ⟨found, u, hfound, hrest⟩ := Reads.ok_of_bind h'
    obtain ⟨unregistered, w, hunregistered, hkeep⟩ := Reads.ok_of_bind hrest
    obtain ⟨-, rfl⟩ := Reads.ok_of_lift hunregistered
    dsimp only at hkeep
    cases unregistered with
    | true => cases hkeep
    | false =>
      cases hkeep
      exact ⟨_, (ask_hears hfound).of_eq rfl rfl rfl rfl, by simp [resolution]⟩

end ChainReader

/-! ### Lists -/

/-- The addresses at the indices from `start` on. -/
def ViewFunction.entriesHeard (entryAt : ViewFunction) (contract block : Value) (start : Nat)
    (addresses : List Value) : List Exchange :=
  addresses.mapIdx fun i address =>
    heard entryAt contract (some (.index (start + i))) block address

theorem ViewFunction.entriesHeard_cons (entryAt : ViewFunction) (contract block : Value)
    (start : Nat) (address : Value) (rest : List Value) :
    entriesHeard entryAt contract block start (address :: rest) =
      heard entryAt contract (some (.index start)) block address ::
        entriesHeard entryAt contract block (start + 1) rest := by
  simp [entriesHeard, List.mapIdx_cons, Nat.add_assoc, Nat.add_comm 1]

/-- A list of rows with addresses is heard from a contract: its count, the addresses at the indices
0, 1, 2 and so on below the count, and about each row what makes it up, in this order. -/
def ListHeard {α : Type} (contract : Value) (count entryAt : ViewFunction) (block : Value)
    (address : α → Value) (About : α → List Exchange → Prop) (rows : List α)
    (heard : List Exchange) : Prop :=
  ∃ v n details, v.toInteger 0 = .ok n ∧ rows.length = n.toNat ∧ List.Forall₂ About rows details ∧
    heard = ViewFunction.heard count contract none block v ::
      ViewFunction.entriesHeard entryAt contract block 0 (rows.map address) ++ details.flatten

namespace ChainReader

theorem addressesFrom_hears {contract : Value} {entryAt : ViewFunction} {count start : Nat}
    {found : List Value} (h : addressesFrom out contract entryAt block count start s = .ok found t) :
    found.length = count ∧
      s.Hears out (ViewFunction.entriesHeard entryAt contract block start found) t := by
  induction count generalizing start found s with
  | zero =>
    obtain ⟨rfl, rfl⟩ := Reads.ok_of_pure h
    exact ⟨rfl, .refl⟩
  | succ count ih =>
    obtain ⟨address, u, haddress, h₁⟩ := Reads.ok_of_bind h
    obtain ⟨rest, w, hrest, h₂⟩ := Reads.ok_of_bind h₁
    obtain ⟨rfl, rfl⟩ := Reads.ok_of_pure h₂
    obtain ⟨hlength, hentries⟩ := ih hrest
    rw [ViewFunction.entriesHeard_cons]
    exact ⟨congrArg (· + 1) hlength, (ask_hears haddress).trans hentries⟩

theorem addresses_hears {contract : Value} {count entryAt : ViewFunction} {found : List Value}
    (h : addresses out contract count entryAt block s = .ok found t) :
    ∃ v n, v.toInteger 0 = .ok n ∧ found.length = n.toNat ∧
      s.Hears out (ViewFunction.heard count contract none block v ::
        ViewFunction.entriesHeard entryAt contract block 0 found) t := by
  obtain ⟨n, u, hn, h₁⟩ := Reads.ok_of_bind h
  obtain ⟨v, hint, hcount⟩ := askInt_hears hn
  dsimp only at h₁
  by_cases hlimit : countLimit ≤ n
  · rw [if_pos hlimit] at h₁
    cases h₁
  · rw [if_neg hlimit] at h₁
    obtain ⟨hlength, hentries⟩ := addressesFrom_hears h₁
    exact ⟨v, n, hint, hlength, hcount.trans hentries⟩

/-- Rows that are read one after the other are heard so. -/
theorem mapM_hears {α : Type} {f : Value → Reads α} {address : α → Value}
    {About : α → List Exchange → Prop}
    (hf : ∀ {s t x row}, f x s = .ok row t →
      address row = x ∧ ∃ heard, Session.Hears out s heard t ∧ About row heard)
    {xs : List Value} {rows : List α} (h : xs.mapM f s = .ok rows t) :
    rows.map address = xs ∧
      ∃ details, s.Hears out details.flatten t ∧ List.Forall₂ About rows details := by
  induction xs generalizing rows s with
  | nil =>
    obtain ⟨rfl, rfl⟩ := Reads.ok_of_mapM_nil h
    exact ⟨rfl, [], .refl, .nil⟩
  | cons x xs ih =>
    obtain ⟨row, u, rest, hrow, hrest, rfl⟩ := Reads.ok_of_mapM_cons h
    obtain ⟨hx, heard, hheard, habout⟩ := hf hrow
    obtain ⟨hxs, details, hdetails, hall⟩ := ih hrest
    exact ⟨by rw [List.map_cons, hx, hxs], heard :: details, hheard.trans hdetails,
      .cons habout hall⟩

/-- A list whose rows are read one after the other is heard in the order of its addresses. -/
theorem list_hears {α : Type} {f : Value → Reads α} {address : α → Value}
    {About : α → List Exchange → Prop} {contract : Value} {count entryAt : ViewFunction}
    {found : List Value} {rows : List α}
    (hf : ∀ {s t x row}, f x s = .ok row t →
      address row = x ∧ ∃ heard, Session.Hears out s heard t ∧ About row heard)
    (hfound : addresses out contract count entryAt block s = .ok found u)
    (hrows : found.mapM f u = .ok rows t) :
    ∃ heard, s.Hears out heard t ∧
      ListHeard contract count entryAt block address About rows heard := by
  obtain ⟨v, n, hint, hlength, hheard⟩ := addresses_hears hfound
  obtain ⟨rfl, details, hdetails, hall⟩ := mapM_hears hf hrows
  rw [List.length_map] at hlength
  exact ⟨_, hheard.trans hdetails, v, n, details, hint, hlength, hall, rfl⟩

end ChainReader

/-- What is heard about a node at its address, and nothing else, makes up its row. -/
def NodeRow.HeardAs (manager staking block : Value) (row : NodeRow) (heard : List Exchange) : Prop :=
  ∃ stake registered n k,
    heard = [ViewFunction.heard .nodeStake staking (some (.value row.address)) block stake,
      ViewFunction.heard .registrationTime manager (some (.value row.address)) block registered] ∧
    stake.toInteger 0 = .ok n ∧ row.stake = .int n ∧
    registered.toInteger 0 = .ok k ∧ row.registered = .int k

/-- What is heard about a minipool at its address, and nothing else, makes up its row. -/
def MinipoolRow.HeardAs (manager block : Value) (row : MinipoolRow) (heard : List Exchange) : Prop :=
  ∃ key present status borrowed bonded n k,
    heard = [ViewFunction.heard .minipoolOwner row.address none block row.owner,
      ViewFunction.heard .minipoolPubkey manager (some (.value row.address)) block key,
      ViewFunction.heard .minipoolExists manager (some (.value row.address)) block present,
      ViewFunction.heard .minipoolStatus row.address none block status,
      ViewFunction.heard .borrowedDeposit row.address none block borrowed,
      ViewFunction.heard .bondedDeposit row.address none block bonded] ∧
    key.pubkeyForm = .ok row.pubkey ∧ row.present = .bool present.truth ∧
    status.toInteger 0 = .ok row.status.code ∧ borrowed.toInteger 0 = .ok n ∧
    row.borrowed = .int n ∧ bonded.toInteger 0 = .ok k ∧ row.bonded = .int k

namespace ChainReader

theorem nodeRow_hears {manager staking address : Value} {row : NodeRow}
    (h : nodeRow out manager staking block address s = .ok row t) :
    row.address = address ∧
      ∃ heard, s.Hears out heard t ∧ row.HeardAs manager staking block heard := by
  obtain ⟨stake, u, hstake, h₁⟩ := Reads.ok_of_bind h
  obtain ⟨registered, v, hregistered, h₂⟩ := Reads.ok_of_bind h₁
  obtain ⟨rfl, rfl⟩ := Reads.ok_of_pure h₂
  obtain ⟨w₁, hint₁, hheard₁⟩ := askInt_hears hstake
  obtain ⟨w₂, hint₂, hheard₂⟩ := askInt_hears hregistered
  exact ⟨rfl, _, hheard₁.trans hheard₂, w₁, w₂, stake, registered, rfl, hint₁, rfl, hint₂, rfl⟩

theorem minipoolRow_hears {manager address : Value} {row : MinipoolRow}
    (h : minipoolRow out manager block address s = .ok row t) :
    row.address = address ∧ ∃ heard, s.Hears out heard t ∧ row.HeardAs manager block heard := by
  obtain ⟨owner, s₁, howner, h₁⟩ := Reads.ok_of_bind h
  obtain ⟨key, s₂, hkey, h₂⟩ := Reads.ok_of_bind h₁
  obtain ⟨pubkey, s₂', hv, h₃⟩ := Reads.ok_of_bind h₂
  obtain ⟨hpubkey, rfl⟩ := Reads.ok_of_lift hv
  obtain ⟨present, s₃, hpresent, h₄⟩ := Reads.ok_of_bind h₃
  obtain ⟨n, s₄, hn, h₅⟩ := Reads.ok_of_bind h₄
  obtain ⟨status, s₄', hv, h₆⟩ := Reads.ok_of_bind h₅
  obtain ⟨hstatus, rfl⟩ := Reads.ok_of_lift hv
  obtain ⟨borrowed, s₅, hborrowed, h₇⟩ := Reads.ok_of_bind h₆
  obtain ⟨bonded, s₆, hbonded, h₈⟩ := Reads.ok_of_bind h₇
  obtain ⟨rfl, rfl⟩ := Reads.ok_of_pure h₈
  obtain ⟨w₄, hint₄, hheard₄⟩ := askInt_hears hn
  obtain ⟨w₅, hint₅, hheard₅⟩ := askInt_hears hborrowed
  obtain ⟨w₆, hint₆, hheard₆⟩ := askInt_hears hbonded
  rw [MinipoolStatus.ofValue_int_eq_ok_iff.1 hstatus] at hint₄
  have hheard := (ask_hears howner).trans ((ask_hears hkey).trans
    ((ask_hears hpresent).trans (hheard₄.trans (hheard₅.trans hheard₆))))
  exact ⟨rfl, _, hheard, key, present, w₄, w₅, w₆, borrowed, bonded, rfl, hpubkey, rfl, hint₄, hint₅,
    rfl, hint₆, rfl⟩

variable {r : ChainReader}

/-- A list that is not in the store is heard from the chain. -/
theorem storedList_hears {α : Type} {q : Store.StoredReading} {ofValue : Value → Except Fault α}
    {toValue : α → Value} {fresh : Reads (List α)} {rows : List α} {P : List Exchange → Prop}
    (hfresh : ∀ {s t}, fresh s = .ok rows t → ∃ heard, Session.Hears out s heard t ∧ P heard)
    (hq : r.useStore = true → s.store.load q.key = .ok none)
    (h : r.storedList q ofValue toValue fresh s = .ok rows t) :
    ∃ heard, s.Hears out heard t ∧ P heard := by
  rw [storedList_eq_kept] at h
  have hend := Reads.keptEnd r.useStore q (rowsOf ofValue)
    (fun rows => some (.list (rows.map toValue))) fresh s
  rw [h] at hend
  generalize hended : EStateM.Result.ok rows t = x at hend
  cases hend with
  | barred | failed | refused => cases hended
  | unused => exact hfresh hended.symm
  | formless _ _ _ hform => cases hform
  | stored huse hlook =>
    cases (Store.load_of_look hlook).symm.trans (hq huse)
  | formed _ _ hresult =>
    cases hended
    obtain ⟨heard, hheard, hP⟩ := hfresh hresult
    exact ⟨heard, hheard.of_eq rfl rfl rfl rfl, hP⟩

/-- What is heard when the list of nodes is read: the addresses of two contracts if they are not
remembered, and then the list. -/
def NodesHeard (r : ChainReader) (block : Value) (rows : List NodeRow) (heard : List Exchange) : Prop :=
  ∃ manager staking resolved list, heard = resolved ++ list ∧
    (∀ x ∈ resolved, x = r.resolution nodeManager block manager ∨
      x = r.resolution nodeStaking block staking) ∧
    ListHeard manager .nodeCount .nodeAt block NodeRow.address
      (NodeRow.HeardAs manager staking block) rows list

/-- What is heard when the list of minipools is read: the address of the manager if it is not
remembered, and then the list. -/
def MinipoolsHeard (r : ChainReader) (block : Value) (rows : List MinipoolRow)
    (heard : List Exchange) : Prop :=
  ∃ manager resolved list, heard = resolved ++ list ∧
    (∀ x ∈ resolved, x = r.resolution minipoolManager block manager) ∧
    ListHeard manager .minipoolCount .minipoolAt block MinipoolRow.address
      (MinipoolRow.HeardAs manager block) rows list

theorem freshNodes_hears {rows : List NodeRow} (h : r.freshNodes out block s = .ok rows t) :
    ∃ heard, s.Hears out heard t ∧ r.NodesHeard block rows heard := by
  obtain ⟨manager, s₁, hmanager, h₁⟩ := Reads.ok_of_bind h
  obtain ⟨staking, s₂, hstaking, h₂⟩ := Reads.ok_of_bind h₁
  obtain ⟨found, s₃, hfound, hrows⟩ := Reads.ok_of_bind h₂
  obtain ⟨xs, hxs, hmanager⟩ := resolve_hears hmanager
  obtain ⟨ys, hys, hstaking⟩ := resolve_hears hstaking
  obtain ⟨list, hlist, hheard⟩ := list_hears (fun h => nodeRow_hears h) hfound hrows
  refine ⟨_, (hxs.trans hys).trans hlist, manager, staking, xs ++ ys, list, rfl, ?_, hheard⟩
  intro x hx
  rcases List.mem_append.1 hx with hx | hx
  · exact .inl (hmanager x hx)
  · exact .inr (hstaking x hx)

theorem freshMinipools_hears {rows : List MinipoolRow}
    (h : r.freshMinipools out block s = .ok rows t) :
    ∃ heard, s.Hears out heard t ∧ r.MinipoolsHeard block rows heard := by
  obtain ⟨manager, s₁, hmanager, h₁⟩ := Reads.ok_of_bind h
  obtain ⟨found, s₂, hfound, hrows⟩ := Reads.ok_of_bind h₁
  obtain ⟨xs, hxs, hmanager⟩ := resolve_hears hmanager
  obtain ⟨list, hlist, hheard⟩ := list_hears (fun h => minipoolRow_hears h) hfound hrows
  exact ⟨_, hxs.trans hlist, manager, xs, list, rfl, hmanager, hheard⟩

/-- The nodes that the store does not hold are heard from the chain. -/
theorem nodes_hears {rows : List NodeRow}
    (hq : r.useStore = true →
      s.store.load (Store.StoredReading.nodes r.storage block).key = .ok none)
    (h : r.nodes out block s = .ok rows t) :
    ∃ heard, s.Hears out heard t ∧ r.NodesHeard block rows heard :=
  storedList_hears (fun h => freshNodes_hears h) hq h

/-- The minipools that the store does not hold are heard from the chain. -/
theorem minipools_hears {rows : List MinipoolRow}
    (hq : r.useStore = true →
      s.store.load (Store.StoredReading.minipools r.storage block).key = .ok none)
    (h : r.minipools out block s = .ok rows t) :
    ∃ heard, s.Hears out heard t ∧ r.MinipoolsHeard block rows heard :=
  storedList_hears (fun h => freshMinipools_hears h) hq h

end ChainReader

/-! ### The values in rows -/

/-- A text, which may have surrogates in it. -/
inductive Value.IsText : Value → Prop where
  | text (s : String) : IsText (.text s)
  | ragged (points : List CodePoint) : IsText (.ragged points)

/-- A text without lone surrogates. -/
def Value.IsWholeText (v : Value) : Prop := ∃ s, v = .text s

/-- The names of the functions that answer with addresses. -/
def Contracts.addressFunctions : List String :=
  [ViewFunction.address, .nodeAt, .minipoolAt, .minipoolOwner].map ViewFunction.name

/-- All addresses that the chain answers have a property. -/
def Outside.Addresses (out : Outside) (P : Value → Prop) : Prop :=
  ∀ history c v, c.function ∈ addressFunctions → out.chain history c = .ok v → P v

theorem Outside.Addresses.isText (h : out.Addresses Value.IsWholeText) :
    out.Addresses Value.IsText := by
  intro history c v hc hv
  obtain ⟨s, rfl⟩ := h history c v hc hv
  exact .text s

/-- A row of a node as it is made from answers. Its address has a property. -/
structure NodeRow.Made (P : Value → Prop) (row : NodeRow) : Prop where
  address : P row.address
  stake : ∃ n, row.stake = .int n
  registered : ∃ n, row.registered = .int n

/-- A row of a minipool as it is made from answers. Its addresses have a property. -/
structure MinipoolRow.Made (P : Value → Prop) (row : MinipoolRow) : Prop where
  address : P row.address
  owner : P row.owner
  pubkey : row.pubkey.IsText
  present : ∃ b, row.present = .bool b
  borrowed : ∃ n, row.borrowed = .int n
  bonded : ∃ n, row.bonded = .int n

theorem Outside.Exchanges.answered {lane : Lane} {h t : History}
    (hxs : out.Exchanges lane h xs t) : ∀ x ∈ xs, ∃ history, out.chain history x.1 = .ok x.2 := by
  induction hxs with
  | none => simp
  | next hanswer _ ih => exact List.forall_mem_cons.2 ⟨⟨_, hanswer⟩, ih⟩

/-- What is heard from a function that answers with addresses has the property of these. -/
theorem Session.Hears.address {P : Value → Prop} (h : s.Hears out xs t) (hout : out.Addresses P)
    {f : ViewFunction} (hf : f.name ∈ addressFunctions) {contract v : Value}
    {argument : Option Argument} (hx : ViewFunction.heard f contract argument block v ∈ xs) : P v := by
  obtain ⟨history, hanswer⟩ := h.exchanges.answered _ hx
  exact hout history _ v hf hanswer

/-- The address of a row has been heard, and so has what makes it up. -/
theorem ListHeard.of_mem {α : Type} {contract : Value} {count entryAt : ViewFunction}
    {address : α → Value} {About : α → List Exchange → Prop} {rows : List α} {heard : List Exchange}
    (h : ListHeard contract count entryAt block address About rows heard) {row : α}
    (hrow : row ∈ rows) :
    (∃ i, ViewFunction.heard entryAt contract (some (.index i)) block (address row) ∈ heard) ∧
      ∃ about, about ⊆ heard ∧ About row about := by
  obtain ⟨v, n, details, -, -, hall, rfl⟩ := h
  obtain ⟨i, hi, rfl⟩ := List.getElem_of_mem hrow
  have hi' : i < details.length := hall.length_eq ▸ hi
  refine ⟨⟨i, ?_⟩, details[i], fun x hx => ?_, hall.get hi hi'⟩
  · refine List.mem_append_left _ (List.mem_cons_of_mem _ ?_)
    exact List.mem_mapIdx.2 ⟨i, by simpa using hi, by simp⟩
  · exact List.mem_append_right _ (List.mem_flatten_of_mem (List.getElem_mem hi') hx)

theorem Value.isText_of_pubkeyForm {v key : Value} (h : v.pubkeyForm = .ok key) : key.IsText := by
  unfold Value.pubkeyForm at h
  split at h
  · obtain ⟨points, -, rfl⟩ := Except.map_eq_ok_iff.1 h
    exact .ragged points
  · obtain ⟨k, -, rfl⟩ := Except.map_eq_ok_iff.1 h
    exact .text k

namespace ChainReader
variable {r : ChainReader} {heard : List Exchange} {P : Value → Prop}

theorem NodesHeard.made {rows : List NodeRow} (hrows : r.NodesHeard block rows heard)
    (h : s.Hears out heard t) (hout : out.Addresses P) : ∀ row ∈ rows, row.Made P := by
  intro row hrow
  obtain ⟨manager, staking, resolved, list, rfl, -, hlist⟩ := hrows
  obtain ⟨⟨i, hentry⟩, about, -, stake, registered, n, k, -, -, hstake, -, hregistered⟩ :=
    hlist.of_mem hrow
  exact ⟨h.address hout (by decide) (List.mem_append_right _ hentry), ⟨n, hstake⟩, k, hregistered⟩

theorem MinipoolsHeard.made {rows : List MinipoolRow} (hrows : r.MinipoolsHeard block rows heard)
    (h : s.Hears out heard t) (hout : out.Addresses P) : ∀ row ∈ rows, row.Made P := by
  intro row hrow
  obtain ⟨manager, resolved, list, rfl, -, hlist⟩ := hrows
  obtain ⟨⟨i, hentry⟩, about, habout, key, present, status, borrowed, bonded, n, k, rfl, hkey,
    hpresent, -, -, hborrowed, -, hbonded⟩ := hlist.of_mem hrow
  exact ⟨h.address hout (by decide) (List.mem_append_right _ hentry),
    h.address hout (f := .minipoolOwner) (by decide)
      (List.mem_append_right _ (habout List.mem_cons_self)),
    Value.isText_of_pubkeyForm hkey, ⟨_, hpresent⟩, ⟨n, hborrowed⟩, k, hbonded⟩

end ChainReader

end StakeSnapshot
