import StakeSnapshot.Contracts.Reader
import StakeSnapshot.Proofs.Session
import Mathlib.Data.List.Forall2

/-!
# What is read from a chain

Over a chain whose answers depend on the calls alone, the parameters leave a session sound, and so do
the two lists. `minipools_ok` says what the list of minipools holds: one row for each index below the
count, and in it what the chain answers about the address at that index (`MinipoolRow.IsRow`).
-/

namespace StakeSnapshot

open Contracts

namespace MinipoolStatus

theorem ofValue_int_eq_ok_iff {n : Int} {status : MinipoolStatus} :
    ofValue (.int n) = .ok status ↔ n = status.code := by
  constructor
  · intro h
    have hfound : ofCode? n = some status := by
      unfold ofValue at h
      dsimp only [Option.bind_some] at h
      cases hc : ofCode? n with
      | none =>
        rw [hc] at h
        dsimp only at h
        split at h <;> cases h
      | some found => rw [hc] at h; cases h; rfl
    have hcode := List.find?_some hfound
    exact (of_decide_eq_true hcode).symm
  · rintro rfl
    exact ofValue_code status

end MinipoolStatus

/-- A row has what the chain answers about the minipool at its address. -/
structure MinipoolRow.IsRow (chain : Call → Except Fault Value) (manager block : Value)
    (row : MinipoolRow) : Prop where
  owner : chain ⟨row.address, ViewFunction.minipoolOwner.name, none, block⟩ = .ok row.owner
  pubkey : ∃ v, chain ⟨manager, ViewFunction.minipoolPubkey.name, some (.value row.address), block⟩ =
    .ok v ∧ v.pubkeyForm = .ok row.pubkey
  present : ∃ v, chain ⟨manager, ViewFunction.minipoolExists.name, some (.value row.address), block⟩ =
    .ok v ∧ row.present = .bool v.truth
  status : ∃ v, chain ⟨row.address, ViewFunction.minipoolStatus.name, none, block⟩ = .ok v ∧
    v.toInteger 0 = .ok row.status.code
  borrowed : ∃ v n, chain ⟨row.address, ViewFunction.borrowedDeposit.name, none, block⟩ = .ok v ∧
    v.toInteger 0 = .ok n ∧ row.borrowed = .int n
  bonded : ∃ v n, chain ⟨row.address, ViewFunction.bondedDeposit.name, none, block⟩ = .ok v ∧
    v.toInteger 0 = .ok n ∧ row.bonded = .int n

/-- The rows of all minipools that the manager has at a block, in the order of their indices. -/
def MinipoolRow.AreRows (chain : Call → Except Fault Value) (manager block : Value)
    (rows : List MinipoolRow) : Prop :=
  (∃ v n, chain ⟨manager, ViewFunction.minipoolCount.name, none, block⟩ = .ok v ∧
    v.toInteger 0 = .ok n ∧ rows.length = n.toNat) ∧
  ∀ (i : Nat) (hi : i < rows.length),
    chain ⟨manager, ViewFunction.minipoolAt.name, some (.index i), block⟩ = .ok rows[i].address ∧
    MinipoolRow.IsRow chain manager block rows[i]

variable {out : Outside} {chain : Call → Except Fault Value} {storage : String}
  {readings : List Store.StoredReading} {s t : Session}

/-! ### Single calls -/

section
variable (hchain : ∀ history c, out.chain history c = chain c)
include hchain

namespace ChainReader

theorem ask_ok (hs : s.Sound chain storage readings) {address : Value} {f : ViewFunction}
    {argument : Option Argument} {block v : Value}
    (h : ask out address f argument block s = .ok v t) :
    chain ⟨address, f.name, argument, block⟩ = .ok v ∧ t.Sound chain storage readings :=
  hs.call hchain h

theorem askInt_ok (hs : s.Sound chain storage readings) {address : Value} {f : ViewFunction}
    {argument : Option Argument} {block : Value} {n : Int}
    (h : askInt out address f argument block s = .ok n t) :
    (∃ v, chain ⟨address, f.name, argument, block⟩ = .ok v ∧ v.toInteger 0 = .ok n) ∧
      t.Sound chain storage readings := by
  obtain ⟨v, u, hv, h⟩ := Reads.ok_of_bind h
  obtain ⟨hanswer, hu⟩ := ask_ok hchain hs hv
  obtain ⟨hn, rfl⟩ := Reads.ok_of_lift h
  exact ⟨⟨v, hanswer, hn⟩, hu⟩

/-- A contract is found where the chain has it, now or before. -/
theorem resolve_ok {r : ChainReader} (hs : s.Sound chain r.storage readings)
    {contract : String} {address : Value} {block : Int}
    (h : r.resolve out contract (.int block) s = .ok address t) :
    Registered chain r.storage contract (.int block) address ∧
      t.Sound chain r.storage readings := by
  obtain ⟨key, s', hkey, h₀⟩ := Reads.ok_of_bind h
  obtain ⟨hkey, rfl⟩ := Reads.ok_of_lift hkey
  cases hkey
  obtain ⟨here, u, hget, h'⟩ := Reads.ok_of_bind h₀
  cases hget
  -- an address that is remembered was once answered by the chain
  cases hfind : Table.find? s'.addresses (contract, .int block) with
  | some known =>
    rw [hfind] at h'
    obtain ⟨rfl, rfl⟩ := Reads.ok_of_pure h'
    obtain ⟨n, hn, hregistered⟩ := hs.addresses contract (.int block) address hfind
    cases hn
    exact ⟨hregistered, hs⟩
  | none =>
    rw [hfind] at h'
    obtain ⟨found, u, hfound, hrest⟩ := Reads.ok_of_bind h'
    obtain ⟨unregistered, w, hunregistered, hkeep⟩ := Reads.ok_of_bind hrest
    obtain ⟨hanswer, hu⟩ := ask_ok hchain hs hfound
    obtain ⟨-, rfl⟩ := Reads.ok_of_lift hunregistered
    dsimp only at hkeep
    cases unregistered with
    | true => cases hkeep
    | false =>
      cases hkeep
      exact ⟨hanswer, hu.resolved hanswer⟩

theorem askResolved_ok {r : ChainReader} (hs : s.Sound chain r.storage readings)
    {contract : String} {f : ViewFunction} {argument : Option Argument} {block n : Int}
    (h : (do askInt out (← r.resolve out contract (.int block)) f argument (.int block) :
      Reads Int) s = .ok n t) :
    t.Sound chain r.storage readings := by
  obtain ⟨address, u, haddress, hn⟩ := Reads.ok_of_bind h
  exact (askInt_ok hchain (resolve_ok hchain hs haddress).2 hn).2

theorem shares_ok {r : ChainReader} (hs : s.Sound chain r.storage readings) (index : Int)
    {block : Int} {shares : RewardShares} (h : r.shares out index (.int block) s = .ok shares t) :
    t.Sound chain r.storage readings := by
  obtain ⟨pool, u, hpool, h₁⟩ := Reads.ok_of_bind h
  obtain ⟨nodes, v, hnodes, h₂⟩ := Reads.ok_of_bind h₁
  obtain ⟨oracle, w, horacle, h₃⟩ := Reads.ok_of_bind h₂
  obtain ⟨protocol, x, hprotocol, h₄⟩ := Reads.ok_of_bind h₃
  obtain ⟨-, rfl⟩ := Reads.ok_of_pure h₄
  have hu := (resolve_ok hchain hs hpool).2
  have hv := (askInt_ok hchain hu hnodes).2
  have hw := (askInt_ok hchain hv horacle).2
  exact (askInt_ok hchain hw hprotocol).2

/-! ### Lists -/

theorem addressesFrom_ok {contract : Value} {entryAt : ViewFunction} {block : Value}
    {count index : Nat} {found : List Value} (hs : s.Sound chain storage readings)
    (h : addressesFrom out contract entryAt block count index s = .ok found t) :
    (found.length = count ∧ ∀ (i : Nat) (hi : i < found.length),
      chain ⟨contract, entryAt.name, some (.index (index + i)), block⟩ = .ok found[i]) ∧
      t.Sound chain storage readings := by
  induction count generalizing index found s with
  | zero =>
    obtain ⟨rfl, rfl⟩ := Reads.ok_of_pure h
    exact ⟨⟨rfl, fun i hi => absurd hi (Nat.not_lt_zero i)⟩, hs⟩
  | succ count ih =>
    obtain ⟨address, u, haddress, h₁⟩ := Reads.ok_of_bind h
    obtain ⟨rest, w, hrest, h₂⟩ := Reads.ok_of_bind h₁
    obtain ⟨rfl, rfl⟩ := Reads.ok_of_pure h₂
    obtain ⟨hanswer, hu⟩ := ask_ok hchain hs haddress
    obtain ⟨⟨hlength, hentries⟩, hw⟩ := ih hu hrest
    refine ⟨⟨congrArg (· + 1) hlength, fun i hi => ?_⟩, hw⟩
    cases i with
    | zero => exact hanswer
    | succ i =>
      have hentry := hentries i (Nat.lt_of_succ_lt_succ hi)
      rw [Nat.add_assoc, Nat.add_comm 1 i] at hentry
      exact hentry

theorem addresses_ok {contract : Value} {count entryAt : ViewFunction} {block : Value}
    {found : List Value} (hs : s.Sound chain storage readings)
    (h : addresses out contract count entryAt block s = .ok found t) :
    ((∃ v n, chain ⟨contract, count.name, none, block⟩ = .ok v ∧ v.toInteger 0 = .ok n ∧
        found.length = n.toNat) ∧
      ∀ (i : Nat) (hi : i < found.length),
        chain ⟨contract, entryAt.name, some (.index i), block⟩ = .ok found[i]) ∧
      t.Sound chain storage readings := by
  obtain ⟨n, u, hn, h₁⟩ := Reads.ok_of_bind h
  obtain ⟨⟨v, hanswer, hint⟩, hu⟩ := askInt_ok hchain hs hn
  dsimp only at h₁
  by_cases hlimit : countLimit ≤ n
  · rw [if_pos hlimit] at h₁
    cases h₁
  · rw [if_neg hlimit] at h₁
    obtain ⟨⟨hlength, hentries⟩, ht⟩ := addressesFrom_ok hchain hu h₁
    refine ⟨⟨⟨v, n, hanswer, hint, hlength⟩, fun i hi => ?_⟩, ht⟩
    have hentry := hentries i hi
    rw [Nat.zero_add] at hentry
    exact hentry

omit hchain in
/-- Work on each member of a list gives a list of results. -/
theorem mapM_ok {α β : Type} {f : α → Reads β} {R : α → β → Prop}
    (hf : ∀ {s t x y}, Session.Sound chain storage readings s → f x s = .ok y t →
      R x y ∧ t.Sound chain storage readings)
    {xs : List α} {ys : List β} (hs : s.Sound chain storage readings)
    (h : xs.mapM f s = .ok ys t) :
    List.Forall₂ R xs ys ∧ t.Sound chain storage readings := by
  induction xs generalizing ys s with
  | nil =>
    obtain ⟨rfl, rfl⟩ := Reads.ok_of_mapM_nil h
    exact ⟨.nil, hs⟩
  | cons x xs ih =>
    obtain ⟨y, u, rest, hy, hrest, rfl⟩ := Reads.ok_of_mapM_cons h
    obtain ⟨hrow, hu⟩ := hf hs hy
    obtain ⟨hrows, ht⟩ := ih hu hrest
    exact ⟨.cons hrow hrows, ht⟩

theorem nodeRow_ok {manager staking block address : Value} {row : NodeRow}
    (hs : s.Sound chain storage readings)
    (h : nodeRow out manager staking block address s = .ok row t) :
    row.address = address ∧ t.Sound chain storage readings := by
  obtain ⟨stake, u, hstake, h₁⟩ := Reads.ok_of_bind h
  obtain ⟨registered, v, hregistered, h₂⟩ := Reads.ok_of_bind h₁
  obtain ⟨rfl, rfl⟩ := Reads.ok_of_pure h₂
  have hu := (askInt_ok hchain hs hstake).2
  exact ⟨rfl, (askInt_ok hchain hu hregistered).2⟩

theorem minipoolRow_ok {manager block address : Value} {row : MinipoolRow}
    (hs : s.Sound chain storage readings)
    (h : minipoolRow out manager block address s = .ok row t) :
    (row.address = address ∧ row.IsRow chain manager block) ∧ t.Sound chain storage readings := by
  obtain ⟨owner, s₁, howner, h₁⟩ := Reads.ok_of_bind h
  obtain ⟨howner, hs₁⟩ := ask_ok hchain hs howner
  obtain ⟨v₂, s₂, hv₂, h₃⟩ := Reads.ok_of_bind h₁
  obtain ⟨hanswer, hs₂⟩ := ask_ok hchain hs₁ hv₂
  obtain ⟨pubkey, s₂', hv, h₄⟩ := Reads.ok_of_bind h₃
  obtain ⟨hpubkey, rfl⟩ := Reads.ok_of_lift hv
  obtain ⟨v₃, s₃, hv₃, h₅⟩ := Reads.ok_of_bind h₄
  obtain ⟨hpresent, hs₃⟩ := ask_ok hchain hs₂ hv₃
  obtain ⟨n, s₄, hv₄, h₆⟩ := Reads.ok_of_bind h₅
  obtain ⟨⟨v₄, hcall, hint⟩, hs₄⟩ := askInt_ok hchain hs₃ hv₄
  obtain ⟨status, s₄', hv, h₇⟩ := Reads.ok_of_bind h₆
  obtain ⟨hstatus, rfl⟩ := Reads.ok_of_lift hv
  rw [MinipoolStatus.ofValue_int_eq_ok_iff.1 hstatus] at hint
  obtain ⟨borrowed, s₅, hv₅, h₈⟩ := Reads.ok_of_bind h₇
  obtain ⟨⟨v₅, hcall₅, hborrowed⟩, hs₅⟩ := askInt_ok hchain hs₄ hv₅
  obtain ⟨bonded, s₆, hv₆, h₉⟩ := Reads.ok_of_bind h₈
  obtain ⟨⟨v₆, hcall₆, hbonded⟩, hs₆⟩ := askInt_ok hchain hs₅ hv₆
  obtain ⟨rfl, rfl⟩ := Reads.ok_of_pure h₉
  exact ⟨⟨rfl, howner, ⟨v₂, hanswer, hpubkey⟩, ⟨v₃, hpresent, rfl⟩, ⟨v₄, hcall, hint⟩,
    ⟨v₅, _, hcall₅, hborrowed, rfl⟩, v₆, _, hcall₆, hbonded, rfl⟩, hs₆⟩

theorem freshNodes_ok {r : ChainReader} {block : Int} {rows : List NodeRow}
    (hs : s.Sound chain r.storage readings) (h : r.freshNodes out (.int block) s = .ok rows t) :
    t.Sound chain r.storage readings := by
  obtain ⟨manager, s₁, hmanager, h₁⟩ := Reads.ok_of_bind h
  obtain ⟨staking, s₂, hstaking, h₂⟩ := Reads.ok_of_bind h₁
  obtain ⟨found, s₃, hfound, hrows⟩ := Reads.ok_of_bind h₂
  have hs₁ := (resolve_ok hchain hs hmanager).2
  have hs₂ := (resolve_ok hchain hs₁ hstaking).2
  have hs₃ := (addresses_ok hchain hs₂ hfound).2
  exact (mapM_ok (f := nodeRow out manager staking (.int block)) (fun hs h => nodeRow_ok hchain hs h)
    hs₃ hrows).2

theorem freshMinipools_ok {r : ChainReader} {block : Int} {rows : List MinipoolRow}
    (hs : s.Sound chain r.storage readings)
    (h : r.freshMinipools out (.int block) s = .ok rows t) :
    (∃ manager, Registered chain r.storage minipoolManager (.int block) manager ∧
      MinipoolRow.AreRows chain manager (.int block) rows) ∧ t.Sound chain r.storage readings := by
  obtain ⟨manager, s₁, hmanager, h₁⟩ := Reads.ok_of_bind h
  obtain ⟨found, s₂, hfound, hmap⟩ := Reads.ok_of_bind h₁
  obtain ⟨hregistered, hs₁⟩ := resolve_ok hchain hs hmanager
  obtain ⟨⟨⟨v, n, hcount, hint, hlength⟩, hentries⟩, hs₂⟩ := addresses_ok hchain hs₁ hfound
  obtain ⟨hrows, ht⟩ :=
    mapM_ok (f := minipoolRow out manager (.int block)) (fun hs h => minipoolRow_ok hchain hs h) hs₂ hmap
  have hsame := hrows.length_eq
  refine ⟨⟨manager, hregistered, ⟨v, n, hcount, hint, by omega⟩, fun i hi => ?_⟩, ht⟩
  obtain ⟨haddress, hrow⟩ := hrows.get (by omega : i < found.length) hi
  refine ⟨?_, hrow⟩
  rw [List.get_eq_getElem, List.get_eq_getElem] at haddress
  rw [haddress]
  exact hentries i _

omit hchain in
/-- A list that is not in the store yet is read from the chain. -/
theorem storedList_ok {α : Type} {r : ChainReader} {q : Store.StoredReading}
    {ofValue : Value → Except Fault α} {toValue : α → Value} {fresh : Reads (List α)}
    {P : List α → Prop} {rows : List α} (hs : s.Sound chain r.storage readings)
    (hq : r.useStore = true → ∀ p ∈ readings, p.key ≠ q.key)
    (hfresh : ∀ {s t rows}, Session.Sound chain r.storage readings s → fresh s = .ok rows t →
      P rows ∧ t.Sound chain r.storage readings)
    (h : r.storedList q ofValue toValue fresh s = .ok rows t) :
    P rows ∧ t.Sound chain r.storage (q :: readings) := by
  obtain ⟨v?, u, hlook, h₁⟩ := Reads.ok_of_bind h
  obtain ⟨rfl, hu⟩ := hs.lookUp hq hlook
  obtain ⟨found, v, hfound, h₂⟩ := Reads.ok_of_bind h₁
  obtain ⟨hp, hv⟩ := hfresh hu hfound
  obtain ⟨_, w, hremember, h₃⟩ := Reads.ok_of_bind h₂
  obtain ⟨rfl, rfl⟩ := Reads.ok_of_pure h₃
  exact ⟨hp, hv.remember hremember⟩

theorem nodes_ok {r : ChainReader} {block : Int} {rows : List NodeRow}
    (hs : s.Sound chain r.storage readings)
    (hq : r.useStore = true →
      ∀ p ∈ readings, p.key ≠ (Store.StoredReading.nodes r.storage (.int block)).key)
    (h : r.nodes out (.int block) s = .ok rows t) :
    t.Sound chain r.storage (.nodes r.storage (.int block) :: readings) :=
  (storedList_ok (P := fun _ => True) hs hq
    (fun hs h => ⟨trivial, freshNodes_ok hchain hs h⟩) h).2

/-- The list of minipools has the rows that the chain has at the block. -/
theorem minipools_ok {r : ChainReader} {block : Int} {rows : List MinipoolRow}
    (hs : s.Sound chain r.storage readings)
    (hq : r.useStore = true →
      ∀ p ∈ readings, p.key ≠ (Store.StoredReading.minipools r.storage (.int block)).key)
    (h : r.minipools out (.int block) s = .ok rows t) :
    (∃ manager, Registered chain r.storage minipoolManager (.int block) manager ∧
      MinipoolRow.AreRows chain manager (.int block) rows) ∧
      t.Sound chain r.storage (.minipools r.storage (.int block) :: readings) :=
  storedList_ok hs hq (fun hs h => freshMinipools_ok hchain hs h) h

end ChainReader

end

end StakeSnapshot
