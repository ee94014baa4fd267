import Mathlib.Logic.Relation
import StakeSnapshot.Proofs.Snapshot.Pinning
import StakeSnapshot.Proofs.Store.Failure

/-!
# Addresses that are remembered

A chain reader remembers the addresses of contracts, each for one block. All that a run of it does
about addresses are the resolutions of its queries: those of the contracts that a query needs, one
after the other, whether the address is remembered or not (`ChainReader.resolutions`). The invariant
of all resolutions of a run (`Memo`) is that exactly the addresses that the storage has answered with
are remembered; so a resolution after a successful one asks nothing, and one after failures only asks
again. It is kept by each resolution, however the chain changes its answers, and so it holds in every
session of a run, whatever contract is resolved there next (`ChainReader.memo_of_run`).
-/

namespace StakeSnapshot

open Reads

/-! ### Resolutions -/

/-- A resolution: the address of a contract at a block is to be found, in a session. -/
structure Resolution where
  contract : String
  block : Int
  before : Session

namespace Resolution
variable (r : ChainReader) (out : Outside) (x : Resolution)

/-- The call by which the storage is asked for the address. -/
def call : Call := registryCall r.storage x.contract x.block

/-- The address that is found, or why there is none. -/
def result : Except Fault Value :=
  (outcome (r.resolve out x.contract (.int x.block) x.before)).1

/-- The session that is left behind. -/
def after : Session := (outcome (r.resolve out x.contract (.int x.block) x.before)).2

/-- Two resolutions are about the same contract at the same block. -/
def Alike (x y : Resolution) : Prop := x.contract = y.contract ∧ x.block = y.block

/-- The storage is asked for the address, once, and nothing else is asked. -/
def Asks : Prop :=
  (x.after r out).history = x.before.history ++ [(x.before.lane, .call (x.call r))]

/-- The storage is asked for the address, and answers with that of a contract. -/
structure Finds (address : Value) : Prop where
  asks : x.Asks r out
  answered : out.chain x.before.history (x.call r) = .ok address
  nonzero : ChainReader.isUnregistered address = .ok false

/-- The storage is asked for the address. There is a result just if it answers with the address of a
contract; otherwise there is a failure, and nothing is remembered of it. -/
structure Anew : Prop where
  asks : x.Asks r out
  ok_iff : ∀ address, x.result r out = .ok address ↔ x.Finds r out address
  reverted : ∀ fault, out.chain x.before.history (x.call r) = .error fault →
    x.result r out = .error fault
  unregistered : ∀ address, out.chain x.before.history (x.call r) = .ok address →
    ChainReader.isUnregistered address = .ok true →
      x.result r out = .error (Fault.unregistered x.contract (.int x.block)).raised
  forgotten : ∀ fault, x.result r out = .error fault →
    (x.after r out).addresses = x.before.addresses

/-- A resolution comes after others: it has the address that was found by one of them for the same
contract at the same block, and then leaves the session as it was; if there is none, the storage is
asked. -/
structure Follows (earlier : List Resolution) : Prop where
  recalls : ∀ y ∈ earlier, y.Alike x → ∀ address, y.Finds r out address →
    x.result r out = .ok address ∧ x.after r out = x.before
  anew : (∀ y ∈ earlier, y.Alike x → ∀ address, ¬ y.Finds r out address) → x.Anew r out

end Resolution

/-- The addresses that are remembered are those that were found, each for its contract and block. -/
def Remembers (r : ChainReader) (out : Outside) (xs : List Resolution)
    (addresses : Table (String × Value) Value) : Prop :=
  ∀ contract key address, Table.find? addresses (contract, key) = some address ↔
    ∃ x ∈ xs, x.contract = contract ∧ .int x.block = key ∧ x.Finds r out address

/-- The invariant of a run: what is remembered after some resolutions and at each of them, how each
follows the ones before it, and that no two alike succeed in asking. -/
structure Memo (r : ChainReader) (out : Outside) (xs : List Resolution) (s : Session) : Prop where
  remembers : Remembers r out xs s.addresses
  before : ∀ earlier x, earlier ++ [x] <+: xs → Remembers r out earlier x.before.addresses
  follows : ∀ earlier x, earlier ++ [x] <+: xs → x.Follows r out earlier
  once : xs.Pairwise fun x y => x.Alike y →
    ∀ address address', x.Finds r out address → ¬ y.Finds r out address'

variable {r : ChainReader} {out : Outside} {s t u : Session} {xs ys : List Resolution}
  {x : Resolution} {address : Value}

/-! ### One resolution -/

namespace Resolution

theorem Finds.unique {address' : Value} (h : x.Finds r out address)
    (h' : x.Finds r out address') : address = address' :=
  Except.ok.inj (h.answered.symm.trans h'.answered)

/-- What is remembered is found without a question. -/
theorem of_remembered (h : Table.find? x.before.addresses (x.contract, .int x.block) = some address) :
    x.result r out = .ok address ∧ x.after r out = x.before := by
  have hresolve : r.resolve out x.contract (.int x.block) x.before = .ok address x.before :=
    ChainReader.resolve_of_remembered h
  rw [result, after, hresolve]
  exact ⟨rfl, rfl⟩

theorem not_asks_of_remembered
    (h : Table.find? x.before.addresses (x.contract, .int x.block) = some address) : ¬ x.Asks r out := by
  intro hasks
  have hlength := congrArg List.length hasks
  rw [(of_remembered h).2, List.length_append, List.length_singleton] at hlength
  omega

/-- The storage answers with the address of a contract. -/
theorem anew_of_found
    (hanswer : out.chain x.before.history (x.call r) = .ok address)
    (hzero : ChainReader.isUnregistered address = .ok false)
    (hresolve : r.resolve out x.contract (.int x.block) x.before =
      .ok address { x.before.asked (.call (x.call r)) with
        addresses := Table.put x.before.addresses (x.contract, .int x.block) address }) :
    x.Anew r out ∧ (x.after r out).addresses =
      Table.put x.before.addresses (x.contract, .int x.block) address := by
  have hresult : x.result r out = .ok address := by rw [result, hresolve, outcome]
  have hasks : x.Asks r out := by
    rw [Asks, after, hresolve]
    rfl
  have hfinds : x.Finds r out address := ⟨hasks, hanswer, hzero⟩
  constructor
  · refine ⟨hasks, fun found => ?_, fun fault h => ?_, fun found h hz => ?_, fun fault h => ?_⟩
    · rw [hresult, Except.ok.injEq]
      constructor
      · rintro rfl
        exact hfinds
      · exact hfinds.unique
    · cases hanswer.symm.trans h
    · rw [Except.ok.inj (hanswer.symm.trans h), hz] at hzero
      cases hzero
    · cases hresult.symm.trans h
  · rw [after, hresolve]
    rfl

/-- The storage answers with anything else, or fails to. -/
theorem anew_of_failed {fault : Fault}
    (hresolve : r.resolve out x.contract (.int x.block) x.before =
      .error fault (x.before.asked (.call (x.call r))))
    (hreverted : ∀ cause, out.chain x.before.history (x.call r) = .error cause → fault = cause)
    (hunregistered : ∀ address, out.chain x.before.history (x.call r) = .ok address →
      ChainReader.isUnregistered address = .error fault ∨
        ChainReader.isUnregistered address = .ok true ∧
          fault = (Fault.unregistered x.contract (.int x.block)).raised) :
    x.Anew r out ∧ ∀ address, ¬ x.Finds r out address := by
  have hresult : x.result r out = .error fault := by rw [result, hresolve, outcome]
  have hasks : x.Asks r out := by
    rw [Asks, after, hresolve]
    rfl
  have hfinds : ∀ address, ¬ x.Finds r out address := by
    intro address h
    rcases hunregistered address h.answered with hzero | ⟨hzero, -⟩ <;>
      cases hzero.symm.trans h.nonzero
  refine ⟨⟨hasks, fun address => ?_, fun cause h => ?_, fun address h hz => ?_, fun _ _ => ?_⟩, hfinds⟩
  · rw [hresult]
    exact ⟨by rintro ⟨⟩, fun h => absurd h (hfinds address)⟩
  · rw [hresult, hreverted cause h]
  · rcases hunregistered address h with hzero | ⟨-, hfault⟩
    · cases hzero.symm.trans hz
    · rw [hresult, hfault]
  · rw [after, hresolve]
    rfl

/-- What is not remembered is asked for, and what is found then is remembered. -/
theorem of_unknown (r : ChainReader) (out : Outside)
    (h : Table.find? x.before.addresses (x.contract, .int x.block) = none) :
    x.Anew r out ∧ ∀ address, x.Finds r out address → (x.after r out).addresses =
      Table.put x.before.addresses (x.contract, .int x.block) address := by
  rcases ChainReader.resolve_of_unknown r out h with
    ⟨address, hanswer, hzero, hresolve⟩ | ⟨fault, hresolve, hreverted, hunregistered⟩
  · obtain ⟨hanew, hafter⟩ := anew_of_found hanswer hzero hresolve
    refine ⟨hanew, fun found hfound => ?_⟩
    rw [hafter, hfound.unique ⟨hanew.asks, hanswer, hzero⟩]
  · obtain ⟨hanew, hnot⟩ := anew_of_failed hresolve hreverted hunregistered
    exact ⟨hanew, fun found hfound => absurd hfound (hnot found)⟩

/-- What is found by asking was not remembered, and is remembered from then on. -/
theorem addresses_after_of_finds (h : x.Finds r out address) :
    (x.after r out).addresses =
      Table.put x.before.addresses (x.contract, .int x.block) address := by
  cases hfind : Table.find? x.before.addresses (x.contract, .int x.block) with
  | none => exact (of_unknown r out hfind).2 address h
  | some known => exact absurd h.asks (not_asks_of_remembered hfind)

/-- If nothing is found, nothing more is remembered. -/
theorem addresses_after_of_not_finds (h : ∀ address, ¬ x.Finds r out address) :
    (x.after r out).addresses = x.before.addresses := by
  cases hfind : Table.find? x.before.addresses (x.contract, .int x.block) with
  | some address => rw [(of_remembered hfind).2]
  | none =>
    have hanew := (of_unknown r out hfind).1
    cases hresult : x.result r out with
    | ok address => exact absurd ((hanew.ok_iff address).1 hresult) (h address)
    | error fault => exact hanew.forgotten fault hresult

end Resolution

/-! ### What is remembered -/

namespace Remembers
variable {addresses later : Table (String × Value) Value} (h : Remembers r out xs addresses)
include h

/-- One more address is found, and none was found before for the same contract and block. -/
theorem concat_found (hfound : x.Finds r out address)
    (hnew : ∀ y ∈ xs, y.Alike x → ∀ found, ¬ y.Finds r out found) :
    Remembers r out (xs ++ [x]) (Table.put addresses (x.contract, .int x.block) address) := by
  intro contract key found
  simp only [List.mem_append, List.mem_singleton, or_and_right, exists_or, exists_eq_left]
  by_cases heq : (x.contract, Value.int x.block) = (contract, key)
  · cases heq
    rw [Table.find?_put_self, Option.some.injEq]
    constructor
    · rintro rfl
      exact .inr ⟨rfl, rfl, hfound⟩
    · rintro (⟨y, hy, hcontract, hblock, hfinds⟩ | ⟨-, -, hfinds⟩)
      · exact absurd hfinds (hnew y hy ⟨hcontract, Value.int.inj hblock⟩ found)
      · exact hfound.unique hfinds
  · rw [Table.find?_put_of_ne heq, h, or_iff_left]
    rintro ⟨rfl, rfl, -⟩
    exact heq rfl

/-- One more resolution finds nothing by asking. -/
theorem concat_not_found (hnot : ∀ found, ¬ x.Finds r out found) :
    Remembers r out (xs ++ [x]) addresses := by
  intro contract key found
  simp only [List.mem_append, List.mem_singleton, or_and_right, exists_or, exists_eq_left]
  rw [h, or_iff_left]
  rintro ⟨-, -, hfinds⟩
  exact hnot found hfinds

/-- Whatever is remembered stays so. -/
theorem mono (hlater : Remembers r out (xs ++ ys) later) {contract : String} {key : Value}
    (hfind : Table.find? addresses (contract, key) = some address) :
    Table.find? later (contract, key) = some address := by
  obtain ⟨x, hx, hfound⟩ := (h contract key address).1 hfind
  exact (hlater contract key address).2 ⟨x, List.mem_append_left ys hx, hfound⟩

end Remembers

/-! ### The invariant -/

namespace Memo
variable (h : Memo r out xs s)
include h

/-- The address of a contract at a block is not remembered if none was found for it. -/
theorem unknown_of_not_finds {contract : String} {block : Int}
    (hnone : ∀ y ∈ xs, y.contract = contract → y.block = block → ∀ address, ¬ y.Finds r out address) :
    Table.find? s.addresses (contract, .int block) = none := by
  cases hfind : Table.find? s.addresses (contract, .int block) with
  | none => rfl
  | some address =>
    obtain ⟨y, hy, hcontract, hblock, hfinds⟩ := (h.remembers contract _ address).1 hfind
    exact absurd hfinds (hnone y hy hcontract (Value.int.inj hblock) address)

theorem follows_next (hx : x.before = s) : x.Follows r out xs := by
  subst hx
  constructor
  · rintro y hy ⟨hcontract, hblock⟩ address hfinds
    exact Resolution.of_remembered
      ((h.remembers _ _ address).2 ⟨y, hy, hcontract, congrArg Value.int hblock, hfinds⟩)
  · intro hnone
    exact (Resolution.of_unknown r out (h.unknown_of_not_finds fun y hy hcontract hblock =>
      hnone y hy ⟨hcontract, hblock⟩)).1

/-- What was found for an earlier one that is alike is not asked for. -/
theorem not_finds_next (hx : x.before = s) {y : Resolution} (hy : y ∈ xs) (halike : y.Alike x)
    (hfinds : y.Finds r out address) (address' : Value) : ¬ x.Finds r out address' := by
  subst hx
  intro hx
  refine Resolution.not_asks_of_remembered ((h.remembers _ _ address).2 ?_) hx.asks
  exact ⟨y, hy, halike.1, congrArg Value.int halike.2, hfinds⟩

theorem remembers_next (hx : x.before = s) :
    Remembers r out (xs ++ [x]) (x.after r out).addresses := by
  subst hx
  -- a resolution that finds nothing by asking has failed, or the address was remembered
  by_cases hfound : ∃ found, x.Finds r out found
  · obtain ⟨found, hfound⟩ := hfound
    rw [Resolution.addresses_after_of_finds hfound]
    refine h.remembers.concat_found hfound fun y hy halike address hfinds => ?_
    exact h.not_finds_next rfl hy halike hfinds found hfound
  · have hnot : ∀ found, ¬ x.Finds r out found := fun found hf => hfound ⟨found, hf⟩
    rw [Resolution.addresses_after_of_not_finds hnot]
    exact h.remembers.concat_not_found hnot

/-- One more resolution keeps the invariant. -/
theorem next (hx : x.before = s) : Memo r out (xs ++ [x]) (x.after r out) where
  remembers := h.remembers_next hx
  before earlier y hprefix := by
    rcases List.prefix_concat_iff.1 hprefix with heq | hprefix
    · obtain ⟨rfl, hlast⟩ := List.append_inj' heq rfl
      cases hlast
      rw [hx]
      exact h.remembers
    · exact h.before earlier y hprefix
  follows earlier y hprefix := by
    rcases List.prefix_concat_iff.1 hprefix with heq | hprefix
    · obtain ⟨rfl, hlast⟩ := List.append_inj' heq rfl
      cases hlast
      exact h.follows_next hx
    · exact h.follows earlier y hprefix
  once := by
    refine List.pairwise_append.2 ⟨h.once, List.pairwise_singleton _ x, ?_⟩
    intro y hy x' hx' halike address address' hfinds
    cases List.mem_singleton.1 hx'
    exact h.not_finds_next hx hy halike hfinds address'

theorem of_addresses (haddresses : t.addresses = s.addresses) : Memo r out xs t where
  remembers := by
    rw [haddresses]
    exact h.remembers
  before := h.before
  follows := h.follows
  once := h.once

end Memo

theorem Memo.start (r : ChainReader) (out : Outside) (store : Store) :
    Memo r out [] (.start store) where
  remembers _ _ _ := ⟨by rintro ⟨⟩, by rintro ⟨x, hx, -⟩; exact absurd hx List.not_mem_nil⟩
  before earlier x h := absurd (List.prefix_nil.1 h) (by simp)
  follows earlier x h := absurd (List.prefix_nil.1 h) (by simp)
  once := .nil

/-! ### Runs -/

/-- A call by which a storage is asked for an address. -/
def Call.IsLookup (storage : String) (c : Call) : Prop :=
  c.address = .text storage ∧ c.function = Contracts.ViewFunction.address.name

/-- No address is asked for, and the same ones are remembered. -/
structure Session.Quiet (storage : String) (s t : Session) : Prop where
  addresses : t.addresses = s.addresses
  asked : s.AskedOnly (fun q => ∀ c, q = .call c → ¬ c.IsLookup storage) t

theorem Session.Quiet.of_eq {storage : String} (haddresses : t.addresses = s.addresses)
    (hhistory : t.history = s.history) : s.Quiet storage t :=
  ⟨haddresses, .of_history hhistory⟩

instance {storage : String} : IsPreorder Session (Session.Quiet storage) where
  refl _ := .of_eq rfl rfl
  trans _ _ _ h h' := ⟨h'.addresses.trans h.addresses, trans_of _ h.asked h'.asked⟩

/-- The contracts whose addresses a query needs, in the order in which they are resolved. -/
def ChainQuery.contracts : ChainQuery → List String
  | .address contract _ => [contract]
  | .price _ => [Contracts.networkPrices]
  | .minimumFraction _ | .maximumFraction _ => [Contracts.nodeSettings]
  | .rewardIndex _ | .interval _ _ | .shares _ _ | .pendingRewards _ _ => [Contracts.rewardsPool]
  | .nodes _ => [Contracts.nodeManager, Contracts.nodeStaking]
  | .minipools _ => [Contracts.minipoolManager]

namespace ChainReader

/-- The resolutions of contracts, one after the other for as long as they succeed. -/
def resolutionsFrom (r : ChainReader) (out : Outside) (block : Int) :
    List String → Session → List Resolution
  | [], _ => []
  | contract :: rest, s =>
    ⟨contract, block, s⟩ ::
      match r.resolve out contract (.int block) s with
      | .ok _ t => resolutionsFrom r out block rest t
      | .error _ _ => []

/-- The resolutions that are made for a query. There are none if its answer is stored. -/
def resolutions (r : ChainReader) (out : Outside) (q : ChainQuery) (s : Session) :
    List Resolution :=
  match r.stored q with
  | [] => r.resolutionsFrom out q.block q.contracts s
  | reading :: _ =>
    match lookUp r.useStore reading s with
    | .ok none t => r.resolutionsFrom out q.block q.contracts t
    | _ => []

/-- On the way from one session to another, these resolutions have been made, and otherwise no
address has been asked for or remembered. -/
inductive Resolves (r : ChainReader) (out : Outside) (s : Session) :
    List Resolution → Session → Prop
  | start : Resolves r out s [] s
  | quiet {xs : List Resolution} {t u : Session} (h : Resolves r out s xs t)
      (hquiet : t.Quiet r.storage u) : Resolves r out s xs u
  | resolve {xs : List Resolution} {t : Session} (h : Resolves r out s xs t) (contract : String)
      (block : Int) : Resolves r out s (xs ++ [⟨contract, block, t⟩])
        (Resolution.after r out ⟨contract, block, t⟩)

theorem Resolves.append (h : r.Resolves out s xs t) (h' : r.Resolves out t ys u) :
    r.Resolves out s (xs ++ ys) u := by
  induction h' with
  | start => rwa [List.append_nil]
  | quiet _ hquiet ih => exact ih.quiet hquiet
  | resolve _ contract block ih =>
    rw [← List.append_assoc]
    exact ih.resolve contract block

/-- The invariant holds wherever some resolutions have led. -/
theorem Resolves.memo (h : r.Resolves out s xs t) {earlier : List Resolution}
    (hs : Memo r out earlier s) : Memo r out (earlier ++ xs) t := by
  induction h with
  | start => rwa [List.append_nil]
  | quiet _ hquiet ih => exact ih.of_addresses hquiet.addresses
  | resolve _ contract block ih =>
    rw [← List.append_assoc]
    exact ih.next rfl

/-! ### The resolutions of a query -/

section
variable {α β : Type} {block : Int}

/-- Some work resolves contracts at first, and no others later. -/
def Begins (r : ChainReader) (out : Outside) (block : Int) (contracts : List String)
    (work : Reads α) : Prop :=
  ∀ s, r.Resolves out s (r.resolutionsFrom out block contracts s) (after work s)

theorem Begins.of_quiet {work : Reads α} (h : Moves (Session.Quiet r.storage) work) :
    r.Begins out block [] work :=
  fun s => Resolves.start.quiet (h s)

theorem Begins.resolve_bind {contract : String} {contracts : List String}
    {next : Value → Reads β} (h : ∀ address, r.Begins out block contracts (next address)) :
    r.Begins out block (contract :: contracts) (r.resolve out contract (.int block) >>= next) := by
  intro s
  have hfirst : r.Resolves out s [⟨contract, block, s⟩]
      (after (r.resolve out contract (.int block)) s) := by
    have hafter : after (r.resolve out contract (.int block)) s =
        Resolution.after r out ⟨contract, block, s⟩ := by
      rw [after, Resolution.after]
      cases r.resolve out contract (.int block) s <;> rfl
    rw [hafter]
    exact Resolves.start.resolve contract block
  rw [resolutionsFrom]
  cases hresolve : r.resolve out contract (.int block) s with
  | ok address t =>
    rw [after_bind_of_ok hresolve]
    rw [after_of_ok hresolve] at hfirst
    exact hfirst.append (h address t)
  | error fault t =>
    rw [after_bind_of_error hresolve]
    rwa [after_of_error hresolve] at hfirst

theorem moves_call_quiet (r : ChainReader) (out : Outside) (c : Call)
    (h : c.function ≠ Contracts.ViewFunction.address.name) :
    Moves (Session.Quiet r.storage) (Reads.call out c) := by
  intro s
  rw [after_call]
  refine ⟨rfl, [(s.lane, .call c)], rfl, fun x hx => ?_⟩
  rintro c' hc' ⟨-, hname⟩
  rw [List.mem_singleton.1 hx] at hc'
  cases hc'
  exact h hname

theorem begins_askResolved (contract : String) {f : Contracts.ViewFunction}
    (hf : f.name ≠ Contracts.ViewFunction.address.name) (argument : Option Argument) :
    r.Begins out block [contract]
      (do askInt out (← r.resolve out contract (.int block)) f argument (.int block) :
        Reads Int) :=
  .resolve_bind fun _ =>
    .of_quiet (moves_askInt (fun c _ => moves_call_quiet r out c) _ hf argument)

theorem begins_shares (index : Int) :
    r.Begins out block [Contracts.rewardsPool] (r.shares out index (.int block)) := by
  have hcalls := fun (c : Call) (_ : c.block = .int block) => moves_call_quiet r out c
  exact .resolve_bind fun _ => .of_quiet <|
    (moves_askInt hcalls _ (by decide) _).bind fun _ =>
    (moves_askInt hcalls _ (by decide) _).bind fun _ =>
    (moves_askInt hcalls _ (by decide) _).bind fun _ => .pure _

theorem begins_freshNodes :
    r.Begins out block [Contracts.nodeManager, Contracts.nodeStaking]
      (r.freshNodes out (.int block)) := by
  have hcalls := fun (c : Call) (_ : c.block = .int block) => moves_call_quiet r out c
  exact .resolve_bind fun _ => .resolve_bind fun _ => .of_quiet <|
    (moves_addresses hcalls _ (by decide) (by decide)).bind fun _ =>
      .mapM (fun _ => moves_nodeRow hcalls _ _ _) _

theorem begins_freshMinipools :
    r.Begins out block [Contracts.minipoolManager] (r.freshMinipools out (.int block)) := by
  have hcalls := fun (c : Call) (_ : c.block = .int block) => moves_call_quiet r out c
  exact .resolve_bind fun _ => .of_quiet <|
    (moves_addresses hcalls _ (by decide) (by decide)).bind fun _ =>
      .mapM (fun _ => moves_minipoolRow hcalls _ _) _

/-- A list that is stored needs no contract; otherwise it is as fresh. -/
theorem resolves_storedList {reading : Store.StoredReading} {contracts : List String}
    {ofValue : Value → Except Fault α} {toValue : α → Value} {fresh : Reads (List α)}
    (h : r.Begins out block contracts fresh) (s : Session) :
    r.Resolves out s
      (match lookUp r.useStore reading s with
        | .ok none t => r.resolutionsFrom out block contracts t
        | _ => [])
      (after (r.storedList reading ofValue toValue fresh) s) := by
  obtain ⟨v?, t, hlook, ht⟩ := exists_lookUp_ended r.useStore reading s
  have hopened : r.Resolves out s [] t := by
    rcases ht with rfl | rfl
    · exact .start
    · exact Resolves.start.quiet (.of_eq rfl rfl)
  rw [hlook]
  match v? with
  | .error fault =>
    rw [storedList, after_bind_of_error hlook]
    exact hopened
  | .ok (some v) =>
    rw [storedList, after_bind_of_ok hlook]
    have hsame : after (liftM (rowsOf ofValue v) : Reads (List α)) t = t := by
      cases rowsOf ofValue v <;> rfl
    dsimp only
    rw [hsame]
    exact hopened
  | .ok none =>
    -- what follows the resolutions, also storing the list, is quiet
    have hfresh := hopened.append (h t)
    rw [storedList, after_bind_of_ok hlook]
    cases hresult : fresh t with
    | error fault u =>
      rw [after_bind_of_error hresult]
      rwa [after_of_error hresult] at hfresh
    | ok rows u =>
      rw [after_bind_of_ok hresult]
      rw [after_of_ok hresult] at hfresh
      cases hstored : remember r.useStore reading (.list (rows.map toValue)) u with
      | ok _ v =>
        obtain ⟨haddresses, hhistory⟩ := frame_of_remember (.inl hstored)
        rw [after_bind_of_ok hstored]
        exact hfresh.quiet (.of_eq haddresses hhistory)
      | error fault v =>
        obtain ⟨haddresses, hhistory⟩ := frame_of_remember (.inr ⟨fault, hstored⟩)
        rw [after_bind_of_error hstored]
        exact hfresh.quiet (.of_eq haddresses hhistory)

end

/-- For a query, its resolutions are made, and nothing else is done about addresses. -/
theorem resolves_answer (r : ChainReader) (out : Outside) (q : ChainQuery) (s : Session) :
    r.Resolves out s (r.resolutions out q s) (after (r.answer out q) s) := by
  cases q with
  | address contract block =>
    have hresolved : r.Begins out block [contract] (r.resolve out contract (.int block) >>= pure) :=
      .resolve_bind fun _ => .of_quiet (.pure _)
    rw [bind_pure] at hresolved
    exact hresolved s
  | shares index block => exact begins_shares index s
  | nodes block => exact resolves_storedList begins_freshNodes s
  | minipools block => exact resolves_storedList begins_freshMinipools s
  | price block | minimumFraction block | maximumFraction block | rewardIndex block
  | interval index block | pendingRewards index block =>
    exact begins_askResolved _ (by decide) _ s

/-! ### Runs -/

/-- A run of a chain reader, with all resolutions that are made in it: the reader answers queries,
successfully or not, and in between other things are done in which no address is asked for and the
reader's memory is left alone. -/
inductive Run (r : ChainReader) (out : Outside) (s : Session) : List Resolution → Session → Prop
  | start : Run r out s [] s
  | query {xs : List Resolution} {t : Session} (h : Run r out s xs t) (q : ChainQuery) :
      Run r out s (xs ++ r.resolutions out q t) (after (r.answer out q) t)
  | other {xs : List Resolution} {t u : Session} (h : Run r out s xs t)
      (hquiet : t.Quiet r.storage u) : Run r out s xs u

theorem Run.resolves (h : r.Run out s xs t) : r.Resolves out s xs t := by
  induction h with
  | start => exact .start
  | query _ q ih => exact ih.append (r.resolves_answer out q _)
  | other _ hquiet ih => exact ih.quiet hquiet

/-- In every session of a run, and in every later one, the reader remembers exactly the addresses that
it has found by then. Whatever contract is resolved there at whatever block, and whichever contracts a
query needs there, each resolution follows the ones before it: it has the address that was found, and
asks nothing, or else it asks. So what is remembered is remembered for good, and of the resolutions of
the same contract at the same block only one finds its address by asking. -/
theorem memo_of_run {store : Store} (hs : r.Run out (.start store) xs s) (ht : r.Run out s ys t) :
    Memo r out xs s ∧ Memo r out (xs ++ ys) t ∧
    (∀ contract block, (⟨contract, block, s⟩ : Resolution).Follows r out xs) ∧
    (∀ q, r.Resolves out s (r.resolutions out q s) (after (r.answer out q) s) ∧
      Memo r out (xs ++ r.resolutions out q s) (after (r.answer out q) s)) ∧
    ∀ contract block address, Table.find? s.addresses (contract, .int block) = some address →
      Table.find? t.addresses (contract, .int block) = some address ∧
      r.resolve out contract (.int block) t = .ok address t := by
  have hmemo : Memo r out xs s := hs.resolves.memo (Memo.start r out store)
  have hlater : Memo r out (xs ++ ys) t := ht.resolves.memo hmemo
  refine ⟨hmemo, hlater, fun _ _ => hmemo.follows_next rfl, fun q => ?_, fun _ _ _ hfind => ?_⟩
  · exact ⟨r.resolves_answer out q s, (r.resolves_answer out q s).memo hmemo⟩
  · have hkept := hmemo.remembers.mono hlater.remembers hfind
    exact ⟨hkept, resolve_of_remembered hkept⟩

/-- The session after some queries have been answered, one after the other. -/
def afterAll (r : ChainReader) (out : Outside) (qs : List ChainQuery) (s : Session) : Session :=
  qs.foldl (fun s q => after (r.answer out q) s) s

/-- The resolutions of some queries, one after the other. -/
def resolutionsOfAll (r : ChainReader) (out : Outside) :
    List ChainQuery → Session → List Resolution
  | [], _ => []
  | q :: qs, s => r.resolutions out q s ++ r.resolutionsOfAll out qs (after (r.answer out q) s)

theorem run_afterAll (r : ChainReader) (out : Outside) (qs : List ChainQuery) :
    ∀ (s t : Session) (xs : List Resolution), r.Run out s xs t →
      r.Run out s (xs ++ r.resolutionsOfAll out qs t) (r.afterAll out qs t) := by
  induction qs with
  | nil =>
    intro s t xs h
    rwa [resolutionsOfAll, List.append_nil]
  | cons q qs ih =>
    intro s t xs h
    rw [resolutionsOfAll, ← List.append_assoc]
    exact ih _ _ _ (h.query q)

/-- A storage that fails at first, then has no contract, spelled in its own way, and then another
address for each question. -/
def wavering : Outside where
  beacon _ _ := .failed "Timeout" ""
  chain history c :=
    if c.function = Contracts.ViewFunction.address.name then
      match history.length with
      | 0 => .error (.foreign "ContractLogicError" "execution reverted")
      | 1 => .ok (.text "0X0000000000000000000000000000000000000000")
      | 2 => .ok (.text "0xaa")
      | _ => .ok (.text "0xbb")
    else .ok (.int 5)

def pricesAt (block : Int) : ChainQuery := .address Contracts.networkPrices block

/-- Two resolutions fail and are not remembered. The third one is part of another query; its address
is used for the same block from then on, while another block has an address of its own. -/
theorem memo_of_run_wavering : ∃ s t xs ys,
    unstored.Run wavering (.start .empty) xs s ∧ unstored.Run wavering s ys t ∧
    Memo unstored wavering xs s ∧ Memo unstored wavering (xs ++ ys) t ∧
    (xs.length = 2 ∧ s.history.length = 2 ∧ s.addresses = []) ∧
    ys.length = 4 ∧ t.history.length = 5 ∧
    t.addresses =
      [((Contracts.networkPrices, .int 7), .text "0xaa"),
        ((Contracts.networkPrices, .int 8), .text "0xbb")] := by
  have hs := run_afterAll unstored wavering [pricesAt 7, pricesAt 7] _ _ _
    (Run.start (s := .start .empty))
  have ht := run_afterAll unstored wavering [.price 7, pricesAt 7, pricesAt 8, pricesAt 8] _ _ _
    (Run.start (s := unstored.afterAll wavering [pricesAt 7, pricesAt 7] (.start .empty)))
  obtain ⟨hmemo, hlater, -⟩ := memo_of_run hs ht
  refine ⟨_, _, _, _, hs, ht, hmemo, hlater, ?_⟩
  decide +kernel

end ChainReader

end StakeSnapshot
