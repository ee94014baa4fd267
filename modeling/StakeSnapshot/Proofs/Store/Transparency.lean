import StakeSnapshot.Proofs.Store.Genuine

/-!
# Runs of readers that share a store

Any number of endpoints and chain readers retrieve what they are asked for, one after the other. They
share a store, and each chain reader remembers addresses of its own (`Shared`). In a world that does
not change, the store and the addresses do not show: every retrieval of a run has the result that a
new reader without the store has (`answers_eq_anew`). The invariant is that the store is genuine and
the addresses are those of the chain; each retrieval keeps it, and a run by induction on its length.
-/

namespace StakeSnapshot

open Reads
open Store (StoredReading)

/-! ### Retrievals -/

/-- What an endpoint retrieves by way of the store. -/
inductive BeaconQuery where
  | block (slot : Int)
  | validators (keys : List String) (slot : Int)

/-- What a query to an endpoint answers. The number of a block may be null. -/
def BeaconQuery.Answer : BeaconQuery → Type
  | block _ => Value
  | validators _ _ => Table String Validator

/-- What a chain reader retrieves. -/
inductive ChainQuery where
  | address (contract : String) (block : Int)
  | price (block : Int)
  | minimumFraction (block : Int)
  | maximumFraction (block : Int)
  | rewardIndex (block : Int)
  | interval (index block : Int)
  | shares (index block : Int)
  | pendingRewards (index block : Int)
  | nodes (block : Int)
  | minipools (block : Int)

/-- What a query to a chain reader answers. -/
def ChainQuery.Answer : ChainQuery → Type
  | address _ _ => Value
  | price _ | minimumFraction _ | maximumFraction _ | rewardIndex _ => Int
  | interval _ _ | pendingRewards _ _ => Int
  | shares _ _ => RewardShares
  | nodes _ => List NodeRow
  | minipools _ => List MinipoolRow

namespace BeaconEndpoint

/-- Answers a query. -/
def answer (e : BeaconEndpoint) (out : Outside) : (q : BeaconQuery) → Reads q.Answer
  | .block slot => e.block out slot
  | .validators keys slot => e.validators out keys slot

/-- The readings that are stored for a query. -/
def stored (e : BeaconEndpoint) : BeaconQuery → List StoredReading
  | .block slot => [.block e.base slot]
  | .validators keys slot => e.batchReadings slot (batches e.batchSize (Table.distinct keys))

end BeaconEndpoint

namespace ChainReader

/-- Answers a query. -/
def answer (r : ChainReader) (out : Outside) : (q : ChainQuery) → Reads q.Answer
  | .address contract block => r.resolve out contract (.int block)
  | .price block => r.price out (.int block)
  | .minimumFraction block => r.minimumFraction out (.int block)
  | .maximumFraction block => r.maximumFraction out (.int block)
  | .rewardIndex block => r.rewardIndex out (.int block)
  | .interval index block => r.interval out index (.int block)
  | .shares index block => r.shares out index (.int block)
  | .pendingRewards index block => r.pendingRewards out index (.int block)
  | .nodes block => r.nodes out (.int block)
  | .minipools block => r.minipools out (.int block)

/-- The readings that are stored for a query. -/
def stored (r : ChainReader) : ChainQuery → List StoredReading
  | .nodes block => [.nodes r.storage (.int block)]
  | .minipools block => [.minipools r.storage (.int block)]
  | _ => []

end ChainReader

/-- A query to an endpoint, or to one of the chain readers. -/
inductive Retrieval where
  | beacon (e : BeaconEndpoint) (q : BeaconQuery)
  | chain (reader : Nat) (q : ChainQuery)

namespace Retrieval

/-- What a retrieval answers. -/
def Answer : Retrieval → Type
  | beacon _ q => q.Answer
  | chain _ q => q.Answer

/-- The keys of validators that are asked for. -/
def keys : Retrieval → List String
  | beacon _ (.validators keys _) => keys
  | _ => []

variable (readers : Nat → ChainReader)

/-- The readings that are stored for a retrieval. -/
def stored : Retrieval → List StoredReading
  | beacon e q => e.stored q
  | chain i q => (readers i).stored q

end Retrieval

/-! ### Runs -/

/-- The result of work and the session that it leaves behind. -/
def outcome {α : Type} : EStateM.Result Fault Session α → Except Fault α × Session
  | .ok a t => (.ok a, t)
  | .error fault t => (.error fault, t)

/-- What lasts from one retrieval to the next: the store, the addresses that each chain reader
remembers, and what has been asked. -/
structure Shared where
  store : Store
  addresses : Nat → Table (String × Value) Value
  history : History

namespace Shared

/-- The state in which no reader has done anything. -/
def start (store : Store) : Shared := ⟨store, fun _ => [], []⟩

/-- A session in which a reader with some addresses takes up the shared state. -/
def session (s : Shared) (addresses : Table (String × Value) Value) : Session :=
  ⟨s.store, addresses, .main, s.history, []⟩

/-- The state that a chain reader leaves behind. -/
def after (s : Shared) (reader : Nat) (t : Session) : Shared :=
  ⟨t.store, Function.update s.addresses reader t.addresses, t.history⟩

variable (out : Outside) (readers : Nat → ChainReader)

/-- Makes a retrieval. -/
def step (s : Shared) : (q : Retrieval) → Except Fault q.Answer × Shared
  | .beacon e q =>
    let (result, t) := outcome (e.answer out q (s.session []))
    (result, ⟨t.store, s.addresses, t.history⟩)
  | .chain i q =>
    let (result, t) := outcome ((readers i).answer out q (s.session (s.addresses i)))
    (result, s.after i t)

/-- The results of retrievals that are made one after the other. -/
def answers (s : Shared) : List Retrieval → List ((q : Retrieval) × Except Fault q.Answer)
  | [] => []
  | q :: rest =>
    let (result, t) := s.step out readers q
    ⟨q, result⟩ :: t.answers rest

end Shared

/-- The result of a retrieval by a new reader over a store, which it uses or not. -/
def Retrieval.anew (out : Outside) (readers : Nat → ChainReader) (useStore : Bool)
    (store : Store) : (q : Retrieval) → Except Fault q.Answer
  | .beacon e q => (outcome (BeaconEndpoint.answer { e with useStore } out q (.start store))).1
  | .chain i q => (outcome (ChainReader.answer { readers i with useStore } out q (.start store))).1

/-! ### Each query is steady -/

theorem outcome_ended {α : Type} (x : Except Fault α) (t : Session) :
    outcome (Sources.ended x t) = (x, t) := by
  cases x <;> rfl

/-- Two of some steady works have the same result. -/
theorem Reads.Steady.exists_outcome_eq {ι α : Type} {inv : ι → Session → Prop}
    {work : ι → Reads α} (h : Steady inv work) {i j : ι} {s u : Session} (hs : inv i s)
    (hu : inv j u) : ∃ t, outcome (work i s) = ((outcome (work j u)).1, t) ∧ inv i t := by
  obtain ⟨result, hresult⟩ := h
  obtain ⟨t, hworks, ht⟩ := hresult i s hs
  obtain ⟨v, hworku, -⟩ := hresult j u hu
  refine ⟨t, ?_, ht⟩
  rw [hworks, hworku, outcome_ended, outcome_ended]

variable {w : World} {readings : List StoredReading} {readers : Nat → ChainReader} {s : Shared}

section
variable (hsep : Store.Separates readings) (hplain : ∀ q ∈ readings, q.Plain)
include hsep hplain

theorem BeaconEndpoint.steady_answer {storage : String} (e : BeaconEndpoint) (q : BeaconQuery)
    (hq : e.stored q ⊆ readings) :
    Steady (fun _ : Bool => Session.Knows w storage (Store.GenuineFor w readings))
      (fun useStore => answer { e with useStore } w.outside q) := by
  cases q with
  | block slot => exact (ends_block hsep hplain e (hq List.mem_cons_self)).steady
  | validators keys slot =>
    exact steady_validators hsep hplain e fun batch hbatch => hq (List.mem_map_of_mem hbatch)

omit hsep hplain in
/-- What is not stored is steady anyway. -/
theorem ChainReader.steady_unstored (r : ChainReader) {q : ChainQuery} (hq : r.stored q = []) :
    Steady (Session.Knows w r.storage) fun _ => r.answer w.outside q := by
  cases q with
  | address contract block => exact steady_resolve r contract block
  | price block => exact steady_price r block
  | minimumFraction block => exact steady_minimumFraction r block
  | maximumFraction block => exact steady_maximumFraction r block
  | rewardIndex block => exact steady_rewardIndex r block
  | interval index block => exact steady_interval r index block
  | shares index block => exact steady_shares r index block
  | pendingRewards index block => exact steady_pendingRewards r index block
  | nodes block | minipools block => cases hq

theorem ChainReader.steady_answer (htexts : w.outside.Addresses Value.IsText) (r : ChainReader)
    (q : ChainQuery) (hq : r.stored q ⊆ readings) :
    Steady (fun _ : Bool => Session.Knows w r.storage (Store.GenuineFor w readings))
      (fun useStore => answer { r with useStore } w.outside q) := by
  cases q with
  | nodes block => exact steady_nodes hsep hplain htexts r (hq List.mem_cons_self)
  | minipools block => exact steady_minipools hsep hplain htexts r (hq List.mem_cons_self)
  | address contract block => exact (steady_unstored r rfl).comp _
  | price block | minimumFraction block | maximumFraction block | rewardIndex block
  | interval index block | shares index block | pendingRewards index block =>
    exact (steady_unstored r rfl).comp _

end

/-! ### The invariant -/

/-- The store is genuine, and each chain reader remembers addresses of the chain. -/
structure Shared.Genuine (w : World) (readers : Nat → ChainReader) (readings : List StoredReading)
    (s : Shared) : Prop where
  store : s.store.GenuineFor w readings
  addresses : ∀ i contract key address,
    Table.find? (s.addresses i) (contract, key) = some address →
      ∃ n : Int, key = .int n ∧ w.addressOf (readers i).storage contract (.int n) = .ok address

theorem Shared.genuine_start (present : Bool) :
    (Shared.start ⟨present, []⟩).Genuine w readers readings where
  store _ _ := ⟨none, rfl, nofun⟩
  addresses := by
    rintro i contract key address ⟨⟩

theorem Store.genuineFor_empty : Store.empty.GenuineFor w readings := fun _ _ => ⟨none, rfl, nofun⟩

/-- What a chain reader leaves behind is genuine if its session is. -/
theorem Shared.Genuine.after (hs : s.Genuine w readers readings) {i : Nat} {t : Session}
    (ht : t.Knows w (readers i).storage (Store.GenuineFor w readings)) :
    (s.after i t).Genuine w readers readings := by
  refine ⟨ht.store, fun j contract key address hfind => ?_⟩
  by_cases hij : j = i
  · rw [hij] at hfind ⊢
    simp only [Shared.after, Function.update_self] at hfind
    exact ht.addresses contract key address hfind
  · simp only [Shared.after, Function.update_of_ne hij] at hfind
    exact hs.addresses j contract key address hfind

section
variable (hsep : Store.Separates readings) (hplain : ∀ q ∈ readings, q.Plain)
  (htexts : w.outside.Addresses Value.IsText)
include hsep hplain htexts

/-- One retrieval has the result of a new reader and keeps the invariant. -/
theorem Shared.Genuine.step (hs : s.Genuine w readers readings) {q : Retrieval}
    (hq : q.stored readers ⊆ readings) :
    ∃ t, s.step w.outside readers q = (q.anew w.outside readers false .empty, t) ∧
      t.Genuine w readers readings := by
  have hstart : ∀ storage,
      (Session.start .empty).Knows w storage (Store.GenuineFor w readings) :=
    fun storage => .start .empty Store.genuineFor_empty
  cases q with
  | beacon e q =>
    -- an endpoint remembers no addresses, so those of any storage would do
    have hsession : (s.session []).Knows w "" (Store.GenuineFor w readings) :=
      ⟨by rintro contract key address ⟨⟩, hs.store⟩
    obtain ⟨t, hsame, ht⟩ := (e.steady_answer hsep hplain q hq).exists_outcome_eq
      (i := e.useStore) (j := false) hsession (hstart "")
    refine ⟨⟨t.store, s.addresses, t.history⟩, ?_, ht.store, hs.addresses⟩
    rw [Shared.step, hsame]
    rfl
  | chain i q =>
    have hsession : (s.session (s.addresses i)).Knows w (readers i).storage
        (Store.GenuineFor w readings) :=
      ⟨hs.addresses i, hs.store⟩
    obtain ⟨t, hsame, ht⟩ := ((readers i).steady_answer hsep hplain htexts q hq).exists_outcome_eq
      (i := (readers i).useStore) (j := false) hsession (hstart _)
    refine ⟨s.after i t, ?_, hs.after ht⟩
    rw [Shared.step, hsame]
    rfl

/-- A run from a genuine state has the results of new readers. -/
theorem Shared.Genuine.answers_eq (hs : s.Genuine w readers readings) {qs : List Retrieval}
    (hqs : ∀ q ∈ qs, q.stored readers ⊆ readings) :
    s.answers w.outside readers qs = qs.map fun q => ⟨q, q.anew w.outside readers false .empty⟩ := by
  induction qs generalizing s with
  | nil => rfl
  | cons q qs ih =>
    obtain ⟨t, hstep, ht⟩ := hs.step hsep hplain htexts (hqs q List.mem_cons_self)
    rw [Shared.answers, hstep, List.map_cons]
    exact congrArg _ (ih ht fun p hp => hqs p (List.mem_cons_of_mem q hp))

end

/-! ### Runs from an empty store -/

/-- Readings of a retrieval that asks for keys without colons can be told apart by their texts. -/
theorem Retrieval.plain_of_mem_stored {q : Retrieval} (hkeys : ∀ key ∈ q.keys, ':' ∉ key.toList)
    {p : StoredReading} (hp : p ∈ q.stored readers) : p.Plain := by
  cases q with
  | beacon e q =>
    cases q with
    | block slot =>
      rw [List.mem_singleton.1 hp]
      trivial
    | validators keys slot =>
      obtain ⟨batch, hbatch, rfl⟩ := List.mem_map.1 hp
      have hsub := (BeaconEndpoint.of_mem_batches e.positive hbatch).2
      exact fun key hkey => hkeys key (Table.mem_distinct.1 (hsub hkey))
  | chain i q =>
    cases q with
    | nodes block | minipools block =>
      rw [List.mem_singleton.1 hp]
      exact ⟨block, rfl⟩
    | _ => exact absurd hp List.not_mem_nil

/-- Over a world that does not change, from a store without files, every retrieval of a run has the
result that a new reader without the store has. The addresses of the chain are texts, digests must tell
the readings of the run apart, and the keys that are asked for must not have colons in them. -/
theorem Shared.answers_eq_anew (w : World) (htexts : w.outside.Addresses Value.IsText)
    (readers : Nat → ChainReader) (present : Bool) (qs : List Retrieval) (hsep : Store.Separates (qs.flatMap (Retrieval.stored readers)))
    (hkeys : ∀ q ∈ qs, ∀ key ∈ q.keys, ':' ∉ key.toList) :
    (Shared.start ⟨present, []⟩).answers w.outside readers qs =
      qs.map fun q => ⟨q, q.anew w.outside readers false .empty⟩ := by
  refine (Shared.genuine_start present).answers_eq hsep ?_ htexts ?_
  · intro p hp
    obtain ⟨q, hq, hp⟩ := List.mem_flatMap.1 hp
    exact Retrieval.plain_of_mem_stored (hkeys q hq) hp
  · exact fun q hq p hp => List.mem_flatMap.2 ⟨q, hq, hp⟩

/-! ### Two readers of each kind -/

/-- A world in which each request is answered with the same block, and each call with the same
text. -/
def sameAnswers : World where
  beacon _ _ := .response 200
    "\x7b\"data\":\x7b\"message\":\x7b\"body\":\x7b\"execution_payload\":\x7b\"block_number\":\"7\"\x7d\x7d\x7d\x7d\x7d"
  chain _ := .ok (.text "0x01")

theorem addresses_sameAnswers : sameAnswers.outside.Addresses Value.IsText := by
  rintro history c v - ⟨⟩
  exact .text "0x01"

/-- An endpoint that asks for one validator at a time. -/
def oneByOne : BeaconEndpoint := ⟨"http://b", 30, 1, true, Nat.one_pos⟩

/-- Two readers of the same contracts, of which the second one does not use the store. -/
def storedAndUnstored (reader : Nat) : ChainReader := ⟨"0xS", reader = 0⟩

/-- The block is found in the store the second time, and so are the nodes for the first reader. -/
def repeatedRetrievals : List Retrieval :=
  [.beacon oneByOne (.block 64), .chain 0 (.nodes 7), .chain 1 (.nodes 7), .chain 0 (.nodes 7),
    .beacon { oneByOne with batchSize := 2, positive := by decide } (.block 64),
    .beacon oneByOne (.validators ["0xab"] 64), .chain 1 (.price 7), .chain 1 (.rewardIndex 7)]

theorem answers_eq_anew_repeated :
    sameAnswers.outside.Addresses Value.IsText ∧
    Store.Separates (repeatedRetrievals.flatMap (Retrieval.stored storedAndUnstored)) ∧
    (∀ q ∈ repeatedRetrievals, ∀ key ∈ q.keys, ':' ∉ key.toList) ∧
    (Shared.start .empty).answers sameAnswers.outside storedAndUnstored repeatedRetrievals =
      repeatedRetrievals.map fun q => ⟨q, q.anew sameAnswers.outside storedAndUnstored false .empty⟩ := by
  have hsep : Store.Separates (repeatedRetrievals.flatMap (Retrieval.stored storedAndUnstored)) := by
    unfold Store.Separates
    decide +kernel
  have hkeys : ∀ q ∈ repeatedRetrievals, ∀ key ∈ q.keys, ':' ∉ key.toList := by
    simp only [repeatedRetrievals, List.forall_mem_cons]
    decide
  exact ⟨addresses_sameAnswers, hsep, hkeys,
    Shared.answers_eq_anew sameAnswers addresses_sameAnswers storedAndUnstored false _ hsep hkeys⟩

end StakeSnapshot
