import Mathlib.Order.Defs.Unbundled
import StakeSnapshot.Proofs.Beacon.World
import StakeSnapshot.Proofs.Store.Kept

/-!
# The effects of readings

`Reads.Moves R` says of some work that the states before and after it are related by `R`, whether the
work succeeds or not. For a relation that can be followed through any number of steps, the parts of
some work pass it on to the whole. So every reading moves along a relation that allows for its
primitives: the questions that are asked, the address that is remembered, the line that is told
(`Session.Admits`), and for the readings that are stored also the store (`Session.AdmitsStore`). What
the questions are like is a parameter of both. Of a chain reader it is enough that a relation allows
for finding addresses and for all other calls (`ChainReader.Admitted`), whatever is remembered.
-/

namespace StakeSnapshot

namespace Reads
variable {σ α β : Type} {R : σ → σ → Prop} {s t : σ} {a : α} {fault : Fault}

/-- The state after some work, whether it has succeeded or failed. -/
def after (work : EStateM Fault σ α) (s : σ) : σ :=
  match work s with
  | .ok _ t => t
  | .error _ t => t

theorem after_of_ok {work : EStateM Fault σ α} (h : work s = .ok a t) : after work s = t := by
  rw [after, h]

theorem after_of_error {work : EStateM Fault σ α} (h : work s = .error fault t) :
    after work s = t := by rw [after, h]

theorem after_bind_of_ok {work : EStateM Fault σ α} {next : α → EStateM Fault σ β}
    (h : work s = .ok a t) : after (work >>= next) s = after (next a) t := by
  rw [after, bind_of_ok h, after]

theorem after_bind_of_error {work : EStateM Fault σ α} {next : α → EStateM Fault σ β}
    (h : work s = .error fault t) : after (work >>= next) s = t :=
  after_of_error (bind_of_error h)

/-- The states before and after the work are related, however it ends. -/
def Moves (R : σ → σ → Prop) (work : EStateM Fault σ α) : Prop := ∀ s, R s (after work s)

theorem Moves.of_ok {work : EStateM Fault σ α} (h : Moves R work) (hwork : work s = .ok a t) :
    R s t := by
  rw [← after_of_ok hwork]
  exact h s

theorem Moves.of_error {work : EStateM Fault σ α} (h : Moves R work)
    (hwork : work s = .error fault t) : R s t := by
  rw [← after_of_error hwork]
  exact h s

/-- Only the state that some work leaves behind matters, and not what it ends with. -/
theorem Moves.of_after {work : EStateM Fault σ α} {work' : EStateM Fault σ β} (h : Moves R work)
    (hafter : ∀ s, after work' s = after work s) : Moves R work' := by
  intro s
  rw [hafter]
  exact h s

/-! ### One step after the other -/

section
variable [IsPreorder σ R]

theorem Moves.pure (a : α) : Moves R (Pure.pure a : EStateM Fault σ α) := fun s => refl_of R s

theorem Moves.throw (fault : Fault) : Moves R (throw fault : EStateM Fault σ α) :=
  fun s => refl_of R s

theorem Moves.get : Moves R (MonadState.get : EStateM Fault σ σ) := fun s => refl_of R s

theorem Moves.lift (x : Except Fault α) : Moves R (liftM x : EStateM Fault σ α) := by
  intro s
  cases x with
  | ok a => exact refl_of R s
  | error fault => exact refl_of R s

theorem Moves.bind {work : EStateM Fault σ α} {next : α → EStateM Fault σ β} (h : Moves R work)
    (hnext : ∀ a, Moves R (next a)) : Moves R (work >>= next) := by
  intro s
  cases hwork : work s with
  | ok a t =>
    rw [after_bind_of_ok hwork]
    exact trans_of R (h.of_ok hwork) (hnext a t)
  | error fault t =>
    rw [after_bind_of_error hwork]
    exact h.of_error hwork

theorem Moves.mapM {f : α → EStateM Fault σ β} (h : ∀ x, Moves R (f x)) (xs : List α) :
    Moves R (xs.mapM f) := by
  induction xs with
  | nil => exact .pure []
  | cons x xs ih =>
    rw [List.mapM_cons]
    exact (h x).bind fun y => ih.bind fun rest => .pure (y :: rest)

theorem Moves.foldlM {f : β → α → EStateM Fault σ β} (h : ∀ b x, Moves R (f b x)) (xs : List α)
    (b : β) : Moves R (xs.foldlM f b) := by
  induction xs generalizing b with
  | nil => exact .pure b
  | cons x xs ih =>
    rw [List.foldlM_cons]
    exact (h b x).bind fun c => ih c

end

theorem Moves.attempt {work : EStateM Fault σ α} (h : Moves R work) :
    Moves R (Sources.attempt work) := by
  refine h.of_after fun s => ?_
  unfold after Sources.attempt
  cases work s <;> rfl

theorem Moves.reading {work : EStateM Fault σ α} (h : Moves R work) (what : Reading)
    (block : Value) (slot : Int) : Moves R (Sources.reading what block slot work) := by
  refine h.of_after fun s => ?_
  unfold after Sources.reading
  cases work s <;> rfl

end Reads

open Reads
open Store (StoredReading)

/-! ### What the primitives do -/

namespace Session

/-- A relation allows for the questions of a kind, for remembering addresses, for changing the lane
and for telling lines. -/
structure Admits (P : Question → Prop) (R : Session → Session → Prop) : Prop where
  asked : ∀ s q, P q → R s (s.asked q)
  remembered : ∀ (s : Session) addresses, R s { s with addresses }
  switched : ∀ (s : Session) lane, R s { s with lane }
  told : ∀ s line, R s (s.told line)

/-- A relation allows for opening the store, and for storing a value where there is none. -/
structure AdmitsStoring (R : Session → Session → Prop) : Prop where
  opened : ∀ s : Session, R s s.opened
  stored : ∀ (s : Session) (q : StoredReading) v, s.store.get? q.key = none →
    R s { s with store := s.store.set q.key v }

/-- A relation allows for all of these. -/
structure AdmitsStore (P : Question → Prop) (R : Session → Session → Prop) : Prop
    extends Admits P R, AdmitsStoring R

/-- The store is the same. -/
def SameStore (s t : Session) : Prop := t.store = s.store

instance : IsPreorder Session SameStore where
  refl _ := rfl
  trans _ _ _ h h' := Eq.trans h' h

theorem admits_sameStore (P : Question → Prop) : Admits P SameStore where
  asked _ _ _ := rfl
  remembered _ _ := rfl
  switched _ _ := rfl
  told _ _ := rfl

/-- Every question that is asked on the way from one session to another is of a kind. -/
def AskedOnly (P : Question → Prop) (s t : Session) : Prop :=
  ∃ asked, t.history = s.history ++ asked ∧ ∀ x ∈ asked, P x.2

section
variable {P Q : Question → Prop} {s t : Session}

theorem AskedOnly.of_history (h : t.history = s.history) : s.AskedOnly P t :=
  ⟨[], by rw [h, List.append_nil], fun x hx => absurd hx List.not_mem_nil⟩

theorem AskedOnly.mono (h : s.AskedOnly P t) (hPQ : ∀ q, P q → Q q) : s.AskedOnly Q t := by
  obtain ⟨asked, hasked, hall⟩ := h
  exact ⟨asked, hasked, fun x hx => hPQ x.2 (hall x hx)⟩

instance : IsPreorder Session (AskedOnly P) where
  refl _ := .of_history rfl
  trans := by
    rintro s t u ⟨xs, hxs, hall⟩ ⟨ys, hys, hall'⟩
    refine ⟨xs ++ ys, by rw [hys, hxs, List.append_assoc], fun x hx => ?_⟩
    rcases List.mem_append.1 hx with hx | hx
    · exact hall x hx
    · exact hall' x hx

theorem admitsStore_askedOnly (P : Question → Prop) : AdmitsStore P (AskedOnly P) where
  asked s q hq := by
    refine ⟨[(s.lane, q)], rfl, fun x hx => ?_⟩
    rwa [List.mem_singleton.1 hx]
  remembered _ _ := .of_history rfl
  switched _ _ := .of_history rfl
  told _ _ := .of_history rfl
  opened _ := .of_history rfl
  stored _ _ _ _ := .of_history rfl

end

end Session

open Session (Admits AdmitsStore AdmitsStoring SameStore)

section
variable {P : Question → Prop} {R : Session → Session → Prop} {α : Type}

theorem Session.Admits.moves_request (hR : Admits P R) (out : Outside) {r : Request}
    (h : P (.request r)) : Moves R (Reads.request out r) :=
  fun s => hR.asked s _ h

theorem Reads.call_apply (out : Outside) (c : Call) (s : Session) :
    Reads.call out c s = Sources.ended (out.chain s.history c) (s.asked (.call c)) := by
  unfold Reads.call
  dsimp only
  cases out.chain s.history c <;> rfl

theorem Reads.after_call (out : Outside) (c : Call) (s : Session) :
    Reads.after (Reads.call out c) s = s.asked (.call c) := by
  rw [Reads.after, call_apply]
  cases out.chain s.history c <;> rfl

theorem Session.Admits.moves_call (hR : Admits P R) (out : Outside) {c : Call} (h : P (.call c)) :
    Moves R (Reads.call out c) := by
  intro s
  rw [after_call]
  exact hR.asked s _ h

theorem Session.Admits.moves_tell (hR : Admits P R) (line : LogLine) :
    Moves R (Reads.tell line) :=
  fun s => hR.told s line

theorem Session.Admits.moves_remember (hR : Admits P R) (contract : String)
    (key address : Value) :
    Moves R (modify fun s => { s with
      addresses := Table.put s.addresses (contract, key) address } : Reads PUnit) :=
  fun s => hR.remembered s _

variable [IsPreorder Session R]

theorem Session.Admits.moves_within (hR : Admits P R) {work : Reads α} (h : Moves R work)
    (lane : Lane) : Moves R (Reads.within lane work) := by
  intro s
  have hafter : Reads.after (Reads.within lane work) s =
      { Reads.after work { s with lane } with lane := s.lane } := by
    unfold Reads.after Reads.within
    cases work { s with lane } <;> rfl
  have hwork := trans_of R (hR.switched s lane) (h { s with lane })
  rw [hafter]
  exact trans_of R hwork (hR.switched _ s.lane)

/-- A reading by way of the store stores nothing where something is stored, provided that the fresh
work leaves the store alone. -/
theorem Session.AdmitsStoring.moves_kept (hR : AdmitsStoring R) {useStore : Bool} {q : StoredReading}
    {ofStored : Value → Except Fault α} {form? : α → Option Value} {fresh : Reads α}
    (hfresh : Moves R fresh) (hstore : Moves SameStore fresh) :
    Moves R (kept useStore q ofStored form? fresh) := by
  intro s
  have hend := keptEnd useStore q ofStored form? fresh s
  rw [Reads.after]
  generalize kept useStore q ofStored form? fresh s = result at hend
  -- when the fresh work is done, nothing has been stored in the meantime
  have hstoring : ∀ {a t} v, s.store.look q = .ok none → fresh s.opened = .ok a t →
      R s { t with store := t.store.set q.key v } := by
    intro a t v hlook hresult
    have hnone : t.store.get? q.key = none := by
      rw [show t.store = s.opened.store from hstore.of_ok hresult]
      exact Store.get?_of_load (Store.load_of_look hlook)
    exact trans_of R (trans_of R (hR.opened s) (hfresh.of_ok hresult)) (hR.stored t q v hnone)
  cases hend with
  | barred _ ht =>
    rcases ht with rfl | rfl
    · exact refl_of R _
    · exact hR.opened s
  | unused => exact hfresh s
  | @stored v => cases ofStored v <;> exact hR.opened s
  | failed _ _ hresult => exact trans_of R (hR.opened s) (hfresh.of_error hresult)
  | formless _ _ hresult => exact trans_of R (hR.opened s) (hfresh.of_ok hresult)
  | formed _ hlook hresult => exact hstoring _ hlook hresult
  | refused _ hlook hresult => exact hstoring _ hlook hresult

/-! ### A beacon node -/

namespace BeaconEndpoint
variable (e : BeaconEndpoint) (out : Outside) (slot : Int)

/-- The request for what is at a path. -/
def requestAt (path : String) (keys : Option (List String)) : Request :=
  ⟨e.base, path, keys, e.timeout⟩

/-- The path at which a beacon node has the block of a slot. -/
def blockPath (slot : Int) : String := "/eth/v2/beacon/blocks/" ++ numberText slot

theorem moves_fetch (hR : Admits P R) {path : String} {keys : Option (List String)}
    (h : P (.request (e.requestAt path keys))) (mayBeMissing : Bool) :
    Moves R (e.fetch out path keys mayBeMissing) := by
  rw [fetch_eq]
  exact (hR.moves_request out h).bind fun reply => .lift _

theorem moves_freshBlock (hR : Admits P R) (h : P (.request (e.requestAt (blockPath slot) none))) :
    Moves R (e.freshBlock out slot) := by
  refine (e.moves_fetch out hR h true).bind fun data => ?_
  cases data with
  | null => exact .pure _
  | _ => exact (Moves.lift _).bind fun n => .pure _

theorem moves_block (hR : AdmitsStore P R)
    (h : P (.request (e.requestAt (blockPath slot) none))) : Moves R (e.block out slot) := by
  rw [block_eq_kept]
  exact hR.moves_kept (e.moves_freshBlock out slot hR.toAdmits h)
    (e.moves_freshBlock out slot (Session.admits_sameStore P) h)

theorem moves_batchValue (hR : AdmitsStore P R) {batch : List String}
    (h : P (.request (e.batchRequest slot batch))) : Moves R (e.batchValue out batch slot) := by
  rw [batchValue_eq_kept]
  exact hR.moves_kept (e.moves_fetch out hR.toAdmits h false)
    (e.moves_fetch out (Session.admits_sameStore P) h false)

theorem moves_addBatch (hR : AdmitsStore P R) {batch : List String}
    (h : P (.request (e.batchRequest slot batch))) (found : Table String Validator) :
    Moves R (e.addBatch out slot found batch) :=
  (e.moves_batchValue out slot hR h).bind fun _ => (Moves.lift _).bind fun _ => .lift _

theorem moves_validators (hR : AdmitsStore P R)
    (h : ∀ batch, P (.request (e.batchRequest slot batch))) (keys : List String) :
    Moves R (e.validators out keys slot) :=
  .foldlM (fun found batch => e.moves_addBatch out slot hR (h batch) found) _ _

theorem moves_rowValidators (hR : AdmitsStore P R)
    (h : ∀ batch, P (.request (e.batchRequest slot batch))) (keys : List Value) :
    Moves R (e.rowValidators out keys slot) :=
  .foldlM (fun found _ => (Moves.lift _).bind fun keys =>
    e.moves_addBatch out slot hR (h keys) found) _ _

theorem moves_timing (hR : Admits P R) (h : ∀ path, P (.request (e.requestAt path none))) :
    Moves R (e.timing out) :=
  (e.moves_fetch out hR (h _) false).bind fun _ => (e.moves_fetch out hR (h _) false).bind fun _ =>
    (Moves.lift _).bind fun _ => (Moves.lift _).bind fun _ => (Moves.lift _).bind fun _ =>
    (Moves.lift _).bind fun _ => (Moves.lift _).bind fun _ => (Moves.lift _).bind fun _ => .pure _

theorem moves_finalizedSlot (hR : Admits P R) (h : ∀ path, P (.request (e.requestAt path none))) :
    Moves R (e.finalizedSlot out) :=
  (e.moves_fetch out hR (h _) false).bind fun _ => (Moves.lift _).bind fun _ =>
    (Moves.lift _).bind fun _ => (Moves.lift _).bind fun _ => .lift _

end BeaconEndpoint

/-! ### A chain at a block -/

namespace ChainReader

/-- A relation allows for finding the addresses of contracts at a block, and for calls of all other
functions there. -/
structure Admitted (r : ChainReader) (out : Outside) (block : Value)
    (R : Session → Session → Prop) : Prop where
  called : ∀ c : Call, c.block = block → c.function ≠ Contracts.ViewFunction.address.name →
    Moves R (Reads.call out c)
  resolved : ∀ contract, Moves R (r.resolve out contract block)

variable {r : ChainReader} {out : Outside} {block : Value}

section
variable (h : ∀ c : Call, c.block = block → c.function ≠ Contracts.ViewFunction.address.name →
  Moves R (Reads.call out c))
include h

omit [IsPreorder Session R] in
theorem moves_ask (address : Value) {f : Contracts.ViewFunction}
    (hf : f.name ≠ Contracts.ViewFunction.address.name) (argument : Option Argument) :
    Moves R (ask out address f argument block) :=
  h _ rfl hf

theorem moves_askInt (address : Value) {f : Contracts.ViewFunction}
    (hf : f.name ≠ Contracts.ViewFunction.address.name) (argument : Option Argument) :
    Moves R (askInt out address f argument block) :=
  (moves_ask h address hf argument).bind fun _ => .lift _

theorem moves_addressesFrom (contract : Value) {entryAt : Contracts.ViewFunction}
    (hentry : entryAt.name ≠ Contracts.ViewFunction.address.name) (count index : Nat) :
    Moves R (addressesFrom out contract entryAt block count index) := by
  induction count generalizing index with
  | zero => exact .pure _
  | succ count ih =>
    exact (moves_ask h _ hentry _).bind fun _ => (ih (index + 1)).bind fun _ => .pure _

theorem moves_addresses (contract : Value) {count entryAt : Contracts.ViewFunction}
    (hcount : count.name ≠ Contracts.ViewFunction.address.name)
    (hentry : entryAt.name ≠ Contracts.ViewFunction.address.name) :
    Moves R (addresses out contract count entryAt block) := by
  refine (moves_askInt h _ hcount _).bind fun n => ?_
  have hrest := moves_addressesFrom h contract hentry n.toNat 0
  dsimp only
  split
  · exact (Moves.throw _).bind fun _ => hrest
  · exact hrest

theorem moves_nodeRow (manager staking address : Value) :
    Moves R (nodeRow out manager staking block address) :=
  (moves_askInt h _ (by decide) _).bind fun _ =>
    (moves_askInt h _ (by decide) _).bind fun _ => .pure _

theorem moves_minipoolRow (manager address : Value) :
    Moves R (minipoolRow out manager block address) :=
  (moves_ask h _ (by decide) _).bind fun _ =>
    (moves_ask h _ (by decide) _).bind fun _ => (Moves.lift _).bind fun _ =>
    (moves_ask h _ (by decide) _).bind fun _ =>
    (moves_askInt h _ (by decide) _).bind fun _ => (Moves.lift _).bind fun _ =>
    (moves_askInt h _ (by decide) _).bind fun _ =>
    (moves_askInt h _ (by decide) _).bind fun _ => .pure _

end

end ChainReader

/-- What allows for calls and for remembering addresses allows for finding addresses. -/
theorem Session.Admits.admitted (hR : Admits P R) (r : ChainReader) (out : Outside)
    (hP : ∀ c : Call, c.block = block → P (.call c)) : r.Admitted out block R where
  called c hc _ := hR.moves_call out (hP c hc)
  resolved contract := by
    refine (Moves.lift _).bind fun key => Moves.get.bind fun s => ?_
    cases Table.find? s.addresses (contract, key) with
    | some address => exact .pure _
    | none =>
      refine (hR.moves_call out (hP _ rfl)).bind fun address => (Moves.lift _).bind fun zero => ?_
      dsimp only
      split
      · exact (Moves.throw _).bind fun _ => (hR.moves_remember _ _ _).bind fun _ => .pure _
      · exact (hR.moves_remember _ _ _).bind fun _ => .pure _

namespace ChainReader
variable {r : ChainReader} {out : Outside} {block : Value}

namespace Admitted
variable (h : r.Admitted out block R)
include h

theorem moves_askResolved (contract : String) {f : Contracts.ViewFunction}
    (hf : f.name ≠ Contracts.ViewFunction.address.name) (argument : Option Argument) :
    Moves R (do askInt out (← r.resolve out contract block) f argument block : Reads Int) :=
  (h.resolved contract).bind fun _ => moves_askInt h.called _ hf _

theorem moves_shares (index : Int) : Moves R (r.shares out index block) :=
  (h.resolved _).bind fun _ => (moves_askInt h.called _ (by decide) _).bind fun _ =>
    (moves_askInt h.called _ (by decide) _).bind fun _ =>
    (moves_askInt h.called _ (by decide) _).bind fun _ => .pure _

theorem moves_freshNodes : Moves R (r.freshNodes out block) :=
  (h.resolved _).bind fun _ => (h.resolved _).bind fun _ =>
    (moves_addresses h.called _ (by decide) (by decide)).bind fun _ =>
    .mapM (fun _ => moves_nodeRow h.called _ _ _) _

theorem moves_freshMinipools : Moves R (r.freshMinipools out block) :=
  (h.resolved _).bind fun _ =>
    (moves_addresses h.called _ (by decide) (by decide)).bind fun _ =>
    .mapM (fun _ => moves_minipoolRow h.called _ _) _

end Admitted

/-- Any call leaves the store alone, and so does finding an address. -/
theorem admitted_sameStore (r : ChainReader) (out : Outside) (block : Value) :
    r.Admitted out block SameStore :=
  (Session.admits_sameStore fun _ => True).admitted r out fun _ _ => trivial

theorem Admitted.moves_nodes (h : r.Admitted out block R) (hR : AdmitsStoring R) :
    Moves R (r.nodes out block) := by
  rw [nodes, storedList_eq_kept]
  exact hR.moves_kept h.moves_freshNodes
    (r.admitted_sameStore out block).moves_freshNodes

theorem Admitted.moves_minipools (h : r.Admitted out block R) (hR : AdmitsStoring R) :
    Moves R (r.minipools out block) := by
  rw [minipools, storedList_eq_kept]
  exact hR.moves_kept h.moves_freshMinipools
    (r.admitted_sameStore out block).moves_freshMinipools

end ChainReader

/-! ### A snapshot -/

namespace Sources
variable (out : Outside) (e : BeaconEndpoint) (r : ChainReader) {block : Value} (slot : Int)

theorem moves_parameters (h : r.Admitted out block R) :
    Moves R ((ofReaders out e r).parameters block slot) :=
  ((h.moves_askResolved _ (by decide) _).reading _ _ _).bind fun _ =>
  ((h.moves_askResolved _ (by decide) _).reading _ _ _).bind fun _ =>
  ((h.moves_askResolved _ (by decide) _).reading _ _ _).bind fun _ =>
  ((h.moves_askResolved _ (by decide) _).reading _ _ _).bind fun index =>
  ((h.moves_askResolved _ (by decide) _).reading _ _ _).bind fun _ =>
  ((h.moves_shares index).reading _ _ _).bind fun _ =>
  ((h.moves_askResolved _ (by decide) _).reading _ _ _).bind fun _ => .pure _

section
variable (hR : AdmitsStore P R)
include hR

theorem moves_pinnedBlock (h : P (.request (e.requestAt (BeaconEndpoint.blockPath slot) none))) :
    Moves R ((ofReaders out e r).pinnedBlock slot) := by
  refine (e.moves_block out slot hR h).attempt.bind fun answer => ?_
  cases answer with
  | error fault => exact .throw _
  | ok block =>
    cases block with
    | null => exact .throw _
    | _ => exact .pure _

theorem moves_tell (log : Logger) (line : LogLine) : Moves R ((ofReaders out e r).tell log line) := by
  intro s
  have hmodify := hR.moves_tell line s
  unfold tell
  cases hline : log line with
  | ok _ => exact hmodify
  | error fault => exact refl_of R s

variable (hP : ∀ c : Call, c.block = block → P (.call c))
include hP

theorem moves_lists (log : Logger) : Moves R ((ofReaders out e r).lists log block slot) :=
  have h := hR.admitted r out hP
  ((hR.moves_within (h.moves_nodes hR.toAdmitsStoring) _).reading _ _ _).attempt.bind fun _ =>
  ((hR.moves_within (h.moves_minipools hR.toAdmitsStoring) _).reading _ _ _).attempt.bind fun _ =>
  (Moves.lift _).bind fun _ => (moves_tell out e r hR log _).bind fun _ =>
  (Moves.lift _).bind fun _ => (moves_tell out e r hR log _).bind fun _ => .pure _

/-- What is done for a snapshot once its block is known. -/
def pinned {κ ν μ : Type} [Indexing κ ν μ] (src : Sources Session κ ν μ) (log : Logger) (slot : Int)
    (timing : ChainTiming) (block : Value) : Reads (SnapshotOf κ ν μ) := do
  let parameters ← src.parameters block slot
  src.tell log (.started block slot)
  let (nodes, minipools) ← src.lists log block slot
  let lookups ← Indexing.index nodes minipools
  src.tell log .indexed
  let validators ← reading .validators block slot (src.validators lookups.pubkeys slot)
  src.tell log .validatorsRead
  return { block, slot, timing, parameters, nodes, minipools, validators, lookups }

theorem moves_pinned (h : ∀ batch, P (.request (e.batchRequest slot batch))) (log : Logger)
    (timing : ChainTiming) : Moves R ((ofReaders out e r).pinned log slot timing block) :=
  (moves_parameters out e r slot (hR.admitted r out hP)).bind fun _ =>
  (moves_tell out e r hR log _).bind fun _ => (moves_lists out e r slot hR hP log).bind fun _ =>
  (Moves.lift _).bind fun _ => (moves_tell out e r hR log _).bind fun _ =>
  ((e.moves_rowValidators out slot hR h _).reading _ _ _).bind fun _ =>
  (moves_tell out e r hR log _).bind fun _ => .pure _

end

theorem toldSnapshot_eq {κ ν μ : Type} [Indexing κ ν μ] (src : Sources Session κ ν μ) (log : Logger)
    (slot : Int) (timing : ChainTiming) :
    src.toldSnapshot log slot timing = src.pinnedBlock slot >>= src.pinned log slot timing := rfl

end Sources

end

end StakeSnapshot
