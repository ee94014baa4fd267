import StakeSnapshot.Contracts.Catalogue
import StakeSnapshot.Proofs.Json.Regular
import StakeSnapshot.Session

/-!
# Sessions along a reading

Work that succeeds is taken apart at its steps by `Reads.ok_of_bind`, and `Session.Sound` says what
lasts through them: the store has values for certain readings only, and the addresses that are
remembered are those that the chain has. The questions asked, the lines told and the lane do not
matter for it.
-/

namespace StakeSnapshot

/-- A value is refused for a reading just if it is too deep. The key of a reading is not too long. -/
theorem Store.refusal?_key_eq_some_iff {q : StoredReading} {v : Value} {fault : Fault} :
    refusal? q.key v = some fault ↔ encode v = .error .tooDeep ∧ fault = .tooDeep .written := by
  have htakes : takes q.key = true := takes_key q.kind q.parts
  have hsize : ¬ maxKeySize < q.key.utf8ByteSize := by
    have hboth := htakes
    rw [takes, Bool.and_eq_true, decide_eq_true_iff] at hboth
    exact Nat.not_lt.2 hboth.2
  rw [refusal?, if_neg hsize, if_pos htakes]
  split
  · next hencode => simp [hencode, eq_comm]
  · next hencode =>
      have hne : encode v ≠ .error .tooDeep := hencode
      simp [hne]

theorem Store.encode_ne_tooDeep {v : Value} (hv : v.depth ≤ Json.maxDepth) :
    encode v ≠ .error .tooDeep :=
  fun h => Json.write_ne_tooDeep hv (Except.map_eq_error_iff.1 h)

theorem Store.refusal?_key {q : StoredReading} {v : Value} (hv : v.depth ≤ Json.maxDepth) :
    refusal? q.key v = none := by
  cases hrefusal : refusal? q.key v with
  | none => rfl
  | some fault => exact absurd (refusal?_key_eq_some_iff.1 hrefusal).1 (encode_ne_tooDeep hv)

/-! ### Work that succeeds -/

namespace Reads

variable {σ α β : Type} {s t : σ}

theorem ok_of_bind {work : EStateM Fault σ α} {next : α → EStateM Fault σ β} {b : β}
    (h : (work >>= next) s = .ok b t) : ∃ a u, work s = .ok a u ∧ next a u = .ok b t := by
  change EStateM.bind work next s = .ok b t at h
  unfold EStateM.bind at h
  cases hw : work s with
  | ok a u =>
    rw [hw] at h
    exact ⟨a, u, rfl, h⟩
  | error fault u =>
    rw [hw] at h
    cases h

theorem bind_of_ok {work : EStateM Fault σ α} {next : α → EStateM Fault σ β} {a : α}
    (h : work s = .ok a t) : (work >>= next) s = next a t := by
  change EStateM.bind work next s = next a t
  unfold EStateM.bind
  rw [h]

theorem bind_of_error {work : EStateM Fault σ α} {next : α → EStateM Fault σ β} {fault : Fault}
    (h : work s = .error fault t) : (work >>= next) s = .error fault t := by
  change EStateM.bind work next s = .error fault t
  unfold EStateM.bind
  rw [h]

theorem error_of_bind {work : EStateM Fault σ α} {next : α → EStateM Fault σ β} {fault : Fault}
    (h : (work >>= next) s = .error fault t) :
    work s = .error fault t ∨ ∃ a u, work s = .ok a u ∧ next a u = .error fault t := by
  cases hw : work s with
  | ok a u => exact .inr ⟨a, u, rfl, (bind_of_ok hw).symm.trans h⟩
  | error other u =>
    rw [bind_of_error hw] at h
    cases h
    exact .inl rfl

theorem ok_of_pure {a b : α} (h : (pure a : EStateM Fault σ α) s = .ok b t) : b = a ∧ t = s := by
  cases h
  exact ⟨rfl, rfl⟩

theorem ok_of_lift {x : Except Fault α} {a : α}
    (h : (liftM x : EStateM Fault σ α) s = .ok a t) : x = .ok a ∧ t = s := by
  cases x with
  | ok b =>
    cases h
    exact ⟨rfl, rfl⟩
  | error fault => cases h

theorem ok_of_mapM_nil {f : α → EStateM Fault σ β} {ys : List β}
    (h : ([].mapM f) s = .ok ys t) : ys = [] ∧ t = s := by
  rw [List.mapM_nil] at h
  exact ok_of_pure h

theorem ok_of_mapM_cons {f : α → EStateM Fault σ β} {x : α} {xs : List α} {ys : List β}
    (h : ((x :: xs).mapM f) s = .ok ys t) :
    ∃ y u rest, f x s = .ok y u ∧ xs.mapM f u = .ok rest t ∧ ys = y :: rest := by
  rw [List.mapM_cons] at h
  obtain ⟨y, u, hy, h⟩ := ok_of_bind h
  obtain ⟨rest, v, hrest, h⟩ := ok_of_bind h
  obtain ⟨rfl, rfl⟩ := ok_of_pure h
  exact ⟨y, u, rest, hy, hrest, rfl⟩

/-- Work on a list fails at its first member that fails. -/
theorem error_of_mapM {f : α → EStateM Fault σ β} {xs : List α} {fault : Fault}
    (h : xs.mapM f s = .error fault t) :
    ∃ before x after ys u, xs = before ++ x :: after ∧ before.mapM f s = .ok ys u ∧
      f x u = .error fault t := by
  induction xs generalizing s with
  | nil =>
    rw [List.mapM_nil] at h
    cases h
  | cons x xs ih =>
    rw [List.mapM_cons] at h
    cases hx : f x s with
    | error other u =>
      rw [bind_of_error hx] at h
      cases h
      exact ⟨[], x, xs, [], s, rfl, by rw [List.mapM_nil]; rfl, hx⟩
    | ok y u =>
      rw [bind_of_ok hx] at h
      cases hxs : xs.mapM f u with
      | ok ys v =>
        rw [bind_of_ok hxs] at h
        cases h
      | error other v =>
        rw [bind_of_error hxs] at h
        cases h
        obtain ⟨before, z, after, ys, w, rfl, hbefore, hz⟩ := ih hxs
        refine ⟨x :: before, z, after, y :: ys, w, rfl, ?_, hz⟩
        rw [List.mapM_cons, bind_of_ok hx, bind_of_ok hbefore]
        rfl

theorem mapM_of_error {f : α → EStateM Fault σ β} {before after : List α} {x : α} {ys : List β}
    {u : σ} {fault : Fault} (hbefore : before.mapM f s = .ok ys u) (hx : f x u = .error fault t) :
    (before ++ x :: after).mapM f s = .error fault t := by
  rw [List.mapM_append, bind_of_ok hbefore, List.mapM_cons]
  exact bind_of_error (bind_of_error hx)

theorem mapM_of_ok {f : α → EStateM Fault σ β} {x : α} {xs : List α} {y : β} {ys : List β} {u : σ}
    (hx : f x s = .ok y u) (hxs : xs.mapM f u = .ok ys t) :
    (x :: xs).mapM f s = .ok (y :: ys) t := by
  rw [List.mapM_cons, bind_of_ok hx, bind_of_ok hxs]
  rfl

theorem ok_of_within {lane : Lane} {work : Reads α} {a : α} {s t : Session}
    (h : within lane work s = .ok a t) :
    ∃ u, work { s with lane } = .ok a u ∧ t = { u with lane := s.lane } := by
  unfold within at h
  cases hwork : work { s with lane } with
  | ok b u =>
    rw [hwork] at h
    cases h
    exact ⟨u, rfl, rfl⟩
  | error fault u =>
    rw [hwork] at h
    cases h

theorem exists_lookUp (useStore : Bool) {q : Store.StoredReading} {s : Session}
    (hq : q.keyFault? = none) (h : s.store.load q.key = .ok none) :
    ∃ t, lookUp useStore q s = .ok none t := by
  unfold lookUp
  rw [hq, Store.look_of_writable hq, h]
  dsimp only
  split
  · exact ⟨_, rfl⟩
  · exact ⟨_, rfl⟩

/-- Storing a reading changes nothing but the store. -/
theorem frame_of_remember {useStore : Bool} {q : Store.StoredReading} {v : Value} {s t : Session}
    (h : remember useStore q v s = .ok () t ∨ ∃ fault, remember useStore q v s = .error fault t) :
    t.addresses = s.addresses ∧ t.history = s.history := by
  unfold remember Store.save at h
  cases useStore with
  | false =>
    rcases h with h | ⟨fault, h⟩
    · cases h
      exact ⟨rfl, rfl⟩
    · cases h
  | true =>
    rw [if_pos rfl] at h
    -- what is stored does not matter
    generalize s.store.set q.key v = stored at h
    cases hrefusal : Store.refusal? q.key v with
    | none =>
      rw [hrefusal] at h
      rcases h with h | ⟨fault, h⟩ <;> cases h
      exact ⟨rfl, rfl⟩
    | some refusal =>
      rw [hrefusal] at h
      rcases h with h | ⟨fault, h⟩ <;> cases h
      exact ⟨rfl, rfl⟩

/-- A reading that is stored is in the store afterwards, or has been refused. -/
theorem store_of_remember {q : Store.StoredReading} {v : Value} {s t : Session}
    (h : remember true q v s = .ok () t) : t = { s with store := s.store.set q.key v } := by
  unfold remember Store.save at h
  rw [if_pos rfl] at h
  generalize s.store.set q.key v = stored at h ⊢
  cases hrefusal : Store.refusal? q.key v with
  | none =>
    rw [hrefusal] at h
    cases h
    rfl
  | some refusal =>
    rw [hrefusal] at h
    cases h

/-- What is not too deep is stored for a reading without a refusal. -/
theorem remember_of_depth (q : Store.StoredReading) {v : Value} (hv : v.depth ≤ Json.maxDepth)
    (s : Session) : remember true q v s = .ok () { s with store := s.store.set q.key v } := by
  rw [remember, if_pos rfl, Store.save, Store.refusal?_key hv]

theorem exists_remember (useStore : Bool) (q : Store.StoredReading) {v : Value}
    (hv : v.depth ≤ Json.maxDepth) (s : Session) : ∃ t, remember useStore q v s = .ok () t := by
  cases useStore with
  | false => exact ⟨s, rfl⟩
  | true => exact ⟨_, remember_of_depth q hv s⟩

end Reads

/-! ### What the store holds -/

namespace Store

/-- Nothing is found under any key but those of the given readings. -/
def HoldsOnly (store : Store) (readings : List StoredReading) : Prop :=
  ∀ k, (∃ q ∈ readings, q.key = k) ∨ store.load k = .ok none

variable {store : Store} {readings : List StoredReading}

theorem holdsOnly_empty : empty.HoldsOnly [] := fun _ => .inr rfl

theorem HoldsOnly.set (h : store.HoldsOnly readings) (q : StoredReading) (v : Value) :
    (store.set q.key v).HoldsOnly (q :: readings) := by
  intro k
  by_cases heq : q.key = k
  · exact .inl ⟨q, List.mem_cons_self, heq⟩
  · rw [load_set_of_ne heq]
    exact (h k).imp_left fun ⟨p, hp, hkey⟩ => ⟨p, List.mem_cons_of_mem _ hp, hkey⟩

theorem HoldsOnly.mono (h : store.HoldsOnly readings) {more : List StoredReading}
    (hmore : readings ⊆ more) : store.HoldsOnly more :=
  fun k => (h k).imp_left fun ⟨q, hq, hkey⟩ => ⟨q, hmore hq, hkey⟩

theorem HoldsOnly.load_eq_none (h : store.HoldsOnly readings) {q : StoredReading}
    (hq : ∀ p ∈ readings, p.key ≠ q.key) : store.load q.key = .ok none := by
  rcases h q.key with ⟨p, hp, hkey⟩ | hload
  · exact absurd hkey (hq p hp)
  · exact hload

end Store

/-! ### What lasts through a reading -/

/-- The storage of the chain has an address for a contract at a block. -/
def Registered (chain : Call → Except Fault Value) (storage contract : String)
    (block address : Value) : Prop :=
  chain ⟨.text storage, Contracts.ViewFunction.address.name,
    some (.digest (Contracts.registryKey contract)), block⟩ = .ok address

/-- The store has values for the given readings only, and the addresses are those that the chain has at
integer blocks. -/
structure Session.Sound (chain : Call → Except Fault Value) (storage : String)
    (readings : List Store.StoredReading) (s : Session) : Prop where
  store : s.store.HoldsOnly readings
  addresses : ∀ contract key address,
    Table.find? s.addresses (contract, key) = some address →
      ∃ n : Int, key = .int n ∧ Registered chain storage contract (.int n) address

variable {out : Outside} {chain : Call → Except Fault Value} {storage : String}
  {readings : List Store.StoredReading} {s t : Session}

namespace Session.Sound

theorem start : (Session.start .empty).Sound chain storage [] where
  store := Store.holdsOnly_empty
  addresses := by
    intro contract key address h
    cases h

theorem of_eq (hs : s.Sound chain storage readings) (hstore : t.store = s.store)
    (haddresses : t.addresses = s.addresses) : t.Sound chain storage readings := by
  refine ⟨?_, ?_⟩
  · rw [hstore]
    exact hs.store
  · rw [haddresses]
    exact hs.addresses

theorem mono (hs : s.Sound chain storage readings) {more : List Store.StoredReading}
    (hmore : readings ⊆ more) : s.Sound chain storage more :=
  ⟨hs.store.mono hmore, hs.addresses⟩

theorem told (hs : s.Sound chain storage readings) (line : LogLine) :
    (s.told line).Sound chain storage readings :=
  hs.of_eq rfl rfl

/-- An address that was found is remembered. -/
theorem resolved (hs : s.Sound chain storage readings) {contract : String} {block : Int}
    {address : Value} (h : Registered chain storage contract (.int block) address) :
    ({ s with addresses := Table.put s.addresses (contract, .int block) address } : Session).Sound
      chain storage readings := by
  refine ⟨hs.store, ?_⟩
  intro contract' key address' hfind
  by_cases heq : (contract, Value.int block) = (contract', key)
  · cases heq
    rw [Table.find?_put_self] at hfind
    cases hfind
    exact ⟨block, rfl, h⟩
  · rw [Table.find?_put_of_ne heq] at hfind
    exact hs.addresses contract' key address' hfind

theorem call (hs : s.Sound chain storage readings)
    (hchain : ∀ history c, out.chain history c = chain c) {c : Call} {v : Value}
    (h : Reads.call out c s = .ok v t) : chain c = .ok v ∧ t.Sound chain storage readings := by
  unfold Reads.call at h
  rw [hchain] at h
  cases hc : chain c with
  | ok w =>
    rw [hc] at h
    cases h
    exact ⟨rfl, hs.of_eq rfl rfl⟩
  | error fault =>
    rw [hc] at h
    cases h

theorem request (hs : s.Sound chain storage readings) {r : Request} {reply : Reply}
    (h : Reads.request out r s = .ok reply t) :
    reply = out.beacon s.history r ∧ t.Sound chain storage readings := by
  cases h
  exact ⟨rfl, hs.of_eq rfl rfl⟩

/-- A reading that is not in the store is not found there. -/
theorem lookUp (hs : s.Sound chain storage readings) {useStore : Bool} {q : Store.StoredReading}
    {v? : Option Value} (hq : useStore = true → ∀ p ∈ readings, p.key ≠ q.key)
    (h : Reads.lookUp useStore q s = .ok v? t) : v? = none ∧ t.Sound chain storage readings := by
  unfold Reads.lookUp at h
  cases hkey : q.keyFault? with
  | some fault =>
    rw [hkey] at h
    cases h
  | none =>
  rw [hkey, Store.look_of_writable hkey] at h
  cases useStore with
  | false =>
    cases h
    exact ⟨rfl, hs⟩
  | true =>
    rw [hs.store.load_eq_none (hq rfl)] at h
    cases h
    exact ⟨rfl, hs.store, hs.addresses⟩

theorem remember (hs : s.Sound chain storage readings) {useStore : Bool}
    {q : Store.StoredReading} {v : Value} (h : Reads.remember useStore q v s = .ok () t) :
    t.Sound chain storage (q :: readings) := by
  cases useStore with
  | false =>
    cases h
    exact hs.mono (List.subset_cons_self q readings)
  | true =>
    obtain rfl := Reads.store_of_remember h
    refine ⟨?_, hs.addresses⟩
    dsimp only
    exact hs.store.set q v

/-- Lanes do not matter. -/
theorem within {α : Type} {lane : Lane} {work : Reads α} {a : α} {P : Prop}
    {more : List Store.StoredReading} (hs : s.Sound chain storage readings)
    (hwork : ∀ {s t}, Session.Sound chain storage readings s → work s = .ok a t →
      P ∧ t.Sound chain storage more)
    (h : Reads.within lane work s = .ok a t) : P ∧ t.Sound chain storage more := by
  obtain ⟨u, hu, rfl⟩ := Reads.ok_of_within h
  obtain ⟨hp, hsound⟩ := hwork (hs.of_eq (t := { s with lane }) rfl rfl) hu
  exact ⟨hp, hsound.of_eq rfl rfl⟩

end Session.Sound

end StakeSnapshot
