import Mathlib.Data.List.DropRight
import StakeSnapshot.Proofs.Json.RoundTrip
import StakeSnapshot.Text.Digit

/-!
# The store as a map

Values are put into a store, looked up and cleared away in any order. What is found under a key then
depends on the operations alone: it is the value of the last operation since the store was cleared
that stored one there (`Store.latest?`). A value without a text changes no file, null counts as no
value, and a key that is too long for the directory never has one. To store under such a key fails, and
so does storing what is too deep, which leaves a draft behind (`Store.refusal?`). The invariant is
`Store.Holds`, which each operation keeps (`Holds.next`). `performAll_latest` says it of all runs.
-/

namespace StakeSnapshot

namespace Store

/-- A key of hexadecimal digits. -/
def IsHexKey (key : String) : Prop := ∀ c ∈ key.toList, (Text.hexValue? c).isSome

instance (key : String) : Decidable (IsHexKey key) :=
  List.decidableBAll (fun c => (Text.hexValue? c).isSome) key.toList

/-- What is done with a store. -/
inductive Operation where
  | set (key : String) (v : Value)
  | get (key : String)
  | clear

namespace Operation

/-- The key has hexadecimal digits only, and the value is kept in one way only. -/
def Valid : Operation → Prop
  | set key v => IsHexKey key ∧ v.WellFormed
  | get key => IsHexKey key
  | clear => True

/-- The operation clears the store. -/
def isClear : Operation → Bool
  | clear => true
  | _ => false

/-- The value that is stored under a key, if it has a text. -/
def value? (key : String) : Operation → Option Value
  | set key' v => if key' = key ∧ (encode v).isOk then some v else none
  | _ => none

/-- The operation stores a value under a key that is too deep. -/
def DeepUnder (key : String) (op : Operation) : Prop :=
  ∃ v, op = set key v ∧ encode v = .error .tooDeep

end Operation

/-- What an operation does with a store, and the value that it looks up. -/
def perform : Operation → EStateM Fault Store (Option Value)
  | .set key v => do
    save key v
    return none
  | .get key => fun s =>
    match s.load key with
    | .ok v? => .ok v? s.ensured
    | .error fault => .error fault s.ensured
  | .clear => fun _ => .ok none .empty

/-- The store after an operation, whether it succeeds or fails. -/
def next (s : Store) (op : Operation) : Store :=
  match perform op s with
  | .ok _ t => t
  | .error _ t => t

/-- The store after operations that are performed one after the other. -/
def performAll (s : Store) (ops : List Operation) : Store := ops.foldl next s

/-- The value of the last operation since the store was cleared that stored one under a key. -/
def latest? (ops : List Operation) (key : String) : Option Value :=
  ((ops.rtakeWhile fun op => !op.isClear).filterMap (·.value? key)).getLast?

variable {s : Store} {key : String} {v : Value} {ops : List Operation} {op : Operation}

/-! ### Keys, values and operations -/

theorem IsHexKey.takes (h : IsHexKey key) (hsize : key.utf8ByteSize ≤ maxKeySize) :
    takes key := by
  have hslash : '/' ∉ key.toList := fun hmem => absurd (h '/' hmem) (by decide)
  simpa [Store.takes, hslash] using hsize

theorem takes_of_long (hsize : maxKeySize < key.utf8ByteSize) : takes key = false := by
  simp [Store.takes, Nat.not_le.2 hsize]

theorem set_of_long (hsize : maxKeySize < key.utf8ByteSize) (s : Store) (v : Value) :
    s.set key v = s.ensured := by
  rw [Store.set, takes_of_long hsize]
  rfl

/-- A value is stored, or is refused. -/
theorem perform_set (s : Store) (key : String) (v : Value) :
    perform (.set key v) s =
      match refusal? key v with
      | none => .ok none (s.set key v)
      | some fault => .error fault (s.set key v) := by
  rw [perform]
  change EStateM.bind (save key v) _ s = _
  unfold EStateM.bind save
  cases refusal? key v <;> rfl

theorem next_set (s : Store) (key : String) (v : Value) : s.next (.set key v) = s.set key v := by
  rw [next, perform_set]
  cases refusal? key v <;> rfl

theorem perform_get (s : Store) (key : String) :
    perform (.get key) s =
      match s.load key with
      | .ok v? => .ok v? s.ensured
      | .error fault => .error fault s.ensured := rfl

theorem next_get (s : Store) (key : String) : s.next (.get key) = s.ensured := by
  rw [next, perform_get]
  cases s.load key <;> rfl

/-- A key that fits is refused only if the value is too deep. -/
theorem refusal?_eq_none_iff (hkey : IsHexKey key) : refusal? key v = none ↔
    key.utf8ByteSize ≤ maxKeySize ∧ encode v ≠ .error .tooDeep := by
  unfold refusal?
  by_cases hsize : maxKeySize < key.utf8ByteSize
  · simp [hsize, Nat.not_le.2 hsize]
  · rw [if_neg hsize, if_pos (hkey.takes (Nat.not_lt.1 hsize)), and_iff_right (Nat.not_lt.1 hsize)]
    split
    · next htooDeep => simp [htooDeep]
    · next hother => simpa using hother

theorem latest?_concat (ops : List Operation) (op : Operation) (key : String) :
    latest? (ops ++ [op]) key =
      if op.isClear then none else (op.value? key).or (latest? ops key) := by
  rw [latest?, List.rtakeWhile_concat]
  cases op.isClear with
  | true => rfl
  | false =>
    rw [Bool.not_false, if_pos rfl, if_neg Bool.false_ne_true, List.filterMap_append,
      List.getLast?_append]
    cases hvalue : op.value? key <;> simp [hvalue, latest?]

/-- A value with a text that was stored last is the latest one of its key. -/
theorem latest?_set (ops : List Operation) (key : String) (h : (encode v).isOk) :
    latest? (ops ++ [.set key v]) key = some v := by
  rw [latest?_concat, if_neg (by simp [Operation.isClear]), Operation.value?, if_pos ⟨rfl, h⟩]
  rfl

/-! ### The files -/

/-- Writing under a key that fits leaves a file for the key if the value has a text, and the draft only
if the value is too deep. -/
theorem mem_keys_files_set (hnodup : (Table.keys s.files).Nodup) (htakes : takes key) {name : String} :
    name ∈ Table.keys (s.set key v).files ↔
      name = fileName key ∧ (encode v).isOk ∨ name = draftName key ∧ encode v = .error .tooDeep ∨
        name ≠ draftName key ∧ name ∈ Table.keys s.files := by
  have hdrafted := Table.nodup_keys_put hnodup (draftName key) ByteArray.empty
  have herased : name ∈ Table.keys ((Table.put s.files (draftName key) .empty).erase (draftName key)) ↔
      name ≠ draftName key ∧ name ∈ Table.keys s.files := by
    rw [Table.keys_erase, hdrafted.mem_erase_iff, Table.mem_keys_put]
    exact and_congr_right fun hne => or_iff_right hne
  rw [Store.set, if_pos htakes]
  dsimp only
  cases hencode : encode v with
  | ok contents => simp [Table.mem_keys_put, herased, Except.isOk, Except.toBool]
  | error refusal =>
    cases refusal with
    | unwritable => simp [herased, Except.isOk, Except.toBool]
    | tooDeep =>
      simp only [Table.mem_keys_put, Except.isOk, Except.toBool, Bool.false_eq_true, and_false,
        false_or, and_true]
      by_cases hname : name = draftName key <;> simp [hname]

theorem nodup_keys_files_set (hnodup : (Table.keys s.files).Nodup) :
    (Table.keys (s.set key v).files).Nodup := by
  have hdrafted := Table.nodup_keys_put hnodup (draftName key) ByteArray.empty
  have herased : (Table.keys ((Table.put s.files (draftName key) .empty).erase
      (draftName key))).Nodup := by
    rw [Table.keys_erase]
    exact hdrafted.erase _
  rw [Store.set]
  split
  · dsimp only
    cases encode v with
    | ok contents => exact Table.nodup_keys_put herased _ _
    | error refusal =>
      cases refusal with
      | unwritable => exact herased
      | tooDeep => exact hdrafted
  · exact hnodup

/-! ### One operation -/

/-- After some operations, a key that fits has the latest value that was stored under it, and any other
key has none. Every file is that of a key, or the draft of a value that was too deep. -/
structure Holds (s : Store) (ops : List Operation) : Prop where
  latest : ∀ key, IsHexKey key → key.utf8ByteSize ≤ maxKeySize →
    s.load key = .ok ((latest? ops key).bind Value.nonNull?)
  long : ∀ key, maxKeySize < key.utf8ByteSize → s.load key = .ok none
  nodup : (Table.keys s.files).Nodup
  tidy : ∀ name ∈ Table.keys s.files, ∃ key, IsHexKey key ∧ key.utf8ByteSize ≤ maxKeySize ∧
    (name = fileName key ∨ name = draftName key ∧ ∃ op ∈ ops, op.DeepUnder key)

theorem Holds.empty : empty.Holds [] where
  latest _ _ _ := rfl
  long _ _ := rfl
  nodup := List.nodup_nil
  tidy := by rintro name ⟨⟩

/-- A key that fits has the value that an operation stores under it. -/
theorem load_set (htakes : takes key) (hv : v.WellFormed) (s : Store) :
    (s.set key v).load key = if (encode v).isOk then .ok v.nonNull? else s.load key := by
  cases hcontents : encode v with
  | error refusal => exact load_set_of_error hcontents key key
  | ok contents =>
    obtain ⟨text, htext, -⟩ := Except.map_eq_ok_iff.1 hcontents
    have htextual := (Json.exists_write_iff.1 ⟨text, htext⟩).1
    rw [load_set_self htakes hcontents]
    exact decode_of_encode (hv.regular htextual) hcontents

theorem Holds.latest_next (h : s.Holds ops) (hop : op.Valid) {k : String} (hk : IsHexKey k)
    (hsize : k.utf8ByteSize ≤ maxKeySize) :
    (s.next op).load k = .ok ((latest? (ops ++ [op]) k).bind Value.nonNull?) := by
  rw [latest?_concat]
  cases op with
  | clear => rfl
  | get key =>
    rw [next_get]
    exact h.latest k hk hsize
  | set key v =>
    obtain ⟨hkey, hv⟩ := hop
    rw [next_set, if_neg (by simp [Operation.isClear]), Operation.value?]
    by_cases hne : key = k
    · subst hne
      rw [load_set (hkey.takes hsize) hv, h.latest key hkey hsize]
      cases encode v <;> simp [Except.isOk, Except.toBool]
    · rw [load_set_of_ne hne, if_neg fun hboth => hne hboth.1]
      exact h.latest k hk hsize

theorem Holds.long_next (h : s.Holds ops) (op : Operation) {k : String}
    (hsize : maxKeySize < k.utf8ByteSize) : (s.next op).load k = .ok none := by
  cases op with
  | clear => rfl
  | get key =>
    rw [next_get]
    exact h.long k hsize
  | set key v =>
    rw [next_set]
    by_cases hne : key = k
    · rw [hne, set_of_long hsize]
      exact h.long k hsize
    · rw [load_set_of_ne hne]
      exact h.long k hsize

theorem Holds.nodup_next (h : s.Holds ops) (op : Operation) :
    (Table.keys (s.next op).files).Nodup := by
  cases op with
  | clear => exact List.nodup_nil
  | get key =>
    rw [next_get]
    exact h.nodup
  | set key v =>
    rw [next_set]
    exact nodup_keys_files_set h.nodup

theorem Holds.tidy_next (h : s.Holds ops) (hop : op.Valid) {name : String}
    (hname : name ∈ Table.keys (s.next op).files) :
    ∃ key, IsHexKey key ∧ key.utf8ByteSize ≤ maxKeySize ∧
      (name = fileName key ∨ name = draftName key ∧ ∃ op' ∈ ops ++ [op], op'.DeepUnder key) := by
  have hbefore : ∀ {name}, name ∈ Table.keys s.files → ∃ key, IsHexKey key ∧
      key.utf8ByteSize ≤ maxKeySize ∧
      (name = fileName key ∨ name = draftName key ∧ ∃ op' ∈ ops ++ [op], op'.DeepUnder key) := by
    intro name hmem
    obtain ⟨key, hkey, hsize, hfile⟩ := h.tidy name hmem
    exact ⟨key, hkey, hsize, hfile.imp_right fun ⟨hdraft, op', hop', hdeep⟩ =>
      ⟨hdraft, op', List.mem_append_left [op] hop', hdeep⟩⟩
  cases op with
  | clear => cases hname
  | get key =>
    rw [next_get] at hname
    exact hbefore hname
  | set key v =>
    rw [next_set] at hname
    by_cases hsize : key.utf8ByteSize ≤ maxKeySize
    · rcases (mem_keys_files_set h.nodup (hop.1.takes hsize)).1 hname with ⟨hfile, -⟩ |
        ⟨hdraft, hdeep⟩ | ⟨-, hmem⟩
      · exact ⟨key, hop.1, hsize, .inl hfile⟩
      · exact ⟨key, hop.1, hsize, .inr ⟨hdraft, _, List.mem_concat_self, v, rfl, hdeep⟩⟩
      · exact hbefore hmem
    -- under a key that is too long there is no file to be written
    · rw [set_of_long (Nat.not_le.1 hsize)] at hname
      exact hbefore hname

/-- An operation keeps the invariant. -/
theorem Holds.next (h : s.Holds ops) (hop : op.Valid) : (s.next op).Holds (ops ++ [op]) where
  latest _ hkey hsize := h.latest_next hop hkey hsize
  long _ hsize := h.long_next op hsize
  nodup := h.nodup_next op
  tidy _ hname := h.tidy_next hop hname

/-- Where a value has no text, the draft is there afterwards only if it is too deep. -/
theorem Holds.draft_mem_iff (h : s.Holds ops) (hkey : IsHexKey key) {refusal : Json.Refusal}
    (hencode : encode v = .error refusal) :
    draftName key ∈ Table.keys (s.next (.set key v)).files ↔
      key.utf8ByteSize ≤ maxKeySize ∧ refusal = .tooDeep := by
  rw [next_set]
  by_cases hsize : key.utf8ByteSize ≤ maxKeySize
  · rw [mem_keys_files_set h.nodup (hkey.takes hsize), hencode]
    simp [hsize, draftName_ne_fileName]
  · rw [set_of_long (Nat.not_le.1 hsize)]
    refine iff_of_false (fun hmem => ?_) fun hboth => hsize hboth.1
    obtain ⟨key', -, hsize', hname | ⟨hname, -⟩⟩ := h.tidy _ hmem
    · exact draftName_ne_fileName _ _ hname
    · exact hsize (draftName_injective hname ▸ hsize')

/-! ### All runs -/

theorem performAll_concat (s : Store) (ops : List Operation) (op : Operation) :
    s.performAll (ops ++ [op]) = (s.performAll ops).next op := by
  rw [performAll, List.foldl_append]
  rfl

theorem holds_performAll (hops : ∀ op ∈ ops, op.Valid) : (empty.performAll ops).Holds ops := by
  -- the last operation is taken off, since the latest value is looked for from the end
  induction ops using List.reverseRecOn with
  | nil => exact .empty
  | append_singleton ops op ih =>
    rw [performAll_concat]
    have hbefore := ih fun op' hmem => hops op' (List.mem_append_left _ hmem)
    exact hbefore.next (hops op (List.mem_append_right _ List.mem_cons_self))

/-- After operations on an empty store, under hexadecimal keys, what is found under a key is the value
of the last operation since the store was cleared that stored one there with a text, and looking it up
never fails; a key that is too long has no value. Values without floating-point numbers that are not too
deep are decoded as they were encoded, except for null. To store under one key leaves the values of the
others. To store fails just if the key is too long or the value too deep. A value without a text leaves
the one that was stored, and no draft unless it is too deep. No other draft is ever left behind. -/
theorem performAll_latest (hops : ∀ op ∈ ops, op.Valid) :
    let s := empty.performAll ops
    (∀ key, IsHexKey key → perform (.get key) s = .ok
      (if key.utf8ByteSize ≤ maxKeySize then (latest? ops key).bind Value.nonNull? else none)
      s.ensured) ∧
    (∀ v : Value, v.Exact → v.depth ≤ Json.maxDepth → v ≠ .null →
      ∃ contents, encode v = .ok contents ∧ decode contents = .ok (some v)) ∧
    (∀ key v other, key ≠ other → (s.next (.set key v)).load other = s.load other) ∧
    (∀ key v, IsHexKey key → ((∃ t, perform (.set key v) s = .ok none t) ↔
      key.utf8ByteSize ≤ maxKeySize ∧ encode v ≠ .error .tooDeep)) ∧
    (∀ key v refusal, IsHexKey key → encode v = .error refusal →
      (s.next (.set key v)).load key = s.load key ∧
      (draftName key ∈ Table.keys (s.next (.set key v)).files ↔
        key.utf8ByteSize ≤ maxKeySize ∧ refusal = .tooDeep)) ∧
    ∀ name ∈ Table.keys s.files, ∃ key, IsHexKey key ∧ key.utf8ByteSize ≤ maxKeySize ∧
      (name = fileName key ∨ name = draftName key ∧ ∃ op ∈ ops, op.DeepUnder key) := by
  intro s
  have h : s.Holds ops := holds_performAll hops
  refine ⟨fun key hkey => ?_, fun v hv hdepth hne => exists_decode_of_storable (hv.storable hdepth) hne,
    fun key v other hne => ?_, fun key v hkey => ?_, fun key v refusal hkey hencode => ?_, h.tidy⟩
  · have hload : s.load key = .ok (if key.utf8ByteSize ≤ maxKeySize then
        (latest? ops key).bind Value.nonNull? else none) := by
      split
      · next hsize => exact h.latest key hkey hsize
      · next hsize => exact h.long key (Nat.not_le.1 hsize)
    rw [perform_get, hload]
  · rw [next_set, load_set_of_ne hne]
  · rw [← refusal?_eq_none_iff hkey, perform_set]
    cases refusal? key v <;> simp
  · refine ⟨?_, h.draft_mem_iff hkey hencode⟩
    rw [next_set, load_set_of_error hencode]

/-- The value under the first key is from before the clearing, then replaced, and then not by one
without a text. The value under the second key is replaced by null. -/
def mixedOperations : List Operation :=
  [.set "a0" (.text "old"), .clear, .get "a0",
    .set "a0" (.record [("x", .list [.int (-7), .null, .text "é\n"]), ("b", .bool true)]),
    .set "b1" (.int 5), .set "a0" (.bytes .constant [1]), .set "b1" .null]

theorem performAll_latest_mixedOperations :
    let s := empty.performAll mixedOperations
    (∀ op ∈ mixedOperations, op.Valid) ∧
    perform (.get "a0") s = .ok
      (some (.record [("x", .list [.int (-7), .null, .text "é\n"]), ("b", .bool true)])) s.ensured ∧
    perform (.get "b1") s = .ok none s.ensured := by
  have hvalid : ∀ op ∈ mixedOperations, op.Valid := by
    have hfirst : IsHexKey "a0" := by decide
    have hsecond : IsHexKey "b1" := by decide
    have hlist : (Value.list [.int (-7), .null, .text "é\n"]).WellFormed := by
      refine .list ?_
      simp only [List.forall_mem_cons]
      exact ⟨.int _, .null, .text _, nofun⟩
    have hrecord : (Value.record [("x", .list [.int (-7), .null, .text "é\n"]),
        ("b", .bool true)]).WellFormed := by
      refine .record (by decide) ?_
      simp only [List.forall_mem_cons]
      exact ⟨hlist, .bool _, nofun⟩
    simp only [mixedOperations, List.forall_mem_cons]
    exact ⟨⟨hfirst, .text _⟩, trivial, hfirst, ⟨hfirst, hrecord⟩, ⟨hsecond, .int _⟩,
      ⟨hfirst, .bytes _ _⟩, ⟨hsecond, .null⟩, nofun⟩
  obtain ⟨hlatest, -⟩ := performAll_latest hvalid
  refine ⟨hvalid, (hlatest "a0" (by decide)).trans ?_, (hlatest "b1" (by decide)).trans ?_⟩
  · rfl
  · rfl

/-- To store a value under a key of hexadecimal digits fails if the key is too long, and the value is not
found afterwards. -/
theorem performAll_ne_latest_of_long :
    let key := String.ofList (List.replicate 300 'a')
    (Operation.set key (.int 5)).Valid ∧
      (latest? [.set key (.int 5)] key).bind Value.nonNull? = some (.int 5) ∧
      perform (.set key (.int 5)) empty = .error .longKey empty.ensured ∧
      perform (.get key) (empty.performAll [.set key (.int 5)]) = .ok none empty.ensured := by
  intro key
  have hkey : IsHexKey key := by
    intro c hc
    have hchars : key.toList = List.replicate 300 'a' := String.toList_ofList
    rw [hchars] at hc
    rw [List.eq_of_mem_replicate hc]
    rfl
  have hsize : maxKeySize < key.utf8ByteSize := by decide +kernel
  have hlatest : ∀ k, latest? [Operation.set k (.int 5)] k = some (.int 5) :=
    fun k => latest?_set [] k rfl
  refine ⟨⟨hkey, .int 5⟩, by rw [hlatest key]; rfl, ?_, ?_⟩
  · rw [perform_set, refusal?, if_pos hsize, set_of_long hsize]
  · rw [performAll, List.foldl_cons, List.foldl_nil, next_set, set_of_long hsize]
    rfl

end Store

end StakeSnapshot
