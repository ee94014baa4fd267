import StakeSnapshot.Proofs.Json.Number
import StakeSnapshot.Proofs.Table
import StakeSnapshot.Proofs.Value
import StakeSnapshot.Value.Access

/-!
# Regular values

A value is regular if its floating-point numbers are kept as they are computed and the names in its
records do not repeat. It is textual if all its parts are written, and then it has a text as far as there
is room for it (`exists_write_iff`): it can be stored. Whatever a text is read as is regular, has a depth
for which there was room, and is textual if it is whole, that is, without a lone surrogate. Values without
floating-point numbers and long integers are textual as well (`Value.Exact`). With byte strings in it a
value is well-formed at most, and has no text.
-/

namespace StakeSnapshot

namespace Value

/-- A value of which the parts are kept in one way only. -/
inductive Regular : Value → Prop where
  | null : Regular .null
  | bool (b : Bool) : Regular (.bool b)
  | int (n : Int) : Regular (.int n)
  | float {x : Number.Binary64} (h : x.IsCanonical) : Regular (.float x)
  | text (s : String) : Regular (.text s)
  | ragged (points : List CodePoint) : Regular (.ragged points)
  | list {items : List Value} (h : ∀ v ∈ items, Regular v) : Regular (.list items)
  | record {fields : List (String × Value)} (hnames : (Table.keys fields).Nodup)
      (h : ∀ field ∈ fields, Regular field.2) : Regular (.record fields)
  | raggedRecord {fields : List (List CodePoint × Value)} (h : ∀ field ∈ fields, Regular field.2) :
      Regular (.raggedRecord fields)

/-- A value without a lone surrogate. -/
inductive Whole : Value → Prop where
  | null : Whole .null
  | bool (b : Bool) : Whole (.bool b)
  | int (n : Int) : Whole (.int n)
  | float (x : Number.Binary64) : Whole (.float x)
  | text (s : String) : Whole (.text s)
  | bytes (form : ByteForm) (octets : List UInt8) : Whole (.bytes form octets)
  | list {items : List Value} (h : ∀ v ∈ items, Whole v) : Whole (.list items)
  | record {fields : List (String × Value)} (h : ∀ field ∈ fields, Whole field.2) :
      Whole (.record fields)

/-- A value of which all parts are written. -/
inductive Textual : Value → Prop where
  | null : Textual .null
  | bool (b : Bool) : Textual (.bool b)
  | int {n : Int} (h : Number.isWritable n = true) : Textual (.int n)
  | float (x : Number.Binary64) : Textual (.float x)
  | text (s : String) : Textual (.text s)
  | list {items : List Value} (h : ∀ v ∈ items, Textual v) : Textual (.list items)
  | record {fields : List (String × Value)} (h : ∀ field ∈ fields, Textual field.2) :
      Textual (.record fields)

/-! ### Depths -/

theorem itemDepth_le_iff {items : List Value} {room : Nat} :
    itemDepth items ≤ room ↔ ∀ v ∈ items, v.depth ≤ room := by
  induction items with
  | nil => simp [itemDepth]
  | cons v rest ih => rw [itemDepth, Nat.max_le, ih, List.forall_mem_cons]

theorem fieldDepth_le_iff {fields : List (String × Value)} {room : Nat} :
    fieldDepth fields ≤ room ↔ ∀ field ∈ fields, field.2.depth ≤ room := by
  induction fields with
  | nil => simp [fieldDepth]
  | cons field rest ih => rw [fieldDepth, Nat.max_le, ih, List.forall_mem_cons]

theorem raggedDepth_le_iff {fields : List (List CodePoint × Value)} {room : Nat} :
    raggedDepth fields ≤ room ↔ ∀ field ∈ fields, field.2.depth ≤ room := by
  induction fields with
  | nil => simp [raggedDepth]
  | cons field rest ih => rw [raggedDepth, Nat.max_le, ih, List.forall_mem_cons]

theorem depth_list_le_iff {items : List Value} {room : Nat} :
    (list items).depth ≤ room + 1 ↔ ∀ v ∈ items, v.depth ≤ room := by
  rw [depth, Nat.add_le_add_iff_right, itemDepth_le_iff]

theorem depth_record_le_iff {fields : List (String × Value)} {room : Nat} :
    (record fields).depth ≤ room + 1 ↔ ∀ field ∈ fields, field.2.depth ≤ room := by
  rw [depth, Nat.add_le_add_iff_right, fieldDepth_le_iff]

theorem depth_raggedRecord_le_iff {fields : List (List CodePoint × Value)} {room : Nat} :
    (raggedRecord fields).depth ≤ room + 1 ↔ ∀ field ∈ fields, field.2.depth ≤ room := by
  rw [depth, Nat.add_le_add_iff_right, raggedDepth_le_iff]

/-! ### Parts that are written -/

theorem isWritable_list_iff {items : List Value} :
    (list items).isWritable = true ↔ ∀ v ∈ items, v.isWritable = true := by
  rw [isWritable]
  induction items with
  | nil => simp [areWritable]
  | cons v rest ih => rw [areWritable, Bool.and_eq_true, ih, List.forall_mem_cons]

theorem isWritable_record_iff {fields : List (String × Value)} :
    (record fields).isWritable = true ↔ ∀ field ∈ fields, field.2.isWritable = true := by
  rw [isWritable]
  induction fields with
  | nil => simp [areFieldsWritable]
  | cons field rest ih => rw [areFieldsWritable, Bool.and_eq_true, ih, List.forall_mem_cons]

theorem isWritable_raggedRecord_iff {fields : List (List CodePoint × Value)} :
    (raggedRecord fields).isWritable = true ↔ ∀ field ∈ fields, field.2.isWritable = true := by
  rw [isWritable]
  induction fields with
  | nil => simp [areRaggedWritable]
  | cons field rest ih => rw [areRaggedWritable, Bool.and_eq_true, ih, List.forall_mem_cons]

theorem Textual.isWritable {v : Value} (h : v.Textual) : v.isWritable = true := by
  induction h with
  | null | bool _ | float _ | text _ => rfl
  | int h => exact h
  | list _ ih => exact isWritable_list_iff.2 ih
  | record _ ih => exact isWritable_record_iff.2 ih

/-- A lone surrogate has no text. -/
theorem Textual.whole {v : Value} (h : v.Textual) : v.Whole := by
  induction h with
  | null => exact .null
  | bool b => exact .bool b
  | int _ => exact .int _
  | float x => exact .float x
  | text s => exact .text s
  | list _ ih => exact .list ih
  | record _ ih => exact .record ih

/-- All parts of a whole value are written, if its integers are. -/
theorem Regular.textual {v : Value} (h : v.Regular) (hwritable : v.isWritable = true)
    (hwhole : v.Whole) : v.Textual := by
  induction h with
  | null => exact .null
  | bool b => exact .bool b
  | int n => exact .int hwritable
  | float _ => exact .float _
  | text s => exact .text s
  | ragged _ | raggedRecord _ => cases hwhole
  | list _ ih =>
    rw [isWritable_list_iff] at hwritable
    cases hwhole with
    | list hwhole => exact .list fun v hv => ih v hv (hwritable v hv) (hwhole v hv)
  | record _ _ ih =>
    rw [isWritable_record_iff] at hwritable
    cases hwhole with
    | record hwhole =>
      exact .record fun field hfield =>
        ih field hfield (hwritable field hfield) (hwhole field hfield)

/-! ### Names by code points -/

/-- Fields with their names given by code points. -/
def pointed (fields : List (String × Value)) : List (List CodePoint × Value) :=
  fields.map fun (name, v) => (CodePoint.ofString name, v)

theorem keys_pointed (fields : List (String × Value)) :
    Table.keys (pointed fields) = (Table.keys fields).map CodePoint.ofString := by
  simp [pointed, Table.keys, Function.comp_def]

theorem nodup_keys_of_pointed {fields : List (String × Value)}
    (h : (Table.keys (pointed fields)).Nodup) : (Table.keys fields).Nodup := by
  rw [keys_pointed] at h
  exact h.of_map

theorem nodup_keys_pointed {fields : List (String × Value)} (h : (Table.keys fields).Nodup) :
    (Table.keys (pointed fields)).Nodup := by
  rw [keys_pointed]
  exact h.map CodePoint.ofString_injective

theorem ofPoints_ofString (s : String) : ofPoints (CodePoint.ofString s) = .text s := by
  rw [ofPoints, CodePoint.plain?_ofString]

theorem ofFields_pointed (fields : List (String × Value)) :
    ofFields (pointed fields) = .record fields := by
  have hfield : ∀ field : String × Value, plainField? (CodePoint.ofString field.1, field.2) =
      some field := by
    intro field
    rw [plainField?, CodePoint.plain?_ofString]
    rfl
  have hall : (pointed fields).mapM plainField? = some fields := by
    induction fields with
    | nil => rfl
    | cons field fields ih =>
      rw [pointed, List.map_cons, List.mapM_cons, ← pointed, ih, hfield]
      rfl
  rw [ofFields, hall]

/-- Fields are those of a record if all their names are plain, and of a ragged record otherwise. -/
theorem ofFields_cases (fields : List (List CodePoint × Value)) :
    (∃ plain, fields = pointed plain ∧ ofFields fields = .record plain) ∨
      ofFields fields = .raggedRecord fields := by
  unfold ofFields
  split
  · next plain h =>
    refine .inl ⟨plain, ?_, rfl⟩
    induction fields generalizing plain with
    | nil =>
      cases h
      rfl
    | cons field rest ih =>
      rw [List.mapM_cons] at h
      obtain ⟨p, hp, h⟩ := Option.bind_eq_some_iff.1 h
      obtain ⟨ps, hps, h⟩ := Option.bind_eq_some_iff.1 h
      cases h
      obtain ⟨name, v⟩ := field
      obtain ⟨s, hs, rfl⟩ := Option.map_eq_some_iff.1 hp
      have hname : name = CodePoint.ofString s := CodePoint.eq_ofString_of_plain? hs
      rw [hname, ih ps hps]
      rfl
  · exact .inr rfl

end Value

namespace Json
open Number

/-! ### Values that are written -/

theorem writeItems_cons (room : Nat) (v w : Value) (rest : List Value) :
    writeItems room (v :: w :: rest) =
      (do return (← write room v) ++ ',' :: (← writeItems room (w :: rest))) := rfl

theorem writeFields_single (room : Nat) (k : String) (v : Value) :
    writeFields room [(k, v)] = (write room v).map fun s => textForm k.toList ++ ':' :: s := rfl

theorem writeFields_cons (room : Nat) (k : String) (v : Value) (field : String × Value)
    (rest : List (String × Value)) :
    writeFields room ((k, v) :: field :: rest) =
      (do return textForm k.toList ++ ':' :: (← write room v) ++
        ',' :: (← writeFields room (field :: rest))) := rfl

/-- Items are written just if each of them is. -/
theorem exists_writeItems_iff {room : Nat} {items : List Value} :
    (∃ s, writeItems room items = .ok s) ↔ ∀ v ∈ items, ∃ s, write room v = .ok s := by
  induction items with
  | nil => exact iff_of_true ⟨[], rfl⟩ (by simp)
  | cons v rest ih =>
    cases rest with
    | nil => rw [List.forall_mem_singleton, writeItems]
    | cons w rest =>
      rw [List.forall_mem_cons, ← ih, writeItems_cons]
      exact Except.exists_ok_both_iff

theorem exists_writeFields_iff {room : Nat} {fields : List (String × Value)} :
    (∃ s, writeFields room fields = .ok s) ↔ ∀ field ∈ fields, ∃ s, write room field.2 = .ok s := by
  induction fields with
  | nil => exact iff_of_true ⟨[], rfl⟩ (by simp)
  | cons field rest ih =>
    obtain ⟨k, v⟩ := field
    cases rest with
    | nil =>
      rw [List.forall_mem_singleton, writeFields_single]
      exact Except.exists_ok_map_iff
    | cons next rest =>
      rw [List.forall_mem_cons, ← ih, writeFields_cons]
      exact Except.exists_ok_both_iff

theorem writeItems_ne_tooDeep {room : Nat} {items : List Value}
    (h : ∀ v ∈ items, write room v ≠ .error .tooDeep) : writeItems room items ≠ .error .tooDeep := by
  induction items with
  | nil => nofun
  | cons v rest ih =>
    obtain ⟨hv, hrest⟩ := List.forall_mem_cons.1 h
    cases rest with
    | nil => rwa [writeItems]
    | cons w rest =>
      rw [writeItems_cons]
      exact Except.both_ne_error hv (ih hrest)

theorem writeFields_ne_tooDeep {room : Nat} {fields : List (String × Value)}
    (h : ∀ field ∈ fields, write room field.2 ≠ .error .tooDeep) :
    writeFields room fields ≠ .error .tooDeep := by
  induction fields with
  | nil => nofun
  | cons field rest ih =>
    obtain ⟨k, v⟩ := field
    obtain ⟨hv, hrest⟩ := List.forall_mem_cons.1 h
    cases rest with
    | nil =>
      rw [writeFields_single, ne_eq, Except.map_eq_error_iff]
      exact hv
    | cons next rest =>
      rw [writeFields_cons]
      exact Except.both_ne_error hv (ih hrest)

theorem raggedRefusal_ne_tooDeep {room : Nat} {fields : List (List CodePoint × Value)}
    (h : ∀ field ∈ fields, write room field.2 ≠ .error .tooDeep) :
    raggedRefusal room fields ≠ .tooDeep := by
  induction fields with
  | nil => nofun
  | cons field rest ih =>
    obtain ⟨hv, hrest⟩ := List.forall_mem_cons.1 h
    rw [raggedRefusal]
    split
    · nofun
    · split
      · next refusal hrefusal =>
        rintro rfl
        exact hv hrefusal
      · exact ih hrest

/-- A value has a text just if all its parts are written and there is room for it. -/
theorem exists_write_iff {v : Value} {room : Nat} :
    (∃ s, write room v = .ok s) ↔ v.Textual ∧ v.depth ≤ room := by
  induction v using Value.induction generalizing room with
  | null => exact iff_of_true ⟨_, rfl⟩ ⟨.null, Nat.zero_le _⟩
  | bool b => exact iff_of_true (by cases b <;> exact ⟨_, rfl⟩) ⟨.bool b, Nat.zero_le _⟩
  | int n =>
    rw [write]
    split
    · next h => exact iff_of_true ⟨_, rfl⟩ ⟨.int h, Nat.zero_le _⟩
    · next h => exact iff_of_false nofun fun ⟨.int hn, _⟩ => h hn
  | float x => exact iff_of_true ⟨_, rfl⟩ ⟨.float x, Nat.zero_le _⟩
  | text s => exact iff_of_true ⟨_, rfl⟩ ⟨.text s, Nat.zero_le _⟩
  | ragged points => exact iff_of_false nofun fun h => nomatch h.1
  | bytes form octets => exact iff_of_false nofun fun h => nomatch h.1
  | list items ih =>
    cases room with
    | zero => exact iff_of_false nofun fun h => by simp [Value.depth] at h
    | succ room =>
      -- the members have one level less of room, and so they are one level less deep
      rw [write, Except.exists_ok_map_iff, exists_writeItems_iff, Value.depth_list_le_iff]
      constructor
      · intro h
        exact ⟨.list fun v hv => ((ih v hv).1 (h v hv)).1, fun v hv => ((ih v hv).1 (h v hv)).2⟩
      · rintro ⟨htextual, hdepth⟩ v hv
        cases htextual with
        | list htextual => exact (ih v hv).2 ⟨htextual v hv, hdepth v hv⟩
  | record fields ih =>
    cases room with
    | zero => exact iff_of_false nofun fun h => by simp [Value.depth] at h
    | succ room =>
      rw [write, Except.exists_ok_map_iff, exists_writeFields_iff, Value.depth_record_le_iff]
      constructor
      · intro h
        exact ⟨.record fun f hf => ((ih f hf).1 (h f hf)).1, fun f hf => ((ih f hf).1 (h f hf)).2⟩
      · rintro ⟨htextual, hdepth⟩ f hf
        cases htextual with
        | record htextual => exact (ih f hf).2 ⟨htextual f hf, hdepth f hf⟩
  | raggedRecord fields ih =>
    refine iff_of_false ?_ fun h => nomatch h.1
    cases room <;> nofun

/-- A value for which there is room is never too deep to be written. -/
theorem write_ne_tooDeep {v : Value} {room : Nat} (h : v.depth ≤ room) :
    write room v ≠ .error .tooDeep := by
  induction v using Value.induction generalizing room with
  | bool b => cases b <;> nofun
  | int n =>
    rw [write]
    split <;> nofun
  | null | float x | text s | ragged points | bytes form octets => nofun
  | list items ih =>
    cases room with
    | zero => simp [Value.depth] at h
    | succ room =>
      rw [write, ne_eq, Except.map_eq_error_iff]
      exact writeItems_ne_tooDeep fun v hv => ih v hv (Value.depth_list_le_iff.1 h v hv)
  | record fields ih =>
    cases room with
    | zero => simp [Value.depth] at h
    | succ room =>
      rw [write, ne_eq, Except.map_eq_error_iff]
      exact writeFields_ne_tooDeep fun f hf => ih f hf (Value.depth_record_le_iff.1 h f hf)
  | raggedRecord fields ih =>
    cases room with
    | zero => simp [Value.depth] at h
    | succ room =>
      rw [write, ne_eq, Except.error.injEq]
      exact raggedRefusal_ne_tooDeep fun f hf => ih f hf (Value.depth_raggedRecord_le_iff.1 h f hf)

/-- A value that has a text from which it is read back where there is room. -/
structure Storable (room : Nat) (v : Value) : Prop where
  regular : v.Regular
  textual : v.Textual
  depth : v.depth ≤ room

theorem Storable.exists_write {room : Nat} {v : Value} (h : Storable room v) :
    ∃ s, write room v = .ok s := exists_write_iff.2 ⟨h.textual, h.depth⟩

theorem Storable.mono {room more : Nat} {v : Value} (h : Storable room v) (hmore : room ≤ more) :
    Storable more v := ⟨h.regular, h.textual, h.depth.trans hmore⟩

theorem storable_of_items {room : Nat} {items : List Value} (h : ∀ v ∈ items, Storable room v) :
    Storable (room + 1) (.list items) where
  regular := .list fun v hv => (h v hv).regular
  textual := .list fun v hv => (h v hv).textual
  depth := Value.depth_list_le_iff.2 fun v hv => (h v hv).depth

theorem storable_record {room : Nat} {fields : List (String × Value)}
    (hnames : (Table.keys fields).Nodup) (h : ∀ field ∈ fields, Storable room field.2) :
    Storable (room + 1) (.record fields) where
  regular := .record hnames fun field hfield => (h field hfield).regular
  textual := .record fun field hfield => (h field hfield).textual
  depth := Value.depth_record_le_iff.2 fun field hfield => (h field hfield).depth

/-! ### Numbers that are read -/

theorem mem_span_left {p : Char → Bool} {s : List Char} {c : Char} (h : c ∈ (s.span p).1) :
    p c = true := by
  rw [List.span_eq_takeWhile_dropWhile] at h
  exact List.mem_takeWhile_imp h

/-- The whole part of a number has digits only, and at least one. -/
theorem wholeDigits?_digits {s whole rest : List Char} (h : wholeDigits? s = some (whole, rest)) :
    whole ≠ [] ∧ ∀ c ∈ whole, isDigit c = true := by
  unfold wholeDigits? at h
  split at h
  · cases h
    exact ⟨List.cons_ne_nil _ _, fun c hc => by rw [List.mem_singleton.1 hc]; rfl⟩
  · next c t _ =>
    split at h
    · next hc =>
      have hwhole : (List.span isDigit (c :: t)).1 = whole := congrArg Prod.fst (Option.some.inj h)
      refine ⟨?_, fun d hd => mem_span_left (hwhole ▸ hd)⟩
      rw [← hwhole, List.span_eq_takeWhile_dropWhile]
      simp [hc]
    · cases h
  · cases h

theorem ofDigits_lt {s : List Char} (h : ∀ c ∈ s, isDigit c = true) :
    ofDigits s < 10 ^ s.length := by
  induction s using List.reverseRecOn with
  | nil => exact Nat.one_pos
  | append_singleton s c ih =>
    have hs := ih fun d hd => h d (List.mem_append_left _ hd)
    have hc : ofDigits [c] < 10 := by
      have hdigit := h c (List.mem_append_right _ List.mem_cons_self)
      simp only [isDigit, Bool.and_eq_true, decide_eq_true_eq] at hdigit
      have hle : c.toNat ≤ 57 := hdigit.2
      simp only [ofDigits, List.foldl_cons, List.foldl_nil]
      change 10 * 0 + (c.toNat - 48) < 10
      omega
    rw [ofDigits_append, List.length_append]
    simp only [List.length_cons, List.length_nil, Nat.zero_add, Nat.pow_add, Nat.pow_one]
    omega

/-- A value as it may be read where there is room. It can be stored if it is whole. -/
structure Decoded (room : Nat) (v : Value) : Prop where
  regular : v.Regular
  writable : v.isWritable = true
  depth : v.depth ≤ room

theorem Decoded.storable {room : Nat} {v : Value} (h : Decoded room v) (hwhole : v.Whole) :
    Storable room v := ⟨h.regular, h.regular.textual h.writable hwhole, h.depth⟩

theorem Decoded.mono {room more : Nat} {v : Value} (h : Decoded room v) (hmore : room ≤ more) :
    Decoded more v := ⟨h.regular, h.writable, h.depth.trans hmore⟩

theorem Storable.decoded {room : Nat} {v : Value} (h : Storable room v) : Decoded room v :=
  ⟨h.regular, h.textual.isWritable, h.depth⟩

theorem storable_null {room : Nat} : Storable room .null := ⟨.null, .null, Nat.zero_le _⟩

theorem storable_bool {room : Nat} (b : Bool) : Storable room (.bool b) :=
  ⟨.bool b, .bool b, Nat.zero_le _⟩

theorem storable_int {room : Nat} {n : Int} (h : isWritable n = true) : Storable room (.int n) :=
  ⟨.int n, .int h, Nat.zero_le _⟩

theorem storable_float {room : Nat} {x : Binary64} (h : x.IsCanonical) : Storable room (.float x) :=
  ⟨.float h, .float x, Nat.zero_le _⟩

theorem storable_text {room : Nat} (s : String) : Storable room (.text s) :=
  ⟨.text s, .text s, Nat.zero_le _⟩

theorem storable_of_readNumber {room : Nat} {s rest : List Char} {v : Value}
    (h : readNumber s = .ok (v, rest)) : Storable room v := by
  unfold readNumber at h
  split at h
  split at h
  · cases h
  · next whole more hwhole =>
    obtain ⟨hne, hdigits⟩ := wholeDigits?_digits hwhole
    dsimp only at h
    split at h
    · split at h
      · cases h
      · next hlength =>
        cases h
        have hcount : digitCount (ofDigits whole) ≤ maxDigits :=
          ((digitCount_le_iff (List.length_pos_iff.2 hne)).2 (ofDigits_lt hdigits)).trans
            (Nat.le_of_not_lt hlength)
        refine storable_int (decide_eq_true ?_)
        split
        · rwa [Int.natAbs_neg, Int.natAbs_natCast]
        · rwa [Int.natAbs_natCast]
    · cases h
      exact storable_float (Binary64.isCanonical_ofDecimal _ _ _)

theorem storable_of_readScalar {room : Nat} {s rest : List Char} {v : Value}
    (h : readScalar s = .ok (v, rest)) : Storable room v := by
  unfold readScalar at h
  split at h
  · next word w hfind =>
    cases h
    have hmem := List.mem_of_find?_eq_some hfind
    simp only [words, List.mem_cons, Prod.mk.injEq, List.not_mem_nil, or_false] at hmem
    rcases hmem with ⟨-, rfl⟩ | ⟨-, rfl⟩ | ⟨-, rfl⟩ | ⟨-, rfl⟩ | ⟨-, rfl⟩ | ⟨-, rfl⟩
    · exact storable_null
    · exact storable_bool true
    · exact storable_bool false
    · exact storable_float trivial
    · exact storable_float trivial
    · exact storable_float trivial
  · exact storable_of_readNumber h

/-! ### Texts, lists and records that are read -/

theorem decoded_ofPoints {room : Nat} (points : List CodePoint) :
    Decoded room (Value.ofPoints points) := by
  unfold Value.ofPoints
  split
  · exact (storable_text _).decoded
  · exact ⟨.ragged _, rfl, Nat.zero_le _⟩

theorem decoded_of_items {room : Nat} {items : List Value} (h : ∀ v ∈ items, Decoded room v) :
    Decoded (room + 1) (.list items) where
  regular := .list fun v hv => (h v hv).regular
  writable := Value.isWritable_list_iff.2 fun v hv => (h v hv).writable
  depth := Value.depth_list_le_iff.2 fun v hv => (h v hv).depth

theorem decoded_of_record {room : Nat} {fields : List (String × Value)}
    (hnames : (Table.keys fields).Nodup) (h : ∀ field ∈ fields, Decoded room field.2) :
    Decoded (room + 1) (.record fields) where
  regular := .record hnames fun field hfield => (h field hfield).regular
  writable := Value.isWritable_record_iff.2 fun field hfield => (h field hfield).writable
  depth := Value.depth_record_le_iff.2 fun field hfield => (h field hfield).depth

theorem decoded_of_fields {room : Nat} {fields : List (List CodePoint × Value)}
    (h : ∀ field ∈ fields, Decoded room field.2) :
    Decoded (room + 1) (Value.ofFields (Table.ofRows fields)) := by
  have hrows : ∀ field ∈ Table.ofRows fields, Decoded room field.2 :=
    fun field hfield => h field (Table.mem_of_mem_ofRows hfield)
  rcases Value.ofFields_cases (Table.ofRows fields) with ⟨plain, hplain, hrecord⟩ | hragged
  · rw [hrecord]
    have hnodup : (Table.keys (Table.ofRows fields)).Nodup := Table.nodup_keys_ofRows fields
    rw [hplain] at hnodup hrows
    refine decoded_of_record (Value.nodup_keys_of_pointed hnodup) fun field hfield => ?_
    exact hrows _ (List.mem_map_of_mem hfield)
  · rw [hragged]
    exact ⟨.raggedRecord fun field hfield => (hrows field hfield).regular,
      Value.isWritable_raggedRecord_iff.2 fun field hfield => (hrows field hfield).writable,
      Value.depth_raggedRecord_le_iff.2 fun field hfield => (hrows field hfield).depth⟩

section
variable {fuel : Nat}
  (hvalue : ∀ {room : Nat} {s rest : List Char} {v : Value},
    readValue fuel room s = .ok (v, rest) → Decoded room v)
  (hitems : ∀ {room : Nat} {s rest : List Char} {items : List Value},
    readItems fuel room s = .ok (items, rest) → ∀ v ∈ items, Decoded room v)
  (hfields : ∀ {room : Nat} {s rest : List Char} {fields : List (List CodePoint × Value)},
    readFields fuel room s = .ok (fields, rest) → ∀ field ∈ fields, Decoded room field.2)
  {room : Nat} {s rest : List Char}

include hitems hfields in
/-- A list and a record take one level of the room. -/
theorem decoded_of_readValue_succ {v : Value}
    (h : readValue (fuel + 1) room s = .ok (v, rest)) : Decoded room v := by
  unfold readValue at h
  split at h
  · obtain ⟨⟨t, rest⟩, -, h⟩ := Except.ok_of_bind h
    cases h
    exact decoded_ofPoints t
  · cases room with
    | zero => cases h
    | succ room =>
      dsimp only at h
      split at h
      · cases h
        exact decoded_of_items fun v hv => absurd hv List.not_mem_nil
      · obtain ⟨⟨items, rest⟩, hread, h⟩ := Except.ok_of_bind h
        cases h
        exact decoded_of_items (hitems hread)
  · cases room with
    | zero => cases h
    | succ room =>
      dsimp only at h
      split at h
      · cases h
        exact decoded_of_record List.nodup_nil fun field hfield => absurd hfield List.not_mem_nil
      · obtain ⟨⟨fields, rest⟩, hread, h⟩ := Except.ok_of_bind h
        cases h
        exact decoded_of_fields (hfields hread)
  · exact (storable_of_readScalar h).decoded

include hvalue hitems in
theorem decoded_of_readItems_succ {items : List Value}
    (h : readItems (fuel + 1) room s = .ok (items, rest)) : ∀ v ∈ items, Decoded room v := by
  unfold readItems at h
  obtain ⟨⟨v, rest⟩, hv, h⟩ := Except.ok_of_bind h
  dsimp only at h
  split at h
  · cases h
    exact List.forall_mem_singleton.2 (hvalue hv)
  · obtain ⟨⟨items, rest⟩, hread, h⟩ := Except.ok_of_bind h
    cases h
    exact List.forall_mem_cons.2 ⟨hvalue hv, hitems hread⟩
  · cases h

include hvalue hfields in
theorem decoded_of_readFields_succ {fields : List (List CodePoint × Value)}
    (h : readFields (fuel + 1) room s = .ok (fields, rest)) :
    ∀ field ∈ fields, Decoded room field.2 := by
  unfold readFields at h
  split at h
  · obtain ⟨⟨k, rest⟩, -, h⟩ := Except.ok_of_bind h
    dsimp only at h
    split at h
    · obtain ⟨⟨v, rest⟩, hv, h⟩ := Except.ok_of_bind h
      dsimp only at h
      split at h
      · cases h
        exact List.forall_mem_singleton.2 (hvalue hv)
      · obtain ⟨⟨fields, rest⟩, hread, h⟩ := Except.ok_of_bind h
        cases h
        exact List.forall_mem_cons.2 ⟨hvalue hv, hfields hread⟩
      · cases h
    · cases h
  · cases h

end

/-- Whatever is read with any amount of fuel, there was room for it. -/
theorem decoded_of_readWith (fuel : Nat) :
    (∀ {room : Nat} {s rest : List Char} {v : Value},
      readValue fuel room s = .ok (v, rest) → Decoded room v) ∧
    (∀ {room : Nat} {s rest : List Char} {items : List Value},
      readItems fuel room s = .ok (items, rest) → ∀ v ∈ items, Decoded room v) ∧
    (∀ {room : Nat} {s rest : List Char} {fields : List (List CodePoint × Value)},
      readFields fuel room s = .ok (fields, rest) → ∀ field ∈ fields, Decoded room field.2) := by
  induction fuel with
  | zero =>
    refine ⟨fun h => ?_, fun h => ?_, fun h => ?_⟩
    all_goals cases h
  | succ fuel ih =>
    obtain ⟨hvalue, hitems, hfields⟩ := ih
    exact ⟨decoded_of_readValue_succ hitems hfields, decoded_of_readItems_succ hvalue hitems,
      decoded_of_readFields_succ hvalue hfields⟩

/-- Whatever a text is read as, there was room for it. -/
theorem decoded_of_read {s : List Char} {v : Value} (h : read s = .ok v) : Decoded maxDepth v := by
  unfold read at h
  split at h
  · cases h
  · obtain ⟨⟨w, rest⟩, hw, h⟩ := Except.ok_of_bind h
    dsimp only at h
    split at h
    · cases h
      exact (decoded_of_readWith _).1 hw
    · cases h

/-! ### Fields of what is read -/

/-- A field of a value that has been read could have been read where there is less room. -/
theorem Decoded.of_field {room : Nat} {v u : Value} {name : String} (hv : Decoded (room + 1) v)
    (h : v.field name = .ok u) : Decoded room u := by
  obtain ⟨hregular, hwritable, hdepth⟩ := hv
  cases v with
  | record fields =>
    cases hregular with
    | record _ hfields =>
      dsimp only [Value.field] at h
      split at h
      · next w hfind =>
        cases h
        have hmem := Table.mem_of_find? hfind
        exact ⟨hfields _ hmem, Value.isWritable_record_iff.1 hwritable _ hmem,
          Value.depth_record_le_iff.1 hdepth _ hmem⟩
      · cases h
  | raggedRecord fields =>
    cases hregular with
    | raggedRecord hfields =>
      dsimp only [Value.field] at h
      split at h
      · next w hfind =>
        cases h
        have hmem := Table.mem_of_find? hfind
        exact ⟨hfields _ hmem, Value.isWritable_raggedRecord_iff.1 hwritable _ hmem,
          Value.depth_raggedRecord_le_iff.1 hdepth _ hmem⟩
      · cases h
  | _ => cases h

end Json

namespace Value

/-- A value of which the parts are kept in one way only, with byte strings among them. -/
inductive WellFormed : Value → Prop where
  | null : WellFormed .null
  | bool (b : Bool) : WellFormed (.bool b)
  | int (n : Int) : WellFormed (.int n)
  | float {x : Number.Binary64} (h : x.IsCanonical) : WellFormed (.float x)
  | text (s : String) : WellFormed (.text s)
  | ragged (points : List CodePoint) : WellFormed (.ragged points)
  | bytes (form : ByteForm) (octets : List UInt8) : WellFormed (.bytes form octets)
  | list {items : List Value} (h : ∀ v ∈ items, WellFormed v) : WellFormed (.list items)
  | record {fields : List (String × Value)} (hnames : (Table.keys fields).Nodup)
      (h : ∀ field ∈ fields, WellFormed field.2) : WellFormed (.record fields)
  | raggedRecord {fields : List (List CodePoint × Value)}
      (h : ∀ field ∈ fields, WellFormed field.2) : WellFormed (.raggedRecord fields)

/-- A value with a text has no byte strings in it. -/
theorem WellFormed.regular {v : Value} (hv : v.WellFormed) (h : v.Textual) : v.Regular := by
  induction hv with
  | null => exact .null
  | bool b => exact .bool b
  | int n => exact .int n
  | float hx => exact .float hx
  | text s => exact .text s
  | ragged _ | bytes _ _ | raggedRecord _ _ => cases h
  | list _ ih =>
    cases h with
    | list h => exact .list fun v hv => ih v hv (h v hv)
  | record hnames _ ih =>
    cases h with
    | record h => exact .record hnames fun field hfield => ih field hfield (h field hfield)

/-- A value without floating-point numbers and byte strings, with integers of no more digits than are
read. -/
inductive Exact : Value → Prop where
  | null : Exact .null
  | bool (b : Bool) : Exact (.bool b)
  | int {n : Int} (h : Number.digitCount n.natAbs ≤ Number.maxDigits) : Exact (.int n)
  | text (s : String) : Exact (.text s)
  | list {items : List Value} (h : ∀ v ∈ items, Exact v) : Exact (.list items)
  | record {fields : List (String × Value)} (hnames : (Table.keys fields).Nodup)
      (h : ∀ field ∈ fields, Exact field.2) : Exact (.record fields)

theorem Exact.regular {v : Value} (hv : v.Exact) : v.Regular := by
  induction hv with
  | null => exact .null
  | bool b => exact .bool b
  | int _ => exact .int _
  | text s => exact .text s
  | list _ ih => exact .list ih
  | record hnames _ ih => exact .record hnames ih

theorem Exact.textual {v : Value} (hv : v.Exact) : v.Textual := by
  induction hv with
  | null => exact .null
  | bool b => exact .bool b
  | int h => exact .int (decide_eq_true h)
  | text s => exact .text s
  | list _ ih => exact .list ih
  | record _ _ ih => exact .record ih

theorem Exact.storable {v : Value} {room : Nat} (hv : v.Exact) (h : v.depth ≤ room) :
    Json.Storable room v := ⟨hv.regular, hv.textual, h⟩

end Value

end StakeSnapshot
