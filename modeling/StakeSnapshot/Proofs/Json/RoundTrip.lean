import StakeSnapshot.Proofs.Json.Regular
import StakeSnapshot.Proofs.Json.Text
import StakeSnapshot.Store

/-!
# Values in JSON

Reading the text of a regular value gives the value back (`read_of_write`). The text of a value is
read whatever follows it, which is the form in which the items of lists and the fields of records
need it.
-/

namespace StakeSnapshot

namespace Json
open Number

/-! ### Names and numbers -/

theorem readScalar_of_number (negative : Bool) {c : Char} (hc : isDigit c = true) (t : List Char) :
    readScalar (Binary64.signText negative ++ c :: t) =
      readNumber (Binary64.signText negative ++ c :: t) := by
  have hne : ∀ d, isDigit d = false → d ≠ c := by
    rintro d hd rfl
    rw [hc] at hd
    cases hd
  unfold readScalar
  split
  · next hfind =>
    -- no word starts with the digit, or with a minus and the digit
    cases negative <;>
      simp [words, Binary64.signText, hne 'n' rfl, hne 't' rfl, hne 'f' rfl, hne 'N' rfl,
        hne 'I' rfl, hne '-' rfl] at hfind
  · rfl

/-- A text that starts a value, which is neither a space nor the end of a list. -/
def Opens (s : List Char) : Prop :=
  ∃ c t, s = c :: t ∧ isSpace c = false ∧ c ≠ ']' ∧ c ≠ '\ufeff'

/-- A text is read as a value where there is room, whatever follows it. -/
def Reads (room : Nat) (s : List Char) (v : Value) : Prop :=
  ∀ fuel rest, 2 * s.length ≤ fuel → Ends rest → readValue fuel room (s ++ rest) = .ok (v, rest)

variable {room : Nat}

theorem readValue_scalar {c : Char} {t : List Char} (fuel : Nat)
    (hc : c ≠ '"' ∧ c ≠ '[' ∧ c ≠ '\x7b') :
    readValue (fuel + 1) room (c :: t) = readScalar (c :: t) := by
  unfold readValue
  split
  · next h => exact absurd (List.cons.inj h).1 hc.1
  · next h => exact absurd (List.cons.inj h).1 hc.2.1
  · next h => exact absurd (List.cons.inj h).1 hc.2.2
  · rfl

/-- A text that is read by its name or as a number. -/
theorem reads_scalar {s : List Char} {v : Value} {c : Char} {t : List Char} (hs : s = c :: t)
    (hc : c ≠ '"' ∧ c ≠ '[' ∧ c ≠ '\x7b')
    (h : ∀ rest, Ends rest → readScalar (s ++ rest) = .ok (v, rest)) : Reads room s v := by
  subst hs
  intro fuel rest hfuel hrest
  obtain ⟨fuel, rfl⟩ : ∃ n, fuel = n + 1 := ⟨fuel - 1, by simp at hfuel; omega⟩
  rw [List.cons_append, readValue_scalar fuel hc, ← List.cons_append]
  exact h rest hrest

theorem reads_word {s : List Char} {v : Value} (h : (s, v) ∈ words) : Opens s ∧ Reads room s v := by
  have hcases : ∀ {word : List Char} {w : Value} {c : Char} {t : List Char}, word = c :: t →
      (c ≠ '"' ∧ c ≠ '[' ∧ c ≠ '\x7b') → isSpace c = false ∧ c ≠ ']' ∧ c ≠ '\ufeff' →
      (∀ rest, readScalar (word ++ rest) = .ok (w, rest)) → Opens word ∧ Reads room word w :=
    fun hword hc hopen hread => ⟨⟨_, _, hword, hopen⟩, reads_scalar hword hc fun rest _ => hread rest⟩
  simp only [words, List.mem_cons, Prod.mk.injEq, List.not_mem_nil, or_false] at h
  rcases h with ⟨rfl, rfl⟩ | ⟨rfl, rfl⟩ | ⟨rfl, rfl⟩ | ⟨rfl, rfl⟩ | ⟨rfl, rfl⟩ | ⟨rfl, rfl⟩
  all_goals exact hcases rfl (by decide) (by decide) fun rest => rfl

/-- A number in a text starts with a digit, behind a minus if it is negative. -/
theorem opens_number {s t : List Char} (negative : Bool) {c : Char} {rest : List Char} (hne : s ≠ [])
    (hs : s ++ rest = Binary64.signText negative ++ c :: t) (hc : isDigit c = true) :
    ∃ d u, s = d :: u ∧ (d ≠ '"' ∧ d ≠ '[' ∧ d ≠ '\x7b') ∧
      (isSpace d = false ∧ d ≠ ']' ∧ d ≠ '\ufeff') := by
  obtain ⟨d, u, rfl⟩ := List.exists_cons_of_ne_nil hne
  refine ⟨d, u, rfl, ?_⟩
  have hd : d = '-' ∨ isDigit d = true := by
    cases negative with
    | true => exact .inl (List.cons.inj hs).1
    | false => exact .inr ((List.cons.inj hs).1 ▸ hc)
  have hne' : ∀ e, (e == '-' || isDigit e) = false → d ≠ e := by
    rintro e he rfl
    rcases hd with rfl | hd
    · cases he
    · rw [hd, Bool.or_true] at he
      cases he
  refine ⟨⟨hne' _ rfl, hne' _ rfl, hne' _ rfl⟩, ?_, hne' _ rfl, hne' _ (by decide)⟩
  simp [isSpace, hne' ' ' rfl, hne' '\t' rfl, hne' '\n' rfl, hne' '\r' rfl]

theorem reads_int {n : Int} (h : digitCount n.natAbs ≤ maxDigits) :
    Opens (intText n) ∧ Reads room (intText n) (.int n) := by
  have hne : intText n ≠ [] := by
    rw [intText_eq]
    simp [digits_ne_nil]
  obtain ⟨c, t, hs, hc, -⟩ := readNumber_intText h ends_nil
  obtain ⟨d, u, hcons, hstart, hopen⟩ := opens_number _ hne hs hc
  refine ⟨⟨d, u, hcons, hopen⟩, reads_scalar hcons hstart fun rest hrest => ?_⟩
  obtain ⟨c, t, hs, hc, hread⟩ := readNumber_intText h hrest
  rw [hs, readScalar_of_number _ hc, hread]

theorem reads_float {x : Binary64} (h : x.IsCanonical) :
    Opens (floatForm x) ∧ Reads room (floatForm x) (.float x) := by
  cases x with
  | nan => exact reads_word (by simp [words, floatForm])
  | infinite negative =>
    cases negative with
    | true => exact reads_word (by simp [words, floatForm, Binary64.signText])
    | false => exact reads_word (by simp [words, floatForm, Binary64.signText])
  | finite negative m e =>
    have hcan : Binary64.Canonical m e := h
    have hform : floatForm (.finite negative m e) = (Binary64.finite negative m e).text := rfl
    obtain ⟨c, t, hs, hc, -⟩ := readNumber_text negative hcan ends_nil
    have hne : (Binary64.finite negative m e).text ≠ [] := by
      intro hnil
      rw [hnil] at hs
      simp at hs
    obtain ⟨d, u, hcons, hstart, hopen⟩ := opens_number _ hne hs hc
    refine ⟨⟨d, u, hcons, hopen⟩, reads_scalar hcons hstart fun rest hrest => ?_⟩
    obtain ⟨c, t, hs, hc, hread⟩ := readNumber_text negative hcan hrest
    rw [hform, hs, readScalar_of_number _ hc, hread]

theorem reads_text (s : String) :
    Opens (textForm s.toList) ∧ Reads room (textForm s.toList) (.text s) := by
  refine ⟨⟨'"', _, rfl, by decide⟩, fun fuel rest hfuel _ => ?_⟩
  obtain ⟨fuel, rfl⟩ : ∃ n, fuel = n + 1 := ⟨fuel - 1, by simp [textForm] at hfuel; omega⟩
  rw [textForm, List.cons_append, List.cons_append, List.append_assoc, readValue,
    List.singleton_append, readText_escaped]
  exact congrArg (fun v => Except.ok (v, rest)) (Value.ofPoints_ofString s)

/-! ### Lists and records -/

theorem skipSpace_of_not_isSpace {c : Char} (hc : isSpace c = false) (t : List Char) :
    skipSpace (c :: t) = c :: t := by
  rw [skipSpace, List.dropWhile_cons_of_neg]
  rw [hc]
  exact Bool.false_ne_true

theorem Opens.skipSpace {s : List Char} (h : Opens s) (rest : List Char) :
    skipSpace (s ++ rest) = s ++ rest := by
  obtain ⟨c, t, rfl, hc, -⟩ := h
  exact skipSpace_of_not_isSpace hc _

theorem Opens.append {s : List Char} (h : Opens s) (t : List Char) : Opens (s ++ t) := by
  obtain ⟨c, u, rfl, hc⟩ := h
  exact ⟨c, u ++ t, rfl, hc⟩

theorem opens_of_quote {s : List Char} (h : s.head? = some '"') : Opens s := by
  cases s with
  | nil => cases h
  | cons c t =>
    cases h
    exact ⟨'"', t, rfl, by decide⟩

/-- The items of a list are read up to its end. -/
def ReadsItems (room : Nat) (s : List Char) (items : List Value) : Prop :=
  ∀ fuel rest, 2 * s.length + 1 ≤ fuel → readItems fuel room (s ++ ']' :: rest) = .ok (items, rest)

/-- The fields of a record are read up to its end. -/
def ReadsFields (room : Nat) (s : List Char) (fields : List (String × Value)) : Prop :=
  ∀ fuel rest, 2 * s.length + 1 ≤ fuel →
    readFields fuel room (s ++ '\x7d' :: rest) = .ok (Value.pointed fields, rest)

theorem reads_list {s : List Char} {items : List Value} (hopen : Opens s)
    (h : ReadsItems room s items) : Reads (room + 1) ('[' :: s ++ [']']) (.list items) := by
  intro fuel rest hfuel _
  simp only [List.length_append, List.length_cons, List.length_nil] at hfuel
  obtain ⟨fuel, rfl⟩ : ∃ n, fuel = n + 1 := ⟨fuel - 1, by omega⟩
  rw [List.cons_append, List.cons_append, List.append_assoc, List.singleton_append, readValue,
    hopen.skipSpace]
  obtain ⟨c, t, rfl, -, hc, -⟩ := hopen
  rw [List.cons_append]
  split
  · next heq => exact absurd (List.cons.inj heq).1 hc
  · rw [← List.cons_append, h fuel rest (by omega)]
    rfl

theorem readsItems_single {s : List Char} {v : Value} (h : Reads room s v) :
    ReadsItems room s [v] := by
  intro fuel rest hfuel
  obtain ⟨fuel, rfl⟩ : ∃ n, fuel = n + 1 := ⟨fuel - 1, by omega⟩
  rw [readItems, h fuel _ (by omega) (by rintro c ⟨⟩; decide)]
  rfl

theorem readsItems_cons {s t : List Char} {v : Value} {items : List Value} (h : Reads room s v)
    (hopen : Opens t) (ht : ReadsItems room t items) :
    ReadsItems room (s ++ ',' :: t) (v :: items) := by
  intro fuel rest hfuel
  simp only [List.length_append, List.length_cons] at hfuel
  obtain ⟨fuel, rfl⟩ : ∃ n, fuel = n + 1 := ⟨fuel - 1, by omega⟩
  rw [List.append_assoc, List.cons_append, readItems,
    h fuel _ (by omega) (by rintro c ⟨⟩; decide)]
  change (readItems fuel room (Json.skipSpace (t ++ ']' :: rest)) >>= _) = _
  rw [hopen.skipSpace, ht fuel rest (by omega)]
  rfl

/-- A field is read up to what follows its value. -/
theorem readFields_head {s more : List Char} {v : Value} {fuel : Nat} (k : String) (hopen : Opens s)
    (h : Reads room s v) (hfuel : 2 * s.length ≤ fuel) (hmore : Ends more) :
    readFields (fuel + 1) room (textForm k.toList ++ ':' :: s ++ more) =
      match skipSpace more with
      | '\x7d' :: rest => .ok ([(CodePoint.ofString k, v)], rest)
      | ',' :: rest => do
        let (fields, rest) ← readFields fuel room (skipSpace rest)
        return ((CodePoint.ofString k, v) :: fields, rest)
      | rest => .error (.malformed .comma rest.length) := by
  have hform : textForm k.toList ++ ':' :: s ++ more =
      '"' :: (k.toList.flatMap escaped ++ '"' :: ':' :: (s ++ more)) := by
    simp [textForm]
  rw [hform, readFields, readText_escaped]
  simp only [bind, Except.bind]
  rw [skipSpace_of_not_isSpace (by decide)]
  change (readValue fuel room (skipSpace (s ++ more)) >>= _) = _
  rw [hopen.skipSpace, h fuel more hfuel hmore]
  rfl

theorem readsFields_single {s : List Char} {v : Value} (k : String) (hopen : Opens s)
    (h : Reads room s v) : ReadsFields room (textForm k.toList ++ ':' :: s) [(k, v)] := by
  intro fuel rest hfuel
  simp only [List.length_append, List.length_cons] at hfuel
  obtain ⟨fuel, rfl⟩ : ∃ n, fuel = n + 1 := ⟨fuel - 1, by omega⟩
  rw [readFields_head k hopen h (by omega) (by rintro c ⟨⟩; decide),
    skipSpace_of_not_isSpace (by decide)]
  rfl

theorem readsFields_cons {s t : List Char} {v : Value} {fields : List (String × Value)} (k : String)
    (hopen : Opens s) (h : Reads room s v) (hopen' : Opens t) (ht : ReadsFields room t fields) :
    ReadsFields room (textForm k.toList ++ ':' :: s ++ ',' :: t) ((k, v) :: fields) := by
  intro fuel rest hfuel
  simp only [List.length_append, List.length_cons] at hfuel
  obtain ⟨fuel, rfl⟩ : ∃ n, fuel = n + 1 := ⟨fuel - 1, by omega⟩
  rw [List.append_assoc _ (',' :: t)]
  change readFields (fuel + 1) room (textForm k.toList ++ ':' :: s ++ ',' :: (t ++ '\x7d' :: rest)) = _
  rw [readFields_head k hopen h (by omega) (by rintro c ⟨⟩; decide),
    skipSpace_of_not_isSpace (by decide)]
  change (readFields fuel room (skipSpace (t ++ '\x7d' :: rest)) >>= _) = _
  rw [hopen'.skipSpace, ht fuel rest (by omega)]
  rfl

theorem reads_record {s : List Char} {fields : List (String × Value)}
    (hnames : (Table.keys fields).Nodup) (hstart : s.head? = some '"')
    (h : ReadsFields room s fields) : Reads (room + 1) ('\x7b' :: s ++ ['\x7d']) (.record fields) := by
  intro fuel rest hfuel _
  simp only [List.length_append, List.length_cons, List.length_nil] at hfuel
  obtain ⟨fuel, rfl⟩ : ∃ n, fuel = n + 1 := ⟨fuel - 1, by omega⟩
  obtain ⟨t, rfl⟩ : ∃ t, s = '"' :: t := by
    cases s with
    | nil => cases hstart
    | cons c t => exact ⟨t, congrArg (· :: t) (Option.some.inj hstart)⟩
  rw [List.cons_append, List.cons_append, List.append_assoc, List.singleton_append, readValue,
    List.cons_append, skipSpace_of_not_isSpace (by decide)]
  change (readFields fuel room ('"' :: t ++ '\x7d' :: rest) >>= _) = _
  rw [h fuel rest (by omega)]
  change Except.ok (Value.ofFields (Table.ofRows (Value.pointed fields)), rest) = _
  rw [Table.ofRows_of_nodup (Value.nodup_keys_pointed hnames), Value.ofFields_pointed]

/-! ### All values -/

mutual

/-- A value is read as it is written. -/
theorem reads_of_write : ∀ {v : Value} {room : Nat} {s : List Char}, v.Regular →
    write room v = .ok s → Opens s ∧ Reads room s v
  | .null, room, s, _, hs => by
    cases hs
    exact reads_word (by simp [words])
  | .bool true, room, s, _, hs => by
    cases hs
    exact reads_word (by simp [words])
  | .bool false, room, s, _, hs => by
    cases hs
    exact reads_word (by simp [words])
  | .int n, room, s, _, hs => by
    rw [write] at hs
    split at hs
    · next h =>
      cases hs
      exact reads_int (of_decide_eq_true h)
    · cases hs
  | .float x, room, s, .float h, hs => by
    cases hs
    exact reads_float h
  | .text t, room, s, _, hs => by
    cases hs
    exact reads_text t
  | .list items, 0, s, _, hs => nomatch hs
  | .list items, room + 1, s, .list h, hs => by
    obtain ⟨t, ht, rfl⟩ := Except.map_eq_ok_iff.1 hs
    refine ⟨⟨'[', _, rfl, by decide⟩, ?_⟩
    cases items with
    | nil =>
      cases ht
      exact fun fuel rest hfuel _ => match fuel, hfuel with | fuel + 1, _ => rfl
    | cons v rest =>
      -- a list that is not empty starts with a value, which the reader tells from the bracket
      obtain ⟨hopen, hread⟩ := readsItems_of_write (List.cons_ne_nil v rest) h ht
      exact reads_list hopen hread
  | .record fields, 0, s, _, hs => nomatch hs
  | .record fields, room + 1, s, .record hnames h, hs => by
    obtain ⟨t, ht, rfl⟩ := Except.map_eq_ok_iff.1 hs
    refine ⟨⟨'\x7b', _, rfl, by decide⟩, ?_⟩
    cases fields with
    | nil =>
      cases ht
      exact fun fuel rest hfuel _ => match fuel, hfuel with | fuel + 1, _ => rfl
    | cons field rest =>
      obtain ⟨hstart, hread⟩ := readsFields_of_write (List.cons_ne_nil field rest) h ht
      exact reads_record hnames hstart hread
  | .raggedRecord fields, 0, s, _, hs => nomatch hs
  | .raggedRecord fields, room + 1, s, _, hs => nomatch hs

theorem readsItems_of_write : ∀ {items : List Value} {room : Nat} {s : List Char}, items ≠ [] →
    (∀ v ∈ items, v.Regular) → writeItems room items = .ok s → Opens s ∧ ReadsItems room s items
  | [], _, _, hne, _, _ => absurd rfl hne
  | [v], room, s, _, h, hs => by
    obtain ⟨hopen, hread⟩ := reads_of_write (h v List.mem_cons_self) hs
    exact ⟨hopen, readsItems_single hread⟩
  | v :: w :: rest, room, s, _, h, hs => by
    obtain ⟨t, ht, hs⟩ := Except.ok_of_bind hs
    obtain ⟨u, hu, hs⟩ := Except.ok_of_bind hs
    cases hs
    obtain ⟨hopen, hread⟩ := reads_of_write (h v List.mem_cons_self) ht
    obtain ⟨hopen', hread'⟩ := readsItems_of_write (List.cons_ne_nil w rest)
      (fun x hx => h x (List.mem_cons_of_mem v hx)) hu
    exact ⟨hopen.append _, readsItems_cons hread hopen' hread'⟩

theorem readsFields_of_write : ∀ {fields : List (String × Value)} {room : Nat} {s : List Char},
    fields ≠ [] → (∀ field ∈ fields, field.2.Regular) → writeFields room fields = .ok s →
    s.head? = some '"' ∧ ReadsFields room s fields
  | [], _, _, hne, _, _ => absurd rfl hne
  | [(k, v)], room, s, _, h, hs => by
    obtain ⟨t, ht, hs⟩ := Except.ok_of_bind hs
    cases hs
    obtain ⟨hopen, hread⟩ := reads_of_write (h (k, v) List.mem_cons_self) ht
    exact ⟨rfl, readsFields_single k hopen hread⟩
  | (k, v) :: field :: rest, room, s, _, h, hs => by
    obtain ⟨t, ht, hs⟩ := Except.ok_of_bind hs
    obtain ⟨u, hu, hs⟩ := Except.ok_of_bind hs
    cases hs
    obtain ⟨hopen, hread⟩ := reads_of_write (h (k, v) List.mem_cons_self) ht
    obtain ⟨hstart, hread'⟩ := readsFields_of_write (List.cons_ne_nil field rest)
      (fun x hx => h x (List.mem_cons_of_mem (k, v) hx)) hu
    exact ⟨rfl, readsFields_cons k hopen hread (opens_of_quote hstart) hread'⟩

end

/-- Reading what is written for a value gives the value. -/
theorem read_of_write {v : Value} {s : List Char} (hv : v.Regular)
    (hs : write maxDepth v = .ok s) : read s = .ok v := by
  obtain ⟨⟨c, t, rfl, hc, -, hmark⟩, hread⟩ := reads_of_write hv hs
  have h := hread (2 * (c :: t).length + 2) [] (by omega) (by rintro c ⟨⟩)
  rw [List.append_nil] at h
  unfold read
  split
  · next heq => exact absurd (List.cons.inj heq).1 hmark
  · rw [skipSpace_of_not_isSpace hc, h]
    rfl

end Json

/-! ### Values in the store -/

namespace Value

/-- The value, unless it is null. -/
def nonNull? : Value → Option Value
  | null => none
  | v => some v

theorem nonNull?_of_ne {v : Value} (h : v ≠ .null) : v.nonNull? = some v := by
  cases v with
  | null => exact absurd rfl h
  | _ => rfl

theorem eq_of_nonNull? {v w : Value} (h : v.nonNull? = some w) : w = v := by
  cases v with
  | null => cases h
  | _ => exact (Option.some.inj h).symm

end Value

namespace Store

variable {store : Store} {key : String} {v w : Value}

/-- The contents for a value are decoded as the value, and as none for null. -/
theorem decode_of_encode (hv : v.Regular) {contents : ByteArray} (h : encode v = .ok contents) :
    decode contents = .ok v.nonNull? := by
  obtain ⟨s, hs, rfl⟩ := Except.map_eq_ok_iff.1 h
  have htext : String.fromUTF8? (String.ofList s).toUTF8 = some (String.ofList s) := by
    rw [String.toUTF8_eq_toByteArray, String.fromUTF8?, dif_pos (String.isValidUTF8 _)]
    rfl
  rw [decode, htext]
  dsimp only
  rw [String.toList_ofList, Json.read_of_write hv hs]
  cases v <;> rfl

theorem exists_encode_of_storable (hv : Json.Storable Json.maxDepth v) :
    ∃ contents, encode v = .ok contents := by
  obtain ⟨s, hs⟩ := hv.exists_write
  exact ⟨_, by rw [encode, hs]; rfl⟩

/-- Decoding undoes encoding, except for null. -/
theorem exists_decode_of_storable (hv : Json.Storable Json.maxDepth v) (hne : v ≠ .null) :
    ∃ contents, encode v = .ok contents ∧ decode contents = .ok (some v) := by
  obtain ⟨contents, hcontents⟩ := exists_encode_of_storable hv
  refine ⟨contents, hcontents, (decode_of_encode hv.regular hcontents).trans ?_⟩
  rw [Value.nonNull?_of_ne hne]

/-- A value that can be stored is found where it was stored. -/
theorem load_set_of_storable (hkey : takes key) (hv : Json.Storable Json.maxDepth v)
    (hne : v ≠ .null) : (store.set key v).load key = .ok (some v) := by
  obtain ⟨contents, hcontents, hdecoded⟩ := exists_decode_of_storable hv hne
  rw [load_set_self hkey hcontents, hdecoded]

/-- Storing null under a key leaves nothing there. -/
theorem load_set_null (hkey : takes key) : (store.set key .null).load key = .ok none := by
  have hcontents : encode .null = .ok (String.ofList "null".toList).toUTF8 := rfl
  rw [load_set_self hkey hcontents]
  exact decode_of_encode .null hcontents

/-- Storing a value with a lone surrogate in it leaves the stored values as they were. -/
theorem load_set_of_ragged (hv : ¬ v.Whole) (key k : String) :
    (store.set key v).load k = store.load k := by
  cases hcontents : encode v with
  | error refusal => exact load_set_of_error hcontents key k
  | ok contents =>
    obtain ⟨s, hs, -⟩ := Except.map_eq_ok_iff.1 hcontents
    exact absurd (Json.exists_write_iff.1 ⟨s, hs⟩).1.whole hv

/-- What is found under a key after a value was stored there is that value, unless it is null, or is what
was found before. -/
theorem load_set_cases (hkey : takes key) (hv : v.Regular) :
    (store.set key v).load key = .ok v.nonNull? ∨
      (store.set key v).load key = store.load key := by
  cases hcontents : encode v with
  | error refusal => exact .inr (load_set_of_error hcontents key key)
  | ok contents => exact .inl ((load_set_self hkey hcontents store).trans (decode_of_encode hv hcontents))

end Store

end StakeSnapshot
