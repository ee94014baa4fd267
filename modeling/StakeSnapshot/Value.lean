import StakeSnapshot.Number.Binary64
import StakeSnapshot.Number.IntegerText
import StakeSnapshot.Text.CodePoint

/-!
# Values

The values that a node, a contract or a stored entry hands over before anything is known of their
shape, and the text they are shown as. Two values are equal if they are built alike.
-/

namespace StakeSnapshot

/-- How a byte string is held: as a constant, as a buffer, or as a view of one. -/
inductive ByteForm where
  | constant
  | buffer
  | view
  deriving DecidableEq

/-- A value of unknown shape. The fields of a record keep their order. A text is `ragged` if it holds
half of a surrogate pair by itself, and so is a record if one of its names does. -/
inductive Value where
  | null
  | bool (b : Bool)
  | int (n : Int)
  | float (x : Number.Binary64)
  | text (s : String)
  | ragged (points : List CodePoint)
  | bytes (form : ByteForm) (octets : List UInt8)
  | list (items : List Value)
  | record (fields : List (String × Value))
  | raggedRecord (fields : List (List CodePoint × Value))

instance : Inhabited Value := ⟨.null⟩

instance : Coe String Value := ⟨.text⟩

instance (n : Nat) : OfNat Value n := ⟨.int n⟩

namespace Value

/-- The text of code points. -/
def ofPoints (points : List CodePoint) : Value :=
  match CodePoint.plain? points with
  | some s => text s
  | none => ragged points

/-- A field whose name holds no half of a surrogate pair. -/
def plainField? (field : List CodePoint × Value) : Option (String × Value) :=
  (CodePoint.plain? field.1).map fun s => (s, field.2)

/-- The record of fields whose names are given by code points. -/
def ofFields (fields : List (List CodePoint × Value)) : Value :=
  match fields.mapM plainField? with
  | some fields => record fields
  | none => raggedRecord fields

/-- The name of a value's type in error messages. -/
def typeName : Value → String
  | null => "NoneType"
  | bool _ => "bool"
  | int _ => "int"
  | float _ => "float"
  | text _ | ragged _ => "str"
  | bytes .constant _ => "bytes"
  | bytes .buffer _ => "bytearray"
  | bytes .view _ => "memoryview"
  | list _ => "list"
  | record _ | raggedRecord _ => "dict"

/-- Whether a value counts as true: neither null, false, zero nor empty. -/
def truth : Value → Bool
  | null => false
  | bool b => b
  | int n => n != 0
  | float x => !x.isZero
  | text s => !s.isEmpty
  | ragged points => !points.isEmpty
  | bytes _ octets => !octets.isEmpty
  | list items => !items.isEmpty
  | record fields => !fields.isEmpty
  | raggedRecord fields => !fields.isEmpty

/-- The text that a value is, if it is one that a file takes. -/
def text? : Value → Option String
  | text s => some s
  | _ => none

/-- The code points of a text. -/
def points : Value → List CodePoint
  | text s => CodePoint.ofString s
  | ragged points => points
  | _ => []

/-- The integer that a value is. A truth value is one as well. -/
def int? : Value → Option Int
  | int n => some n
  | bool b => some (if b then 1 else 0)
  | _ => none

mutual

/-- A value as it is shown inside another one: texts and byte strings quoted. -/
def shown : Value → List Char
  | null => "None".toList
  | bool true => "True".toList
  | bool false => "False".toList
  | int n => Number.intText n
  | float x => x.text
  | text s => Text.quoted s.toList
  | ragged points => CodePoint.quoted points
  | bytes .constant octets => Text.quotedBytes octets
  | bytes .buffer octets => "bytearray(".toList ++ Text.quotedBuffer octets ++ [')']
  | bytes .view _ => "<memory>".toList
  | list items => '[' :: shownItems items ++ [']']
  | record fields => '\x7b' :: shownFields fields ++ ['\x7d']
  | raggedRecord fields => '\x7b' :: shownRagged fields ++ ['\x7d']

/-- The items of a list, separated by a comma and a space. -/
def shownItems : List Value → List Char
  | [] => []
  | [v] => v.shown
  | v :: w :: rest => v.shown ++ ',' :: ' ' :: shownItems (w :: rest)

/-- The fields of a record, separated by a comma and a space. -/
def shownFields : List (String × Value) → List Char
  | [] => []
  | [(k, v)] => Text.quoted k.toList ++ ':' :: ' ' :: v.shown
  | (k, v) :: field :: rest =>
    Text.quoted k.toList ++ ':' :: ' ' :: v.shown ++ ',' :: ' ' :: shownFields (field :: rest)

/-- The fields of a ragged record, separated by a comma and a space. -/
def shownRagged : List (List CodePoint × Value) → List Char
  | [] => []
  | [(k, v)] => CodePoint.quoted k ++ ':' :: ' ' :: v.shown
  | (k, v) :: field :: rest =>
    CodePoint.quoted k ++ ':' :: ' ' :: v.shown ++ ',' :: ' ' :: shownRagged (field :: rest)

end

mutual

/-- Whether a value can be shown: no integer in it has too many digits. -/
def isWritable : Value → Bool
  | int n => Number.isWritable n
  | list items => areWritable items
  | record fields => areFieldsWritable fields
  | raggedRecord fields => areRaggedWritable fields
  | _ => true

/-- Whether the items of a list can be shown. -/
def areWritable : List Value → Bool
  | [] => true
  | v :: rest => v.isWritable && areWritable rest

/-- Whether the fields of a record can be shown. -/
def areFieldsWritable : List (String × Value) → Bool
  | [] => true
  | (_, v) :: rest => v.isWritable && areFieldsWritable rest

/-- Whether the fields of a ragged record can be shown. -/
def areRaggedWritable : List (List CodePoint × Value) → Bool
  | [] => true
  | (_, v) :: rest => v.isWritable && areRaggedWritable rest

end

@[simp] theorem isWritable_int (n : Int) : (int n).isWritable = Number.isWritable n := rfl

@[simp] theorem isWritable_null : null.isWritable = true := rfl

/-- A value as text: a text is itself, with its surrogates by number, and all else is as shown. -/
def plain : Value → List Char
  | text s => s.toList
  | ragged points => CodePoint.shown points
  | v => v.shown

/-! ### How deep a value goes -/

mutual

/-- How many lists and records are inside each other in a value. -/
def depth : Value → Nat
  | list items => itemDepth items + 1
  | record fields => fieldDepth fields + 1
  | raggedRecord fields => raggedDepth fields + 1
  | _ => 0

/-- The depth of the deepest item of a list. -/
def itemDepth : List Value → Nat
  | [] => 0
  | v :: rest => max v.depth (itemDepth rest)

/-- The depth of the deepest field of a record. -/
def fieldDepth : List (String × Value) → Nat
  | [] => 0
  | (_, v) :: rest => max v.depth (fieldDepth rest)

/-- The depth of the deepest field of a ragged record. -/
def raggedDepth : List (List CodePoint × Value) → Nat
  | [] => 0
  | (_, v) :: rest => max v.depth (raggedDepth rest)

end

/-! ### Equality -/

mutual

/-- Whether two values are built alike. -/
def same : Value → Value → Bool
  | null, null => true
  | bool b, bool c => b == c
  | int m, int n => m == n
  | float x, float y => x == y
  | text s, text t => s == t
  | ragged ps, ragged qs => ps == qs
  | bytes form octets, bytes form' octets' => form == form' && octets == octets'
  | list xs, list ys => sameItems xs ys
  | record fs, record gs => sameFields fs gs
  | raggedRecord fs, raggedRecord gs => sameRagged fs gs
  | _, _ => false
termination_by structural v => v

/-- Whether the items of two lists are the same. -/
def sameItems : List Value → List Value → Bool
  | [], [] => true
  | v :: vs, w :: ws => same v w && sameItems vs ws
  | _, _ => false
termination_by structural v => v

/-- Whether the fields of two records are the same. -/
def sameFields : List (String × Value) → List (String × Value) → Bool
  | [], [] => true
  | (k, v) :: fs, (l, w) :: gs => k == l && same v w && sameFields fs gs
  | _, _ => false
termination_by structural v => v

/-- Whether the fields of two ragged records are the same. -/
def sameRagged : List (List CodePoint × Value) → List (List CodePoint × Value) → Bool
  | [], [] => true
  | (k, v) :: fs, (l, w) :: gs => k == l && same v w && sameRagged fs gs
  | _, _ => false
termination_by structural v => v

end

mutual

theorem eq_of_same : ∀ {v w : Value}, same v w = true → v = w
  | null, w, h => by cases w <;> simp only [same, reduceCtorEq] at h; rfl
  | bool b, w, h => by
    cases w <;> simp only [same, reduceCtorEq, beq_iff_eq] at h
    rw [h]
  | int n, w, h => by
    cases w <;> simp only [same, reduceCtorEq, beq_iff_eq] at h
    rw [h]
  | float x, w, h => by
    cases w <;> simp only [same, reduceCtorEq, beq_iff_eq] at h
    rw [h]
  | text s, w, h => by
    cases w <;> simp only [same, reduceCtorEq, beq_iff_eq] at h
    rw [h]
  | ragged ps, w, h => by
    cases w <;> simp only [same, reduceCtorEq, beq_iff_eq] at h
    rw [h]
  | bytes form octets, w, h => by
    cases w <;> simp only [same, reduceCtorEq, Bool.and_eq_true, beq_iff_eq] at h
    rw [h.1, h.2]
  | list xs, w, h => by
    cases w <;> simp only [same, reduceCtorEq] at h
    rw [eq_of_sameItems h]
  | record fs, w, h => by
    cases w <;> simp only [same, reduceCtorEq] at h
    rw [eq_of_sameFields h]
  | raggedRecord fs, w, h => by
    cases w <;> simp only [same, reduceCtorEq] at h
    rw [eq_of_sameRagged h]

theorem eq_of_sameItems : ∀ {xs ys : List Value}, sameItems xs ys = true → xs = ys
  | [], [], _ => rfl
  | v :: vs, w :: ws, h => by
    simp only [sameItems, Bool.and_eq_true] at h
    rw [eq_of_same h.1, eq_of_sameItems h.2]
  | [], w :: ws, h | v :: vs, [], h => by simp only [sameItems, reduceCtorEq] at h

theorem eq_of_sameFields : ∀ {fs gs : List (String × Value)}, sameFields fs gs = true → fs = gs
  | [], [], _ => rfl
  | (k, v) :: fs, (l, w) :: gs, h => by
    simp only [sameFields, Bool.and_eq_true, beq_iff_eq] at h
    rw [h.1.1, eq_of_same h.1.2, eq_of_sameFields h.2]
  | [], g :: gs, h | f :: fs, [], h => by simp only [sameFields, reduceCtorEq] at h

theorem eq_of_sameRagged : ∀ {fs gs : List (List CodePoint × Value)},
    sameRagged fs gs = true → fs = gs
  | [], [], _ => rfl
  | (k, v) :: fs, (l, w) :: gs, h => by
    simp only [sameRagged, Bool.and_eq_true, beq_iff_eq] at h
    rw [h.1.1, eq_of_same h.1.2, eq_of_sameRagged h.2]
  | [], g :: gs, h | f :: fs, [], h => by simp only [sameRagged, reduceCtorEq] at h

end

mutual

theorem same_self : ∀ v : Value, same v v = true
  | null => by simp only [same]
  | bool b => by simp only [same, beq_self_eq_true]
  | int n => by simp only [same, beq_self_eq_true]
  | float x => by simp only [same, beq_self_eq_true]
  | text s => by simp only [same, beq_self_eq_true]
  | ragged ps => by simp only [same, beq_self_eq_true]
  | bytes form octets => by simp only [same, beq_self_eq_true, Bool.and_self]
  | list xs => by simp only [same, sameItems_self xs]
  | record fs => by simp only [same, sameFields_self fs]
  | raggedRecord fs => by simp only [same, sameRagged_self fs]

theorem sameItems_self : ∀ xs : List Value, sameItems xs xs = true
  | [] => by simp only [sameItems]
  | v :: vs => by simp only [sameItems, same_self v, sameItems_self vs, Bool.and_self]

theorem sameFields_self : ∀ fs : List (String × Value), sameFields fs fs = true
  | [] => by simp only [sameFields]
  | (k, v) :: fs => by
    simp only [sameFields, same_self v, sameFields_self fs, beq_self_eq_true, Bool.and_self]

theorem sameRagged_self : ∀ fs : List (List CodePoint × Value), sameRagged fs fs = true
  | [] => by simp only [sameRagged]
  | (k, v) :: fs => by
    simp only [sameRagged, same_self v, sameRagged_self fs, beq_self_eq_true, Bool.and_self]

end

instance : DecidableEq Value := fun v w =>
  if h : same v w = true then isTrue (eq_of_same h) else isFalse fun e => h (e ▸ same_self v)

/-! ### Induction -/

/-- What holds of every value if it holds of lists and records whenever it holds of their parts. -/
@[elab_as_elim]
theorem induction {motive : Value → Prop} (null : motive .null) (bool : ∀ b, motive (.bool b))
    (int : ∀ n, motive (.int n)) (float : ∀ x, motive (.float x)) (text : ∀ s, motive (.text s))
    (ragged : ∀ points, motive (.ragged points)) (bytes : ∀ form octets, motive (.bytes form octets))
    (list : ∀ items, (∀ v ∈ items, motive v) → motive (.list items))
    (record : ∀ fields, (∀ field ∈ fields, motive field.2) → motive (.record fields))
    (raggedRecord : ∀ fields, (∀ field ∈ fields, motive field.2) → motive (.raggedRecord fields)) :
    ∀ v : Value, motive v
  | .null => null
  | .bool b => bool b
  | .int n => int n
  | .float x => float x
  | .text s => text s
  | .ragged points => ragged points
  | .bytes form octets => bytes form octets
  | .list items => list items fun v _ =>
    induction null bool int float text ragged bytes list record raggedRecord v
  | .record fields => record fields fun field _ =>
    induction null bool int float text ragged bytes list record raggedRecord field.2
  | .raggedRecord fields => raggedRecord fields fun field _ =>
    induction null bool int float text ragged bytes list record raggedRecord field.2
termination_by v => sizeOf v
decreasing_by
  · have := List.sizeOf_lt_of_mem ‹v ∈ items›
    simp only [Value.list.sizeOf_spec]
    omega
  · obtain ⟨name, v⟩ := field
    have := List.sizeOf_lt_of_mem ‹(name, v) ∈ fields›
    simp only [Value.record.sizeOf_spec, Prod.mk.sizeOf_spec] at this ⊢
    omega
  · obtain ⟨name, v⟩ := field
    have := List.sizeOf_lt_of_mem ‹(name, v) ∈ fields›
    simp only [Value.raggedRecord.sizeOf_spec, Prod.mk.sizeOf_spec] at this ⊢
    omega

end Value

end StakeSnapshot
