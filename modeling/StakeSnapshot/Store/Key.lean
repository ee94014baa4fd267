import StakeSnapshot.Digest.Sha256
import StakeSnapshot.Store
import StakeSnapshot.Text.Digit

/-!
# Keys of the store

A reading is stored under the digest of a text that names its kind and everything it depends on.
-/

namespace StakeSnapshot.Store

/-- The version of the layout of the store; values stored under another one are not found. -/
def version : String := "1"

/-- The text that a key is the digest of. -/
def keyText (kind : String) (parts : List String) : String :=
  String.intercalate ":" (kind :: version :: parts)

/-- The key for a kind of reading and what it depends on. -/
def key (kind : String) (parts : List String) : String :=
  String.ofList (Text.hexOfBytes (Digest.sha256 (keyText kind parts).toUTF8.toList))

theorem utf8ByteSize_ofList_of_ascii {cs : List Char} (h : ∀ c ∈ cs, c.utf8Size = 1) :
    (String.ofList cs).utf8ByteSize = cs.length := by
  induction cs with
  | nil => rfl
  | cons c cs ih =>
    rw [String.ofList_cons, String.utf8ByteSize_append, ih fun d hd => h d (List.mem_cons_of_mem c hd)]
    simp [h c List.mem_cons_self, Nat.add_comm]

/-- The directory takes files for the keys of readings. -/
theorem takes_key (kind : String) (parts : List String) : takes (key kind parts) := by
  have hsize : (key kind parts).utf8ByteSize = 64 := by
    rw [key, utf8ByteSize_ofList_of_ascii fun c hc => Text.utf8Size_of_mem_hexOfBytes hc,
      Text.length_hexOfBytes, Digest.length_sha256]
  have hslash : '/' ∉ (key kind parts).toList := by
    rw [key, String.toList_ofList]
    exact Text.slash_notMem_hexOfBytes _
  simp [takes, hsize, maxKeySize, hslash]

/-- The readings that are stored. -/
inductive StoredReading where
  | block (base : String) (slot : Int)
  | validators (base : String) (slot : Int) (batch : List String)
  | nodes (storage : String) (block : Value)
  | minipools (storage : String) (block : Value)
  deriving DecidableEq

namespace StoredReading

/-- The slot or block that a reading is for. -/
def height : StoredReading → Value
  | block _ slot | validators _ slot _ => .int slot
  | nodes _ height | minipools _ height => height

/-- The name of the kind of a reading. -/
def kind : StoredReading → String
  | block .. => "slot_block"
  | validators .. => "validators"
  | nodes .. => "nodes"
  | minipools .. => "minipools"

/-- What a reading depends on. -/
def parts : StoredReading → List String
  | block base slot => [base, numberText slot]
  | validators base slot batch => [base, numberText slot, String.intercalate "," batch]
  | nodes storage height => [storage, valueText height]
  | minipools storage height => [storage, valueText height]

/-- The text that the key of a reading is the digest of. -/
def text (r : StoredReading) : String := keyText r.kind r.parts

/-- The key of a reading. -/
def key (r : StoredReading) : String := Store.key r.kind r.parts

/-- Why there is no text for the key of a reading, if there is none: the slot or block has an integer
with too many digits in it, or a surrogate. -/
def keyFault? (r : StoredReading) : Option Fault :=
  match r.height with
  | .ragged points =>
    some (.unencodable (CodePoint.ofString (keyText r.kind (r.parts.take 1) ++ ":") ++ points))
  | height => if height.isWritable then none else some .numberTooLong

theorem keyFault?_int {r : StoredReading} {n : Int} (h : r.height = .int n) :
    r.keyFault? = if Number.isWritable n then none else some .numberTooLong := by
  rw [keyFault?, h]
  rfl

/-- At an integer, a key can be made just if the integer can be written. -/
theorem keyFault?_eq_none_iff {r : StoredReading} {n : Int} (h : r.height = .int n) :
    r.keyFault? = none ↔ Number.isWritable n = true := by
  rw [keyFault?_int h]
  split <;> simp [*]

end StoredReading

/-- Looks a reading up. The text of the key is made first. -/
def look (s : Store) (reading : StoredReading) : Except Fault (Option Value) :=
  match reading.keyFault? with
  | none => s.load reading.key
  | some fault => .error fault

theorem look_of_writable {s : Store} {q : StoredReading} (hq : q.keyFault? = none) :
    s.look q = s.load q.key := by
  rw [look, hq]

theorem load_of_look {s : Store} {q : StoredReading} {v? : Option Value} (h : s.look q = .ok v?) :
    s.load q.key = .ok v? := by
  unfold look at h
  split at h
  · exact h
  · cases h

end StakeSnapshot.Store
