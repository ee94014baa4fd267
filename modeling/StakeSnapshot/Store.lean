import StakeSnapshot.Fault
import StakeSnapshot.Json.Reader
import StakeSnapshot.Json.Writer

/-!
# The store

A directory of files, one for each stored value, under the name of its key. A value is written to a
draft first, so that a value that cannot be written leaves the stored one as it was. A file that
cannot be read back counts as absent, unless it is too deep. The directory takes files for the keys of
readings.
-/

namespace StakeSnapshot

/-- A directory that may not exist, with its files by name. -/
structure Store where
  present : Bool
  files : Table String ByteArray

instance : DecidableEq Store := fun s t =>
  let _ : DecidableEq ByteArray := ByteArray.instDecidableEq
  decidable_of_iff (s.present = t.present ∧ s.files = t.files) (by cases s; cases t; simp)

namespace Store

/-- The store that has never been used. -/
def empty : Store := ⟨false, []⟩

/-- The name of the file for a key. -/
def fileName (key : String) : String := key ++ ".json"

/-- The name of the draft for a key. -/
def draftName (key : String) : String := key ++ ".tmp"

/-- The store with its directory in place. -/
def ensured (s : Store) : Store := { s with present := true }

/-- The contents of a file with the given value, if the value can be written. -/
def encode (v : Value) : Except Json.Refusal ByteArray :=
  (Json.write Json.maxDepth v).map fun s => (String.ofList s).toUTF8

/-- The value in the contents of a file. Null stands for no value, and so does what is no value at all;
but what is too deep is a failure. -/
def decode (contents : ByteArray) : Except Fault (Option Value) :=
  match String.fromUTF8? contents with
  | none => .ok none
  | some s =>
    match Json.read s.toList with
    | .error (.tooDeep inside) => .error (.tooDeep inside)
    | .error _ => .ok none
    | .ok .null => .ok none
    | .ok v => .ok (some v)

/-- Looks a key up. -/
def load (s : Store) (key : String) : Except Fault (Option Value) :=
  match Table.find? s.files (fileName key) with
  | none => .ok none
  | some contents => decode contents

/-- The value that is found under a key. -/
def get? (s : Store) (key : String) : Option Value :=
  match s.load key with
  | .ok v? => v?
  | .error _ => none

/-- The most bytes of a key for which the directory takes a draft. -/
def maxKeySize : Nat := 228

/-- Whether the directory takes files for a key. One with a slash in it leads to another directory, where
nothing can be written, and one that is too long leads nowhere. -/
def takes (key : String) : Bool :=
  !key.toList.contains '/' && key.utf8ByteSize ≤ maxKeySize

/-- Writes a value under a key by way of a draft. The draft of a value that is too deep is left behind;
it is never read, and what it holds is left out. -/
def set (s : Store) (key : String) (v : Value) : Store :=
  if takes key then
    let drafted := Table.put s.files (draftName key) .empty
    match encode v with
    | .ok contents =>
      ⟨true, (Table.erase drafted (draftName key)).put (fileName key) contents⟩
    | .error .unwritable => ⟨true, Table.erase drafted (draftName key)⟩
    | .error .tooDeep => ⟨true, drafted⟩
  else s.ensured

/-- What is raised when a value is written under a key. That a value has no text is passed over, but
neither that the key is too long nor that the value is too deep. -/
def refusal? (key : String) (v : Value) : Option Fault :=
  if maxKeySize < key.utf8ByteSize then some .longKey
  else if takes key then
    match encode v with
    | .error .tooDeep => some (.tooDeep .written)
    | _ => none
  else none

/-- Stores a value under a key. -/
def save (key : String) (v : Value) : EStateM Fault Store Unit := fun s =>
  match refusal? key v with
  | none => .ok () (s.set key v)
  | some fault => .error fault (s.set key v)

/-! ### Looking up what was written -/

theorem fileName_injective {key key' : String} (h : fileName key = fileName key') : key = key' := by
  have := congrArg String.toList h
  simp only [fileName, String.toList_append] at this
  exact String.toList_inj.1 (List.append_cancel_right this)

theorem draftName_injective {key key' : String} (h : draftName key = draftName key') : key = key' := by
  have := congrArg String.toList h
  simp only [draftName, String.toList_append] at this
  exact String.toList_inj.1 (List.append_cancel_right this)

/-- A draft never has the name of a stored value. -/
theorem draftName_ne_fileName (key key' : String) : draftName key ≠ fileName key' := by
  intro h
  have := congrArg (fun s => s.toList.reverse.head?) h
  simp [draftName, fileName, String.toList_append] at this

variable {s t : Store} {key k : String} {v : Value}

theorem get?_of_load {v? : Option Value} (h : s.load key = .ok v?) : s.get? key = v? := by
  rw [get?, h]

theorem load_of_get? (h : s.get? key = some v) : s.load key = .ok (some v) := by
  unfold get? at h
  split at h
  · next hload => rw [hload, h]
  · cases h

theorem get?_congr (h : s.load key = t.load k) : s.get? key = t.get? k := by
  rw [get?, h, get?]

/-- Looking up the key of a value that could be written gives what its file decodes to. -/
theorem load_set_self (hkey : takes key) {contents : ByteArray} (h : encode v = .ok contents)
    (s : Store) : (s.set key v).load key = decode contents := by
  simp [Store.set, load, h, hkey]

/-- A value that cannot be written leaves the stored ones as they were. -/
theorem load_set_of_error {refusal : Json.Refusal} (h : encode v = .error refusal)
    (key k : String) : (s.set key v).load k = s.load k := by
  unfold Store.set
  split
  · cases refusal <;> simp [load, h, Table.find?_erase_of_ne (draftName_ne_fileName key k),
      Table.find?_put_of_ne (draftName_ne_fileName key k)]
  · rfl

/-- Writing under one key leaves the values under the others. -/
theorem load_set_of_ne (h : key ≠ k) (s : Store) (v : Value) :
    (s.set key v).load k = s.load k := by
  have hf : fileName key ≠ fileName k := fun e => h (fileName_injective e)
  cases he : encode v with
  | error refusal => exact load_set_of_error he key k
  | ok contents =>
    unfold Store.set
    split
    · simp [load, he, Table.find?_put_of_ne hf,
        Table.find?_erase_of_ne (draftName_ne_fileName key k),
        Table.find?_put_of_ne (draftName_ne_fileName key k)]
    · rfl

theorem get?_set_of_ne (h : key ≠ k) (s : Store) (v : Value) :
    (s.set key v).get? k = s.get? k :=
  get?_congr (load_set_of_ne h s v)

end Store

end StakeSnapshot
