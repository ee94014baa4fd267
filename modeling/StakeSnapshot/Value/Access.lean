import StakeSnapshot.Fault
import StakeSnapshot.Number.IntegerText
import StakeSnapshot.Table
import StakeSnapshot.Value

/-!
# Reading parts of values

Fields of records, items of lists, and integers in any of the spellings that nodes and contracts
use.
-/

namespace StakeSnapshot.Value

/-- A field that has to be there. -/
def field (v : Value) (name : String) : Except Fault Value :=
  match v with
  | record fields =>
    match Table.find? fields name with
    | some w => .ok w
    | none => .error (.missingField name)
  | raggedRecord fields =>
    match Table.find? fields (CodePoint.ofString name) with
    | some w => .ok w
    | none => .error (.missingField name)
  | v => .error (.shape (.noFields v.typeName))

/-- A field that may be missing, in which case it is null. -/
def fieldOrNull (v : Value) (name : String) : Except Fault Value :=
  match v with
  | record fields => .ok ((Table.find? fields name).getD .null)
  | raggedRecord fields => .ok ((Table.find? fields (CodePoint.ofString name)).getD .null)
  | v => .error (.shape (.noLookup v.typeName))

/-- What there is to go through in a value, one after the other. -/
def items : Value → Except Fault (List Value)
  | list xs => .ok xs
  | record fields => .ok (fields.map fun (name, _) => text name)
  | raggedRecord fields => .ok (fields.map fun (name, _) => ofPoints name)
  | text s => .ok (s.toList.map fun c => text c.toString)
  | ragged points => .ok (points.map fun p => ofPoints [p])
  | bytes _ octets => .ok (octets.map fun b => int b.toNat)
  | v => .error (.shape (.notList v.typeName))

/-- What a value is compared as where it is a key: a number as the integer that it is equal to, if any,
and a view of bytes as these. Lists, records and buffers are no keys. -/
def keyForm : Value → Except Fault Value
  | bool b => .ok (int (if b then 1 else 0))
  | float x => .ok (x.toInt?.elim (float x) int)
  | bytes .view octets => .ok (bytes .constant octets)
  | bytes .buffer octets => .error (.shape (.notKey (bytes .buffer octets).typeName))
  | list items => .error (.shape (.notKey (list items).typeName))
  | record fields => .error (.shape (.notKey (record fields).typeName))
  | raggedRecord fields => .error (.shape (.notKey (raggedRecord fields).typeName))
  | v => .ok v

/-- A value as text, unless an integer in it has too many digits for that. -/
def written (v : Value) : Except Fault Value :=
  match v with
  | ragged points => .ok (ragged points)
  | v => if v.isWritable then .ok (text (String.ofList v.plain)) else .error .numberTooLong

/-- The most characters of a text that a message about it repeats. -/
def shownLimit : Nat := 200

/-- The fault for a text that is not an integer; `shown` is the text in quotation marks. -/
def integerFault (base : Nat) (shown : List Char) : Number.IntegerFault → Fault
  | .malformed => .integerText base (String.ofList (shown.take shownLimit))
  | .tooLong digits => .integerTooLong digits

/-- The integer a text holds: hexadecimal after `0x`, otherwise decimal. -/
def integerOfText (s : List Char) : Except Fault Int :=
  let s := Text.strip s
  let base := if "0x".toList.isPrefixOf s then 16 else 10
  (Number.readInteger base s).mapError (integerFault base (Text.quoted s))

/-- The integer that code points hold, as of a text. A surrogate is no part of one. -/
def integerOfPoints (points : List CodePoint) : Except Fault Int :=
  let points := CodePoint.strip points
  let base := if CodePoint.startsWith "0x".toList points then 16 else 10
  (Number.readAscii base (points.map fun p => p.char?.elim '?' Number.asciiForm)).mapError
    (integerFault base (CodePoint.quoted points))

/-- The integer a byte string holds in decimal. -/
def integerOfBytes (octets : List UInt8) : Except Fault Int :=
  (Number.readAscii 10 (octets.map fun b => Char.ofNat b.toNat)).mapError
    (integerFault 10 (Text.quotedBytes (octets.take shownLimit)))

/-- The integer a value stands for; null stands for `absent`, and a fraction is cut off. -/
def toInteger (v : Value) (absent : Int) : Except Fault Int :=
  match v with
  | null => .ok absent
  | bool b => .ok (if b then 1 else 0)
  | int n => .ok n
  | float (.finite negative m e) => .ok (Number.Binary64.truncate negative m e)
  | float (.infinite _) => .error .integerOfInfinity
  | float .nan => .error .integerOfNan
  | text s => integerOfText s.toList
  | ragged points => integerOfPoints points
  | bytes _ octets => integerOfBytes octets
  | v => .error (.shape (.notInteger v.typeName))

end StakeSnapshot.Value
