import StakeSnapshot.Number.IntegerText
import StakeSnapshot.Value

/-!
# Writing JSON

The compact text of a value: no spaces, fields in order, and only the characters escaped that must
be. A value has no text if it holds a byte string, an integer too long to be read back or half of a
surrogate pair, or if it is too deep.
-/

namespace StakeSnapshot.Json

/-- A character of a text between double quotes. -/
def escaped (c : Char) : List Char :=
  if c = '"' ∨ c = '\\' then ['\\', c]
  else if c = '\n' then ['\\', 'n']
  else if c = '\r' then ['\\', 'r']
  else if c = '\t' then ['\\', 't']
  else if c.toNat = 8 then ['\\', 'b']
  else if c.toNat = 12 then ['\\', 'f']
  else if c.toNat < 32 then '\\' :: 'u' :: Text.hexPadded 4 c.toNat
  else [c]

/-- A text between double quotes. -/
def textForm (s : List Char) : List Char := '"' :: s.flatMap escaped ++ ['"']

/-- A floating-point number; those that are not finite have names. -/
def floatForm : Number.Binary64 → List Char
  | .nan => "NaN".toList
  | .infinite negative => Number.Binary64.signText negative ++ "Infinity".toList
  | x => x.text

/-- Why a value has no text: something in it is not written, or it is too deep. -/
inductive Refusal where
  | unwritable
  | tooDeep
  deriving DecidableEq

mutual

/-- The compact text of a value, with `room` for that many lists and records inside each other. The first
part that is not written decides why there is none. -/
def write (room : Nat) : Value → Except Refusal (List Char)
  | .null => .ok "null".toList
  | .bool true => .ok "true".toList
  | .bool false => .ok "false".toList
  | .int n => if Number.isWritable n then .ok (Number.intText n) else .error .unwritable
  | .float x => .ok (floatForm x)
  | .text s => .ok (textForm s.toList)
  | .ragged _ => .error .unwritable
  | .bytes _ _ => .error .unwritable
  | .list items =>
    match room with
    | 0 => .error .tooDeep
    | room + 1 => (writeItems room items).map fun s => '[' :: s ++ [']']
  | .record fields =>
    match room with
    | 0 => .error .tooDeep
    | room + 1 => (writeFields room fields).map fun s => '\x7b' :: s ++ ['\x7d']
  | .raggedRecord fields =>
    match room with
    | 0 => .error .tooDeep
    | room + 1 => .error (raggedRefusal room fields)

/-- The items of a list with commas between them. -/
def writeItems (room : Nat) : List Value → Except Refusal (List Char)
  | [] => .ok []
  | [v] => write room v
  | v :: w :: rest => do
    let s ← write room v
    let t ← writeItems room (w :: rest)
    return s ++ ',' :: t

/-- The fields of a record with commas between them. -/
def writeFields (room : Nat) : List (String × Value) → Except Refusal (List Char)
  | [] => .ok []
  | [(k, v)] => do
    let s ← write room v
    return textForm k.toList ++ ':' :: s
  | (k, v) :: field :: rest => do
    let s ← write room v
    let t ← writeFields room (field :: rest)
    return textForm k.toList ++ ':' :: s ++ ',' :: t

/-- Why a ragged record has no text: for its first ragged name, or for a value before it. -/
def raggedRefusal (room : Nat) : List (List CodePoint × Value) → Refusal
  | [] => .unwritable
  | (k, v) :: rest =>
    if (CodePoint.plain? k).isNone then .unwritable
    else
      match write room v with
      | .error refusal => refusal
      | .ok _ => raggedRefusal room rest

end

end StakeSnapshot.Json
