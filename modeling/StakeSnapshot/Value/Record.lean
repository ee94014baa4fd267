import StakeSnapshot.Fault
import StakeSnapshot.Table
import StakeSnapshot.Value

/-!
# Records of a fixed shape

A stored row is a record with exactly the fields that its kind of row has, in any order.
-/

namespace StakeSnapshot.Value

/-- The fields of a record. A ragged name is shown with its surrogates by number. -/
def fields? : Value → Option (List (String × Value))
  | record fields => some fields
  | raggedRecord fields =>
    some (fields.map fun (name, v) => (String.ofList (CodePoint.shown name), v))
  | _ => none

/-- Checks that the fields of a record are exactly the named ones. -/
def checkFields (row : RowKind) (names : List String) (fields : List (String × Value)) :
    Except Fault Unit :=
  match fields.find? fun (name, _) => !names.contains name with
  | some (name, _) => .error (.shape (.unknownField row name))
  | none =>
    match names.filter fun name => (Table.find? fields name).isNone with
    | [] => .ok ()
    | first :: others => .error (.shape (.absentFields row first others))

end StakeSnapshot.Value
