import StakeSnapshot.Text.Lowercase
import StakeSnapshot.Value.Access

/-!
# Validator keys

The one spelling of a validator's public key: `0x` and 96 lower-case hexadecimal digits, or nothing
for a key that has not been assigned. A contract spells keys as bytes, a node as text.
-/

namespace StakeSnapshot

/-- The number of bytes of a key. -/
def pubkeyLength : Nat := 48

/-- The key of a minipool that has no validator yet. -/
def unassignedPubkey : String := ""

/-- Puts `0x` in front of a text that does not start with it. -/
def markedHex (s : List Char) : List Char :=
  if "0x".toList.isPrefixOf s then s else '0' :: 'x' :: s

/-- The lower-case hexadecimal text of a value, with `0x` in front. -/
def Value.hexText : Value → List Char
  | .bytes .view octets => Text.lower (markedHex (Text.hexOfBytes octets))
  | .bytes _ octets => '0' :: 'x' :: Text.hexOfBytes octets
  | .float x => Text.lower (markedHex x.hexText)
  | v => markedHex (Text.lower (Text.strip v.plain))

/-- The key that code points with a surrogate among them spell. It is none that a node knows. -/
def raggedKey (points : List CodePoint) : Except Fault (List CodePoint) :=
  let spelled := CodePoint.lower (CodePoint.strip points)
  let key := if CodePoint.startsWith "0x".toList spelled then spelled
    else CodePoint.ofString "0x" ++ spelled
  if key.length ≠ 2 + 2 * pubkeyLength then
    .error (.pubkeyLength (String.ofList (CodePoint.shown key)))
  else .ok key

/-- The key that a value spells. A missing key and one of zeros only are not assigned; any other
has to have the full number of digits. One with a surrogate is named by its quotation. -/
def Value.toPubkey : Value → Except Fault String
  | .null => .ok unassignedPubkey
  | .ragged points => (raggedKey points).map fun key => String.ofList (CodePoint.quoted key)
  | v =>
    let key := v.hexText
    let digits := key.drop 2
    if v.isWritable = false then .error .numberTooLong
    else if digits.all (· == '0') then .ok unassignedPubkey
    else if digits.length ≠ 2 * pubkeyLength then .error (.pubkeyLength (String.ofList key))
    else .ok (String.ofList key)

/-- The key that a value spells, as a value. -/
def Value.pubkeyForm : Value → Except Fault Value
  | .ragged points => (raggedKey points).map .ragged
  | v => v.toPubkey.map .text

end StakeSnapshot
