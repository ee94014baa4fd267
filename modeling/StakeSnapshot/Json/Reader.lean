import StakeSnapshot.Fault
import StakeSnapshot.Table
import StakeSnapshot.Value

/-!
# Reading JSON

Reads a whole text as one value. Beyond the standard, `NaN` and the infinities are numbers, and a text
may hold half of a surrogate pair by itself. Of fields with the same name the first gives the place and
the last the value. A failure says what was expected and where. Lists and records that are too deep in
each other are not read either.
-/

namespace StakeSnapshot.Json

/-- What is wrong at the place where reading stopped. -/
inductive Reason where
  | value
  | name
  | colon
  | comma
  | unterminated
  | control
  | escape
  | unicodeEscape
  | extra
  | byteOrderMark
  deriving DecidableEq

/-- Why a text is not read. Inside the reader a place is the number of characters still to come. -/
inductive Problem where
  | malformed (reason : Reason) (remaining : Nat)
  | integerTooLong (digits : Nat)
  | tooDeep (inside : Nesting)
  deriving DecidableEq

/-- How many lists and records may be inside each other. What the stack has room for depends a little on
who asks. -/
def maxDepth : Nat := 990

/-- Whether a character may stand between tokens. -/
def isSpace (c : Char) : Bool := c = ' ' || c = '\t' || c = '\n' || c = '\r'

/-- A text without the space in front of it. -/
def skipSpace (s : List Char) : List Char := s.dropWhile isSpace

/-- Whether a character is an ASCII digit. -/
def isDigit (c : Char) : Bool := '0' ≤ c && c ≤ '9'

/-- The number that a run of ASCII digits stands for. -/
def ofDigits (s : List Char) : Nat := s.foldl (fun n c => 10 * n + (c.toNat - '0'.toNat)) 0

/-- The character behind a backslash stands for another one. -/
def escapeOf? (c : Char) : Option Char :=
  if c = '"' ∨ c = '\\' ∨ c = '/' then some c
  else if c = 'b' then some (Char.ofNat 8)
  else if c = 'f' then some (Char.ofNat 12)
  else if c = 'n' then some '\n'
  else if c = 'r' then some '\r'
  else if c = 't' then some '\t'
  else none

/-- The number that four hexadecimal digits stand for. -/
def ofHex4? (a b c d : Char) : Option Nat := do
  let a ← Text.hexValue? a
  let b ← Text.hexValue? b
  let c ← Text.hexValue? c
  let d ← Text.hexValue? d
  return ((a * 16 + b) * 16 + c) * 16 + d

/-- A part of a text: a character, or the number of one that may be half of a pair. -/
inductive Piece where
  | char (c : Char)
  | code (n : Nat)

/-- Reads up to the closing quote of a text whose opening quote had `start` characters to come. -/
def readPieces (start : Nat) : List Char → Except Problem (List Piece × List Char)
  | [] => .error (.malformed .unterminated start)
  | '"' :: rest => .ok ([], rest)
  | ['\\'] => .error (.malformed .unterminated start)
  | '\\' :: 'u' :: a :: b :: c :: d :: e :: rest =>
    match ofHex4? a b c d with
    | none => .error (.malformed .unicodeEscape (rest.length + 6))
    | some n => do
      let (ps, rest) ← readPieces start (e :: rest)
      return (.code n :: ps, rest)
  | '\\' :: c :: rest =>
    if c = 'u' then .error (.malformed .unicodeEscape (rest.length + 1))
    else
      match escapeOf? c with
      | none => .error (.malformed .escape (rest.length + 2))
      | some c => do
        let (ps, rest) ← readPieces start rest
        return (.char c :: ps, rest)
  | c :: rest =>
    if c.toNat < 32 then .error (.malformed .control (rest.length + 1))
    else do
      let (ps, rest) ← readPieces start rest
      return (.char c :: ps, rest)

/-- Whether two numbers are the halves of a pair. -/
def isPair (n m : Nat) : Bool := 0xd800 ≤ n && n ≤ 0xdbff && 0xdc00 ≤ m && m ≤ 0xdfff

/-- The code points that parts stand for, after those before them and the number `half?`. -/
def joined : (half? : Option Nat) → List Piece → List CodePoint
  | none, [] => []
  | some n, [] => [.ofNat n]
  | none, .char c :: ps => .char c :: joined none ps
  | some n, .char c :: ps => .ofNat n :: .char c :: joined none ps
  | none, .code m :: ps => joined (some m) ps
  | some n, .code m :: ps =>
    if isPair n m then
      .ofNat (0x10000 + (n - 0xd800) * 0x400 + (m - 0xdc00)) :: joined none ps
    else .ofNat n :: joined (some m) ps

/-- Reads a text and what follows its closing quote. -/
def readText (start : Nat) (s : List Char) : Except Problem (List CodePoint × List Char) := do
  let (ps, rest) ← readPieces start s
  return (joined none ps, rest)

/-- The whole part of a number: zero alone, or digits that start with another one. -/
def wholeDigits? : List Char → Option (List Char × List Char)
  | '0' :: rest => some (['0'], rest)
  | c :: rest => if isDigit c then some ((c :: rest).span isDigit) else none
  | [] => none

/-- The digits behind a point, if there are any. -/
def fractionDigits : List Char → Option (List Char) × List Char
  | '.' :: rest =>
    let (ds, after) := rest.span isDigit
    if ds.isEmpty then (none, '.' :: rest) else (some ds, after)
  | s => (none, s)

/-- A power of ten, if it is complete. -/
def powerOfTen : List Char → Option Int × List Char
  | c :: rest =>
    if c = 'e' ∨ c = 'E' then
      let (negative, signed) := Number.splitSign rest
      let (ds, after) := signed.span isDigit
      if ds.isEmpty then (none, c :: rest)
      else (some (if negative then -(ofDigits ds : Int) else ofDigits ds), after)
    else (none, c :: rest)
  | [] => (none, [])

/-- Reads a number; one with a point or a power of ten is a floating-point number. -/
def readNumber (s : List Char) : Except Problem (Value × List Char) :=
  let (negative, unsigned) := match s with
    | '-' :: rest => (true, rest)
    | _ => (false, s)
  match wholeDigits? unsigned with
  | none => .error (.malformed .value s.length)
  | some (whole, rest) =>
    let (fraction, rest) := fractionDigits rest
    let (power, rest) := powerOfTen rest
    if fraction.isNone && power.isNone then
      if Number.maxDigits < whole.length then .error (.integerTooLong whole.length)
      else
        let n : Int := ofDigits whole
        .ok (.int (if negative then -n else n), rest)
    else
      let ds := fraction.getD []
      .ok (.float (Number.Binary64.ofDecimal negative (ofDigits (whole ++ ds))
        (power.getD 0 - ds.length)), rest)

/-- The names of fixed values. -/
def words : List (List Char × Value) :=
  [("null".toList, .null), ("true".toList, .bool true), ("false".toList, .bool false),
    ("NaN".toList, .float .nan), ("Infinity".toList, .float (.infinite false)),
    ("-Infinity".toList, .float (.infinite true))]

/-- Reads the name of a fixed value or a number. -/
def readScalar (s : List Char) : Except Problem (Value × List Char) :=
  match words.find? fun (word, _) => word.isPrefixOf s with
  | some (word, v) => .ok (v, s.drop word.length)
  | none => readNumber s

mutual

/-- Reads one value, with `room` for that many lists and records inside each other. -/
def readValue : (fuel room : Nat) → List Char → Except Problem (Value × List Char)
  | 0, _, s => .error (.malformed .value s.length)
  | fuel + 1, room, s =>
    match s with
    | '"' :: rest => do
      let (t, rest) ← readText s.length rest
      return (Value.ofPoints t, rest)
    | '[' :: rest =>
      match room with
      | 0 => .error (.tooDeep .list)
      | room + 1 =>
        match skipSpace rest with
        | ']' :: rest => .ok (.list [], rest)
        | rest => do
          let (items, rest) ← readItems fuel room rest
          return (.list items, rest)
    | '\x7b' :: rest =>
      match room with
      | 0 => .error (.tooDeep .record)
      | room + 1 =>
        match skipSpace rest with
        | '\x7d' :: rest => .ok (.record [], rest)
        | rest => do
          let (fields, rest) ← readFields fuel room rest
          return (Value.ofFields (Table.ofRows fields), rest)
    | s => readScalar s

/-- Reads the items of a list up to the closing bracket. -/
def readItems : (fuel room : Nat) → List Char → Except Problem (List Value × List Char)
  | 0, _, s => .error (.malformed .value s.length)
  | fuel + 1, room, s => do
    let (v, rest) ← readValue fuel room s
    match skipSpace rest with
    | ']' :: rest => .ok ([v], rest)
    | ',' :: rest => do
      let (vs, rest) ← readItems fuel room (skipSpace rest)
      return (v :: vs, rest)
    | rest => .error (.malformed .comma rest.length)

/-- Reads the fields of a record up to the closing brace. -/
def readFields : (fuel room : Nat) → List Char →
    Except Problem (List (List CodePoint × Value) × List Char)
  | 0, _, s => .error (.malformed .name s.length)
  | fuel + 1, room, s =>
    match s with
    | '"' :: rest => do
      let (k, rest) ← readText s.length rest
      match skipSpace rest with
      | ':' :: rest => do
        let (v, rest) ← readValue fuel room (skipSpace rest)
        match skipSpace rest with
        | '\x7d' :: rest => .ok ([(k, v)], rest)
        | ',' :: rest => do
          let (fields, rest) ← readFields fuel room (skipSpace rest)
          return ((k, v) :: fields, rest)
        | rest => .error (.malformed .comma rest.length)
      | rest => .error (.malformed .colon rest.length)
    | s => .error (.malformed .name s.length)

end

/-- Reads a whole text as one value. -/
def read (s : List Char) : Except Problem Value :=
  match s with
  | '\ufeff' :: _ => .error (.malformed .byteOrderMark s.length)
  | s => do
    let (v, rest) ← readValue (2 * s.length + 2) maxDepth (skipSpace s)
    match skipSpace rest with
    | [] => .ok v
    | rest => .error (.malformed .extra rest.length)

/-- What was expected where reading stopped. -/
def Reason.message : Reason → String
  | .value => "Expecting value"
  | .name => "Expecting property name enclosed in double quotes"
  | .colon => "Expecting ':' delimiter"
  | .comma => "Expecting ',' delimiter"
  | .unterminated => "Unterminated string starting at"
  | .control => "Invalid control character at"
  | .escape => "Invalid \\escape"
  | .unicodeEscape => "Invalid \\uXXXX escape"
  | .extra => "Extra data"
  | .byteOrderMark => "Unexpected UTF-8 BOM (decode using utf-8-sig)"

/-- The message for a text that is malformed at the given place: the line and the column count
from one, the character from zero. -/
def malformedMessage (reason : Reason) (s : List Char) (remaining : Nat) : String :=
  let position := s.length - remaining
  let before := s.take position
  let line := before.count '\n' + 1
  let column := (before.reverse.takeWhile (· != '\n')).length + 1
  reason.message ++ ": line " ++ String.ofList (Number.digits line) ++ " column "
    ++ String.ofList (Number.digits column) ++ " (char "
    ++ String.ofList (Number.digits position) ++ ")"

end StakeSnapshot.Json
