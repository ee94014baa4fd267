import StakeSnapshot.Fault
import StakeSnapshot.Value

/-!
# Line templates

A template is a text with directives in it, each of which takes a value: a percent sign, flags, a
width, a precision and a letter. A line without values is told as it is.
-/

namespace StakeSnapshot.Template

/-- How a value is to be shown. -/
structure Directive where
  left : Bool
  plus : Bool
  blank : Bool
  alternate : Bool
  zeros : Bool
  width : Nat
  precision : Option Nat

/-- A directive without flags, width and precision. -/
def Directive.plain : Directive := ⟨false, false, false, false, false, 0, none⟩

/-- Reads the flags of a directive. -/
def readFlags (d : Directive) : List Char → Directive × List Char
  | '-' :: rest => readFlags { d with left := true } rest
  | '+' :: rest => readFlags { d with plus := true } rest
  | ' ' :: rest => readFlags { d with blank := true } rest
  | '#' :: rest => readFlags { d with alternate := true } rest
  | '0' :: rest => readFlags { d with zeros := true } rest
  | rest => (d, rest)

/-- Reads a number, zero if there is none. -/
def readNumber (s : List Char) : Nat × List Char :=
  let (ds, rest) := s.span fun c => '0' ≤ c && c ≤ '9'
  (ds.foldl (fun n c => 10 * n + (c.toNat - '0'.toNat)) 0, rest)

/-- The integer that a value is, if it is one. -/
def integer? : Value → Option Int
  | .int n => some n
  | .bool b => some (if b then 1 else 0)
  | _ => none

/-- Takes the next value. -/
def next : List Value → Except TemplateFault (Value × List Value)
  | [] => .error .tooFewValues
  | v :: rest => .ok (v, rest)

/-- Reads a width, which may be the next value; a negative one asks for the left side. -/
def readWidth (d : Directive) (s : List Char) (vs : List Value) :
    Except TemplateFault (Directive × List Char × List Value) :=
  match s with
  | '*' :: rest => do
    let (v, vs) ← next vs
    match integer? v with
    | none => .error .needsWidth
    | some n => .ok ({ d with width := n.natAbs, left := d.left || n < 0 }, rest, vs)
  | s =>
    let (n, rest) := readNumber s
    if n < Nat.pow 2 63 then .ok ({ d with width := n }, rest, vs) else .error .widthRange

/-- Reads a precision, which may be the next value. -/
def readPrecision (d : Directive) (s : List Char) (vs : List Value) :
    Except TemplateFault (Directive × List Char × List Value) :=
  match s with
  | '.' :: '*' :: rest => do
    let (v, vs) ← next vs
    match integer? v with
    | none => .error .needsWidth
    | some n => .ok ({ d with precision := some n.toNat }, rest, vs)
  | '.' :: s =>
    let (n, rest) := readNumber s
    if n < Nat.pow 2 31 then .ok ({ d with precision := some n }, rest, vs) else .error .precisionRange
  | s => .ok (d, s, vs)

/-- Leaves out a letter that would say how long a number is. -/
def skipLength : List Char → List Char
  | 'h' :: rest | 'l' :: rest | 'L' :: rest => rest
  | rest => rest

/-- A text in the width of a directive. -/
def placeText (d : Directive) (s : List Char) : List Char :=
  let s := match d.precision with
    | some n => s.take n
    | none => s
  let gap := List.replicate (d.width - s.length) ' '
  if d.left then s ++ gap else gap ++ s

/-- A number in the width of a directive: its sign, the mark of its base and its digits. -/
def placeNumber (d : Directive) (negative : Bool) (mark body : List Char) : List Char :=
  let sign := if negative then ['-'] else if d.plus then ['+'] else if d.blank then [' '] else []
  let gap := d.width - (sign.length + mark.length + body.length)
  if d.left then sign ++ mark ++ body ++ List.replicate gap ' '
  else if d.zeros then sign ++ mark ++ List.replicate gap '0' ++ body
  else List.replicate gap ' ' ++ sign ++ mark ++ body

/-- An integer in a base. -/
def placeInteger (d : Directive) (letter : Char) (n : Int) : List Char :=
  let base := if letter = 'o' then 8 else if letter = 'x' ∨ letter = 'X' then 16 else 10
  let ds := Nat.toDigits base n.natAbs
  let ds := if letter = 'X' then ds.map Char.toUpper else ds
  let mark := if d.alternate ∧ base ≠ 10 then ['0', letter] else []
  placeNumber d (n < 0) mark (Number.zeroPadded (d.precision.getD 1) ds)

/-- The integer that a decimal directive shows; a fraction is cut off. -/
def decimalOf (letter : Char) (v : Value) : Except TemplateFault Int :=
  match v with
  | .float (.finite negative m e) => .ok (Number.Binary64.truncate negative m e)
  | .float (.infinite _) => .error (.notFinite true)
  | .float .nan => .error (.notFinite false)
  | v =>
    match integer? v with
    | some n => .ok n
    | none => .error (.needsNumber letter v.typeName)

/-- The floating-point number that a directive shows. -/
def floatOf (v : Value) : Except TemplateFault Number.Binary64 :=
  match v with
  | .float x => .ok x
  | v =>
    match integer? v with
    | none => .error (.needsReal v.typeName)
    | some n =>
      match Number.Binary64.ofInt n with
      | .infinite _ => .error .hugeNumber
      | x => .ok x

/-- A floating-point number in one of its forms. -/
def placeFloat (d : Directive) (letter : Char) (x : Number.Binary64) : List Char :=
  let places := d.precision.getD 6
  let text := match letter.toLower with
    | 'e' => x.scientificText places
    | 'f' => x.fixedText places
    | _ => x.generalText (max places 1)
  let text := if letter.isUpper then text.map Char.toUpper else text
  match text with
  | '-' :: body => placeNumber d true [] body
  | body => placeNumber d false [] body

/-- The character that a value is or has the number of. -/
def characterOf (v : Value) : Except TemplateFault Char :=
  match v with
  | .text s =>
    match s.toList with
    | [c] => .ok c
    | _ => .error .needsCharacter
  | v =>
    match integer? v with
    | none => .error .needsCharacter
    | some n => if 0 ≤ n ∧ n < 0x110000 then .ok (Char.ofNat n.toNat) else .error .characterRange

/-- A value as a directive shows it; `position` is that of the letter. -/
def render (d : Directive) (letter : Char) (position : Nat) (v : Value) :
    Except TemplateFault (List Char) :=
  if letter = 's' ∨ letter = 'r' ∨ letter = 'a' then
    if v.isWritable then
      .ok (placeText d (if letter = 's' then v.plain else if letter = 'r' then v.shown
        else v.shown.flatMap Text.asciiChar))
    else .error .hugeInteger
  else if letter = 'd' ∨ letter = 'i' ∨ letter = 'u' then do
    let n ← decimalOf letter v
    if Number.isWritable n then return placeInteger d letter n else throw .hugeInteger
  else if letter = 'x' ∨ letter = 'X' ∨ letter = 'o' then
    match integer? v with
    | some n => .ok (placeInteger d letter n)
    | none => .error (.needsInteger letter v.typeName)
  else if ['e', 'E', 'f', 'F', 'g', 'G'].contains letter then
    (floatOf v).map (placeFloat d letter)
  else if letter = 'c' then (characterOf v).map fun c => placeText d [c]
  else .error (.unknownLetter letter position)

/-- Reads a directive behind its percent sign and shows the next value by it. The rest of a template
of `total` characters is given back with the values that are left. -/
def directive (total : Nat) (s : List Char) (vs : List Value) :
    Except TemplateFault (List Char × List Char × List Value) :=
  match s with
  | '%' :: rest => .ok (['%'], rest, vs)
  | '(' :: _ => .error .needsRecord
  | s => do
    let (d, s) := readFlags .plain s
    let (d, s, vs) ← readWidth d s vs
    let (d, s, vs) ← readPrecision d s vs
    match skipLength s with
    | [] => .error .incomplete
    | letter :: rest => do
      let (v, vs) ← next vs
      return (← render d letter (total - rest.length - 1) v, rest, vs)

/-- Fills in a template of `total` characters; `fuel` bounds the steps. -/
def fillFrom (total : Nat) : (fuel : Nat) → List Char → List Value →
    Except TemplateFault (List Char)
  | _, [], [] => .ok []
  | _, [], _ :: _ => .error .tooManyValues
  | 0, _, _ => .ok []
  | fuel + 1, '%' :: s, vs => do
    let (shown, rest, vs) ← directive total s vs
    return shown ++ (← fillFrom total fuel rest vs)
  | fuel + 1, c :: s, vs => return c :: (← fillFrom total fuel s vs)

/-- The line that a template makes of some values. -/
def fill (template : String) (vs : List Value) : Except Fault String :=
  if vs.isEmpty then .ok template
  else
    match fillFrom template.length template.length template.toList vs with
    | .ok s => .ok (String.ofList s)
    | .error fault => .error (.template fault)

end StakeSnapshot.Template
