import StakeSnapshot.Number.Rounding
import StakeSnapshot.Text.Blank
import StakeSnapshot.Text.Digit

/-!
# Integers in text

Reads an integer written in decimal, or in hexadecimal after a `0x` mark: white space around it,
one sign, digits with single underscores between them. Decimal integers of more than 4300 digits
are neither read nor written.
-/

namespace StakeSnapshot.Number
open Text

/-- Why a text is not read as an integer. -/
inductive IntegerFault where
  | malformed
  | tooLong (digits : Nat)
  deriving DecidableEq

/-- The most digits that a decimal integer may have in text. -/
def maxDigits : Nat := 4300

/-- Whether an integer may be written in decimal. -/
def isWritable (n : Int) : Bool := digitCount n.natAbs ≤ maxDigits

/-- The value of a digit in a base of at most sixteen. -/
def digitBelow? (base : Nat) (c : Char) : Option Nat :=
  (hexValue? c).filter (· < base)

/-- Reads a run of digits with single underscores between them, after digits that gave `value` and
were `count` many; `marked` says that an underscore has just been passed. -/
def digitRun (base : Nat) : (value count : Nat) → (marked : Bool) → List Char →
    Option (Nat × Nat × List Char)
  | value, count, marked, [] => if marked then none else some (value, count, [])
  | value, count, marked, c :: rest =>
    if c = '_' then
      if marked then none else digitRun base value count true rest
    else
      match digitBelow? base c with
      | some d => digitRun base (value * base + d) (count + 1) false rest
      | none => if marked then none else some (value, count, c :: rest)

/-- Takes one sign off a text. -/
def splitSign : List Char → Bool × List Char
  | '-' :: rest => (true, rest)
  | '+' :: rest => (false, rest)
  | rest => (false, rest)

/-- Takes the mark of a hexadecimal number off a text, with one underscore after it. -/
def dropHexMark : List Char → List Char
  | '0' :: 'x' :: '_' :: rest => rest
  | '0' :: 'X' :: '_' :: rest => rest
  | '0' :: 'x' :: rest => rest
  | '0' :: 'X' :: rest => rest
  | rest => rest

/-- The magnitude in a text from which sign and mark have been taken off. -/
def readMagnitude (base : Nat) (s : List Char) : Except IntegerFault Nat :=
  if s.head? = some '_' then .error .malformed
  else
    match digitRun base 0 0 false s with
    | none => .error .malformed
    | some (value, count, rest) =>
      if base = 10 ∧ maxDigits < count then .error (.tooLong count)
      else if count = 0 ∨ rest.dropWhile isAsciiBlank ≠ [] then .error .malformed
      else .ok value

/-- The integer that a text of ASCII characters holds. -/
def readAscii (base : Nat) (s : List Char) : Except IntegerFault Int := do
  let (negative, rest) := splitSign (s.dropWhile isAsciiBlank)
  let n ← readMagnitude base (if base = 16 then dropHexMark rest else rest)
  return if negative then -(n : Int) else n

/-- The ASCII character that stands for a character inside a number: white space and the digits
of every script have one. -/
def asciiForm (c : Char) : Char :=
  if c.toNat < 127 then c
  else if isBlank c then ' '
  else
    match decimalValue? c with
    | some d => Char.ofNat ('0'.toNat + d)
    | none => '?'

/-- The integer that a text holds in base ten or sixteen. -/
def readInteger (base : Nat) (s : List Char) : Except IntegerFault Int :=
  readAscii base (s.map asciiForm)

end StakeSnapshot.Number
