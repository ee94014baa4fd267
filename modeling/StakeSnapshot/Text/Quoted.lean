import StakeSnapshot.Text.Digit
import StakeSnapshot.Text.Printable

/-!
# Quoted text

The form in which error messages and nested values show a text or a byte string: between quotes,
with everything that cannot be printed shown by number.
-/

namespace StakeSnapshot.Text

/-- The quotation mark around a text: double quotes only where they avoid an escape. -/
def quoteMark (s : List Char) : Char :=
  if s.contains '\x27' && !s.contains '"' then '"' else '\x27'

/-- A character between the quotation marks `mark`. -/
def quotedChar (mark c : Char) : List Char :=
  if c = mark ∨ c = '\\' then ['\\', c]
  else if c = '\t' then ['\\', 't']
  else if c = '\n' then ['\\', 'n']
  else if c = '\r' then ['\\', 'r']
  else if isPrintable c then [c]
  else if c.toNat < 0x100 then '\\' :: 'x' :: hexPadded 2 c.toNat
  else if c.toNat < 0x10000 then '\\' :: 'u' :: hexPadded 4 c.toNat
  else '\\' :: 'U' :: hexPadded 8 c.toNat

/-- A text between quotation marks. -/
def quoted (s : List Char) : List Char :=
  let mark := quoteMark s
  mark :: s.flatMap (quotedChar mark) ++ [mark]

/-- A character as ASCII text: any other is shown by number. -/
def asciiChar (c : Char) : List Char :=
  if c.toNat < 0x80 then [c]
  else if c.toNat < 0x100 then '\\' :: 'x' :: hexPadded 2 c.toNat
  else if c.toNat < 0x10000 then '\\' :: 'u' :: hexPadded 4 c.toNat
  else '\\' :: 'U' :: hexPadded 8 c.toNat

/-- A byte between the quotation marks `mark`; only ASCII is shown as characters. -/
def quotedByte (mark : Char) (b : UInt8) : List Char :=
  if b.toNat < 0x80 then quotedChar mark (Char.ofNat b.toNat)
  else '\\' :: 'x' :: hexPadded 2 b.toNat

/-- The quotation mark around a byte string. -/
def byteQuoteMark (octets : List UInt8) : Char :=
  quoteMark (octets.map fun b => Char.ofNat b.toNat)

/-- A byte string between quotation marks. -/
def quotedBytes (octets : List UInt8) : List Char :=
  let mark := byteQuoteMark octets
  'b' :: mark :: octets.flatMap (quotedByte mark) ++ [mark]

/-- A byte string in a buffer between quotation marks: a single quote is always escaped. -/
def quotedBuffer (octets : List UInt8) : List Char :=
  let mark := byteQuoteMark octets
  'b' :: mark :: octets.flatMap (quotedByte '\x27') ++ [mark]

end StakeSnapshot.Text
