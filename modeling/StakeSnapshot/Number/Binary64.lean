import StakeSnapshot.Number.Rounding
import StakeSnapshot.Text.Digit

/-!
# Binary floating-point numbers

Numbers of 64 bits as a sign, a significand below `2 ^ 53` and a power of two. A quotient is
rounded to the nearest such number, halves to even; the shortest text that reads back, the text in
fixed-point form and the hexadecimal text are computed exactly.
-/

namespace StakeSnapshot.Number

/-- A number of 64 bits. A finite one is `± significand * 2 ^ exponent`, where the exponent is at
least `-1074` and the significand has all of its 53 bits unless the exponent is `-1074`. -/
inductive Binary64 where
  | finite (negative : Bool) (significand : Nat) (exponent : Int)
  | infinite (negative : Bool)
  | nan
  deriving DecidableEq

namespace Binary64

/-- `num / den` times `2 ^ shift`, as a pair of natural numbers. -/
def scaled (num den : Nat) (shift : Int) : Nat × Nat :=
  if 0 ≤ shift then (num * Nat.pow 2 shift.toNat, den) else (num, den * Nat.pow 2 (-shift).toNat)

/-- The power of two of the last place of `num / den`. -/
def lastPlace (num den : Nat) : Int :=
  let guess : Int := (num.log2 : Int) - den.log2 - 52
  let unit := scaled num den (-guess)
  max (if unit.1 < unit.2 * Nat.pow 2 52 then guess - 1 else guess) (-1074)

/-- The number with a significand that may have been rounded up to the next power of two. -/
def carried (negative : Bool) (significand : Nat) (exponent : Int) : Binary64 :=
  if significand = Nat.pow 2 53 then
    if 971 < exponent + 1 then .infinite negative
    else .finite negative (Nat.pow 2 52) (exponent + 1)
  else if 971 < exponent then .infinite negative
  else .finite negative significand exponent

/-- The number nearest to `± num / den`, halves to even. -/
def ofRatio (negative : Bool) (num den : Nat) : Binary64 :=
  if num = 0 then .finite negative 0 (-1074)
  else
    let exponent := lastPlace num den
    let unit := scaled num den (-exponent)
    carried negative (roundHalfEven unit.1 unit.2) exponent

/-- The number nearest to `± n * 10 ^ exponent`, halves to even. -/
def ofDecimal (negative : Bool) (n : Nat) (exponent : Int) : Binary64 :=
  let magnitude := (digitCount n : Int) + exponent
  if n = 0 ∨ magnitude < -400 then .finite negative 0 (-1074)
  else if 400 < magnitude then .infinite negative
  else if 0 ≤ exponent then ofRatio negative (n * Nat.pow 10 exponent.toNat) 1
  else ofRatio negative n (Nat.pow 10 (-exponent).toNat)

/-- The number nearest to an integer. -/
def ofInt (n : Int) : Binary64 := ofRatio (n < 0) n.natAbs 1

/-- Whether a number is zero, of either sign. -/
def isZero : Binary64 → Bool
  | finite _ m _ => m = 0
  | _ => false

/-- The magnitude of a finite number as a quotient. -/
def ratio (significand : Nat) (exponent : Int) : Nat × Nat := scaled significand 1 exponent

/-- The integer part of a finite number. -/
def truncate (negative : Bool) (significand : Nat) (exponent : Int) : Int :=
  let (a, b) := ratio significand exponent
  if negative then -((a / b : Nat) : Int) else (a / b : Nat)

/-- The integer that a number is equal to, if any. -/
def toInt? : Binary64 → Option Int
  | finite negative m e =>
    let (a, b) := ratio m e
    if a % b = 0 then some (truncate negative m e) else none
  | _ => none

/-- The text of the sign. -/
def signText (negative : Bool) : List Char := if negative then ['-'] else []

/-- A number with exactly `places` digits after the point, halves to even. -/
def fixedText (places : Nat) : Binary64 → List Char
  | finite negative m e =>
    let (a, b) := ratio m e
    signText negative ++ fixedPoint places (roundHalfEven (a * Nat.pow 10 places) b)
  | infinite negative => signText negative ++ "inf".toList
  | nan => "nan".toList

/-- The power of ten just above a positive quotient: `10 ^ (k - 1) ≤ num / den < 10 ^ k`. -/
def decimalMagnitude (num den : Nat) : Int :=
  if den ≤ num then digitCount (num / den)
  else
    let t := digitCount (den / num)
    if den ≤ num * Nat.pow 10 (t - 1) then 2 - (t : Int) else 1 - (t : Int)

/-- The multiple of `10 ^ power` next to `num / den` that lies between `low / den` and
`high / den`, given as its factor; the ends belong to the interval if `closed`. Of two multiples
the nearer is taken, of two equally near ones the even. -/
def gridPoint? (num low high den : Nat) (closed : Bool) (power : Int) : Option Nat :=
  let up := Nat.pow 10 (-power).toNat
  let unit := den * Nat.pow 10 power.toNat
  let inside (f : Nat) : Bool :=
    if closed then low * up ≤ f * unit && f * unit ≤ high * up
    else low * up < f * unit && f * unit < high * up
  let f := num * up / unit
  match inside f, inside (f + 1) with
  | true, true =>
    let below := num * up - f * unit
    let above := (f + 1) * unit - num * up
    if below < above ∨ (below = above ∧ f % 2 = 0) then some f else some (f + 1)
  | true, false => some f
  | false, true => some (f + 1)
  | false, false => none

/-- The fewest decimal digits that read back as the same number: the first number of digits from
`count` on for which some decimal lies in the interval, with at most `fuel` tries. -/
def shortestFrom (num low high den : Nat) (closed : Bool) (magnitude : Int) :
    (fuel count : Nat) → Nat × Int
  | 0, count => (num * Nat.pow 10 count / den, -(count : Int))
  | fuel + 1, count =>
    match gridPoint? num low high den closed (magnitude - count) with
    | some f => (f, magnitude - count)
    | none => shortestFrom num low high den closed magnitude fuel (count + 1)

/-- The shortest decimal `digits * 10 ^ exponent` that reads back as a positive finite number. -/
def shortest (significand : Nat) (exponent : Int) : Nat × Int :=
  let (num, den) := ratio (4 * significand) (exponent - 2)
  let lowGap := if significand = Nat.pow 2 52 ∧ -1074 < exponent then 1 else 2
  let (low, _) := ratio (4 * significand - lowGap) (exponent - 2)
  let (high, _) := ratio (4 * significand + 2) (exponent - 2)
  shortestFrom num low high den (significand % 2 = 0) (decimalMagnitude num den) 17 1

/-- The power of ten behind a mantissa: at least two digits. -/
def powerText (power : Int) : List Char :=
  'e' :: (if power < 0 then '-' else '+') :: zeroPadded 2 (digits power.natAbs)

/-- A decimal in the shortest form: positional where the point falls within sixteen digits and at
most four zeros precede the first digit, otherwise with a power of ten of at least two digits. -/
def decimalText (n : Nat) (exponent : Int) : List Char :=
  let ds := ((digits n).reverse.dropWhile (· == '0')).reverse
  let point := (digitCount n : Int) + exponent
  if -4 < point ∧ point ≤ 16 then
    if point ≤ 0 then "0.".toList ++ List.replicate (-point).toNat '0' ++ ds
    else
      let whole := ds.take point.toNat
      let fraction := ds.drop point.toNat
      whole ++ List.replicate (point.toNat - whole.length) '0' ++
        '.' :: (if fraction.isEmpty then ['0'] else fraction)
  else
    let power := point - 1
    let mantissa := if ds.length ≤ 1 then ds else ds.take 1 ++ '.' :: ds.drop 1
    mantissa ++ powerText power

/-- The shortest text that reads back as the same number. -/
def text : Binary64 → List Char
  | finite negative m e =>
    signText negative ++
      if m = 0 then "0.0".toList else let (n, k) := shortest m e; decimalText n k
  | infinite negative => signText negative ++ "inf".toList
  | nan => "nan".toList

/-- The first `count` digits of a positive finite number, halves to even, and the power of ten of
the first one. -/
def leadingDigits (count significand : Nat) (exponent : Int) : Nat × Int :=
  let (num, den) := ratio significand exponent
  let power := decimalMagnitude num den - 1
  let shift := (count : Int) - 1 - power
  let n := roundHalfEven (num * Nat.pow 10 shift.toNat) (den * Nat.pow 10 (-shift).toNat)
  if n = Nat.pow 10 count then (n / 10, power + 1) else (n, power)

/-- A number with one digit before the point, exactly `places` after it, and a power of ten. -/
def scientificText (places : Nat) : Binary64 → List Char
  | finite negative m e =>
    let (n, power) := if m = 0 then (0, 0) else leadingDigits (places + 1) m e
    signText negative ++ fixedPoint places n ++ powerText power
  | infinite negative => signText negative ++ "inf".toList
  | nan => "nan".toList

/-- A text with a point in it, without the zeros at the end of it and without a final point. -/
def withoutFinalZeros (s : List Char) : List Char :=
  if s.contains '.' then
    let kept := (s.reverse.dropWhile (· == '0')).reverse
    if kept.getLast? = some '.' then kept.dropLast else kept
  else s

/-- A number with `count` digits, positional unless the power of ten is below `-4` or not below
`count`, without zeros at the end. -/
def generalText (count : Nat) : Binary64 → List Char
  | finite negative m e =>
    let (n, power) := if m = 0 then (0, 0) else leadingDigits count m e
    signText negative ++
      if power < -4 ∨ count ≤ power then
        withoutFinalZeros (fixedPoint (count - 1) n) ++ powerText power
      else withoutFinalZeros (fixedPoint (count - 1 - power).toNat n)
  | infinite negative => signText negative ++ "inf".toList
  | nan => "nan".toList

/-- The hexadecimal text of a number: one digit, a point, thirteen digits and a power of two. -/
def hexText : Binary64 → List Char
  | finite negative m e =>
    signText negative ++
      if m = 0 then "0x0.0p+0".toList
      else
        let lead := if m < Nat.pow 2 52 then '0' else '1'
        let power := e + 52
        '0' :: 'x' :: lead :: '.' :: Text.hexPadded 13 m ++
          'p' :: (if power < 0 then '-' else '+') :: digits power.natAbs
  | infinite negative => signText negative ++ "inf".toList
  | nan => "nan".toList

end Binary64

end StakeSnapshot.Number
