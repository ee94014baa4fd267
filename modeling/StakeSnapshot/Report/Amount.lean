import StakeSnapshot.Fault

/-!
# Amounts and fractions as text

Amounts of `10 ^ -18` coins and fractions of the same scale. A quotient is rounded to 28 digits
first and to the wanted places then, both times with halves to even. There are no quotients of more
than a million digits, and no texts with as many digits as the limit of a format.
-/

namespace StakeSnapshot.Report

/-- How many digits a quotient keeps. -/
def precision : Nat := 28

/-- The digits after the point of an amount in the smallest unit. -/
def scaleDigits : Nat := 18

/-- The greatest number of digits in front of the point of a quotient. -/
def wholeLimit : Nat := 1000000

/-- Whether the quotient of a number by a power of ten is not too large. -/
def isInRange (scale n : Nat) : Bool :=
  Number.digitCount (Number.significant precision n) ≤ wholeLimit + scale

/-- A sign, and the text of a magnitude behind it. -/
def signed (n : Int) (magnitude : List Char) : List Char :=
  if n < 0 then '-' :: magnitude else magnitude

/-- The number `n / 10 ^ 18` with exactly `places` digits after the point. -/
def scaledText (places : Nat) (n : Nat) : List Char :=
  Number.fixedPoint places (Number.roundHalfEven (Number.significant precision n * Nat.pow 10 places)
    (Nat.pow 10 scaleDigits))

/-- A text without the given characters at its end. -/
def trimEnd (c : Char) (s : List Char) : List Char := (s.reverse.dropWhile (· == c)).reverse

/-- An amount with at most `places` digits after the point. Zeros at the end of the text are left
out, and a point behind which nothing remains. -/
def amountDigits (places : Nat) (n : Int) : List Char :=
  trimEnd '.' (trimEnd '0' (signed n (scaledText places n.natAbs)))

/-- The digits in front of the point of an amount; there are none below one coin. -/
def wholeDigits (n : Nat) : Nat :=
  Number.digitCount (Number.significant precision n) - scaleDigits

/-- The greatest number of digits that there is a format for. -/
def formatLimit : Int := Int.pow 10 18

/-- Whether there is a format for an amount with so many places. The digits in front of the point
count as well, except for those of zero. -/
def hasFormat (places n : Int) : Bool :=
  places < formatLimit && (n == 0 || wholeDigits n.natAbs + places ≤ formatLimit)

/-- The text of an amount with its unit, and at most `places` digits after the point. -/
def amountText (unit : String) (places : Nat) (n : Int) : String :=
  String.ofList (amountDigits places n) ++ " " ++ unit

/-- An amount with its unit, if there is a text for it. -/
def amount (unit : String) (places n : Int) : Except Fault String :=
  if !isInRange scaleDigits n.natAbs then .error .amountRange
  else if places < 0 then .error .negativePlaces
  else if !hasFormat places n then .error .hugePlaces
  else .ok (amountText unit places.toNat n)

/-- How many places an amount has unless said otherwise. -/
def defaultPlaces : Nat := 4

/-- The unit of stakes. -/
def stakeUnit : String := "RPL"

/-- The unit of deposits and prices. -/
def depositUnit : String := "ETH"

/-- An amount of stake. -/
def stakeAmount (n : Int) : Except Fault String := amount stakeUnit defaultPlaces n

/-- The places of a price. -/
def pricePlaces : Nat := 6

/-- A price in deposits. -/
def priceAmount (n : Int) : Except Fault String := amount depositUnit pricePlaces n

/-- The text of a fraction as a percentage with two places. -/
def percentageText (n : Int) : String :=
  String.ofList (signed n (scaledText 2 (n.natAbs * 100)) ++ ['%'])

/-- A fraction as a percentage. Its hundredfold must be in range before it is divided. -/
def percentage (n : Int) : Except Fault String :=
  if isInRange 0 (n.natAbs * 100) then .ok (percentageText n) else .error .amountRange

end StakeSnapshot.Report
