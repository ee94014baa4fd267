import StakeSnapshot.Fault

/-!
# Dates and times

The date and time of day of a number of seconds since the start of 1970, by the Gregorian calendar,
for the years from 1 to 9999.
-/

namespace StakeSnapshot.Report

/-- A day of the calendar. -/
structure CalendarDay where
  year : Int
  month : Nat
  day : Nat
  deriving DecidableEq

/-- The day that is a number of days after the first of January 1970. Years are counted from March
here, so that a leap day is the last one; 400 years have 146097 days. -/
def CalendarDay.ofDays (days : Int) : CalendarDay :=
  let shifted := days + 719468
  let era := shifted.fdiv 146097
  let dayOfEra := (shifted.fmod 146097).toNat
  let yearOfEra := (dayOfEra - dayOfEra / 1460 + dayOfEra / 36524 - dayOfEra / 146096) / 365
  let dayOfYear := dayOfEra - (365 * yearOfEra + yearOfEra / 4 - yearOfEra / 100)
  let marchMonth := (5 * dayOfYear + 2) / 153
  let month := if marchMonth < 10 then marchMonth + 3 else marchMonth - 9
  { year := yearOfEra + era * 400 + (if month ≤ 2 then 1 else 0)
    month
    day := dayOfYear - (153 * marchMonth + 2) / 5 + 1 }

/-- A number of at least two digits. -/
def twoDigits (n : Nat) : List Char := Number.zeroPadded 2 (Number.digits n)

/-- The bound of times, in seconds. -/
def timeLimit : Int := Int.pow 2 63

/-- The bound of years, counted from 1900. -/
def yearLimit : Int := Int.pow 2 31

/-- The date and time of day at a number of seconds since the start of 1970. -/
def dateTime (seconds : Int) : Except Fault (List Char) :=
  if seconds < -timeLimit ∨ timeLimit ≤ seconds then .error .timeRange
  else
    let date := CalendarDay.ofDays (seconds.fdiv 86400)
    let inDay := (seconds.fmod 86400).toNat
    let sinceLimit := date.year - 1900
    if sinceLimit < -yearLimit ∨ yearLimit ≤ sinceLimit then .error .calendarRange
    else if date.year < 1 ∨ 9999 < date.year then .error (.yearRange (date.year.bmod (Nat.pow 2 32)))
    else
      .ok (Number.intText date.year ++ '-' :: twoDigits date.month ++ '-' :: twoDigits date.day
        ++ ' ' :: twoDigits (inDay / 3600) ++ ':' :: twoDigits (inDay % 3600 / 60)
        ++ ':' :: twoDigits (inDay % 60) ++ " UTC".toList)

end StakeSnapshot.Report
