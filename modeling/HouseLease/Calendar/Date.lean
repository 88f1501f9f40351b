/-
  HouseLease.Calendar.Date — dates of the proleptic Gregorian calendar and day numbers,
  counted from 1970-01-01.

  `Date.dayNumber` counts years, months and days up to a date; `Date.ofDayNumber` peels off
  whole cycles of 400, 100, 4 and 1 years and then months. The last year of a cycle of four
  centuries, and of four years, takes the day its cycle has over.
-/

namespace HouseLease

structure Date where
  year : Int
  month : Nat
  day : Nat
  deriving DecidableEq, Repr

def isLeap (year : Int) : Bool := year % 4 == 0 && (year % 100 != 0 || year % 400 == 0)

def monthLengths (leap : Bool) : List Nat :=
  [31, if leap then 29 else 28, 31, 30, 31, 30, 31, 31, 30, 31, 30, 31]

def totalDays : List Nat → Nat
  | [] => 0
  | length :: lengths => length + totalDays lengths

/-- The day exists in the calendar. -/
def Date.isValid (d : Date) : Bool :=
  match (monthLengths (isLeap d.year))[d.month - 1]? with
  | some length => 1 ≤ d.month && 1 ≤ d.day && d.day ≤ length
  | none => false

/-- Days from 0001-01-01 to the first day of `year`. -/
def daysBeforeYear (year : Int) : Int :=
  365 * (year - 1) + (year - 1) / 4 - (year - 1) / 100 + (year - 1) / 400

/-- The day number of 0001-01-01 is `-epochOffset`. -/
def epochOffset : Int := 719162

def Date.dayNumber (d : Date) : Int :=
  daysBeforeYear d.year + totalDays ((monthLengths (isLeap d.year)).take (d.month - 1)) + (d.day - 1) - epochOffset

/-- How many of the lengths are used up before day `n` (from 0), and the day in the next one. -/
def splitMonths : List Nat → Nat → Nat × Nat
  | [], n => (0, n)
  | length :: lengths, n =>
    if n < length then (0, n) else ((splitMonths lengths (n - length)).1 + 1, (splitMonths lengths (n - length)).2)

/-- The year of a day counted from 0001-01-01, and the day in it, both from 0. -/
def splitYears (n : Int) : Int × Int :=
  let inCycle := n % 146097
  let century := min (inCycle / 36524) 3
  let inCentury := inCycle - 36524 * century
  let inFour := inCentury % 1461
  let year := min (inFour / 365) 3
  (400 * (n / 146097) + 100 * century + 4 * (inCentury / 1461) + year, inFour - 365 * year)

def Date.ofDayNumber (n : Int) : Date :=
  let (years, day) := splitYears (n + epochOffset)
  let (months, rest) := splitMonths (monthLengths (isLeap (years + 1))) day.toNat
  ⟨years + 1, months + 1, rest + 1⟩

end HouseLease
