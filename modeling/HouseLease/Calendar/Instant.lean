/-
  HouseLease.Calendar.Instant — moments in UTC and their texts.

  An instant is a second counted from 1970-01-01 00:00:00 and a fraction of it, within the
  years -262143 to 262142; a fraction of a whole second or more lies in a leap second.
  `expiryLabel` is the text a player reads, `Instant.recordText` the one kept in records
  (read back by `Instant.ofText?`), `Instant.logText` the one in front of log lines.
-/

import HouseLease.Calendar.Date
import HouseLease.Text.Digits

namespace HouseLease

def earliestSecond : Int := -8334601228800
def latestSecond : Int := 8210266876799

structure Instant where
  seconds : Int
  nanos : Nat
  seconds_range : earliestSecond ≤ seconds ∧ seconds ≤ latestSecond
  nanos_lt : nanos < 2000000000
  deriving DecidableEq

namespace Instant

def make? (seconds : Int) (nanos : Nat) : Option Instant :=
  if h : (earliestSecond ≤ seconds ∧ seconds ≤ latestSecond) ∧ nanos < 2000000000 then
    some ⟨seconds, nanos, h.1, h.2⟩
  else none

/-- What a machine's clock shows; it counts from 1970 on. -/
def ofClock? (seconds : Int) (nanos : Nat) : Option Instant := if seconds < 0 then none else make? seconds nanos

/-- The second as a timestamp, which has room for every instant's. -/
def timestamp (i : Instant) : Int64 := Int64.ofInt i.seconds

/-- 1970-01-01 00:00:00. -/
def epoch : Instant := ⟨0, 0, by decide, by decide⟩

def date (i : Instant) : Date := Date.ofDayNumber (i.seconds / 86400)

/-- Hour, minute and second; the second is 60 in a leap second. -/
def clock (i : Instant) : Nat × Nat × Nat :=
  let s := (i.seconds % 86400).toNat
  (s / 3600, s / 60 % 60, s % 60 + i.nanos / 1000000000)

end Instant

/-- Four digits or more, with a sign for years before 0 and after 9999. -/
def yearText (year : Int) : List Char :=
  if year < 0 then '-' :: Text.padded 4 year.natAbs
  else if 9999 < year then '+' :: Text.padded 4 year.natAbs
  else Text.padded 4 year.natAbs

def monthNames : List String :=
  ["January", "February", "March", "April", "May", "June", "July", "August", "September", "October",
    "November", "December"]

namespace Instant

def timeText (i : Instant) : List Char :=
  let (hour, minute, second) := i.clock
  Text.padded 2 hour ++ ':' :: Text.padded 2 minute ++ ':' :: Text.padded 2 second

/-- Date and time to the second, as in `2023-11-14T22:13:20`. -/
def secondText (i : Instant) : List Char :=
  yearText i.date.year ++ '-' :: Text.padded 2 i.date.month ++ '-' :: Text.padded 2 i.date.day ++ 'T' :: i.timeText

def logText (i : Instant) : String := String.ofList (i.secondText ++ ['Z'])

/-- The fraction of the second in as few groups of three digits as it needs. -/
def fractionText (i : Instant) : List Char :=
  let n := i.nanos % 1000000000
  if n = 0 then []
  else if n % 1000000 = 0 then '.' :: Text.padded 3 (n / 1000000)
  else if n % 1000 = 0 then '.' :: Text.padded 6 (n / 1000)
  else '.' :: Text.padded 9 n

def recordText (i : Instant) : String := String.ofList (i.secondText ++ i.fractionText ++ ['Z'])

/-- As in `24 November 2023 22:13:20 UTC`. -/
def label (i : Instant) : String :=
  String.ofList (Text.padded 2 i.date.day ++ ' ' :: (monthNames.getD (i.date.month - 1) "").toList ++
    ' ' :: yearText i.date.year ++ ' ' :: i.timeText ++ " UTC".toList)

end Instant

/-- The label of an expiry, if the calendar reaches it. -/
def expiryLabel (paidUntil : Int64) : Option String := (Instant.make? paidUntil.toInt 0).map Instant.label

end HouseLease
