/-
  HouseLease.Calendar.Reading — the date texts that stored records may hold.

  Year, month and day joined by `-`; `T`, `t` or a blank; hour, minute and second joined by
  `:`; an optional fraction; then `Z`, `UTC` or an offset of hours and minutes. Numbers need
  no leading zeros, blanks may stand around every part, a year beyond four digits or before
  0 takes a sign. The second may be 60, which is a leap second.
-/

import HouseLease.Calendar.Instant
import HouseLease.Text.Blank

namespace HouseLease.Instant

open Text (skipBlanks)

/-- A number of at most `width` digits after blanks. -/
def number? (width : Nat) (cs : List Char) : Option (Nat × List Char) :=
  let cs := skipBlanks cs
  let ds := (cs.take width).takeWhile Char.isDigit
  if ds.isEmpty then none else some (Text.ofDigits ds, cs.drop ds.length)

/-- `mark` after blanks. -/
def mark? (mark : Char) (cs : List Char) : Option (List Char) :=
  match skipBlanks cs with
  | c :: r => if c = mark then some r else none
  | [] => none

/-- Four digits at most without a sign, any number of them with one. -/
def year? (cs : List Char) : Option (Int × List Char) :=
  match skipBlanks cs with
  | c :: r =>
    if c = '-' then (signed r).map fun (n, r) => (-(n : Int), r)
    else if c = '+' then (signed r).map fun (n, r) => ((n : Int), r)
    else (number? 4 (c :: r)).map fun (n, r) => ((n : Int), r)
  | [] => none
where
  signed (cs : List Char) : Option (Nat × List Char) :=
    let (ds, r) := Text.spanDigits cs
    if ds.isEmpty then none else some (Text.ofDigits ds, r)

/-- Billionths of a second after a point; digits past the ninth are dropped. -/
def fraction? : List Char → Option (Nat × List Char)
  | '.' :: r =>
    let (ds, r) := Text.spanDigits r
    if ds.isEmpty then none else some (Text.ofDigits ((ds.take 9).rightpad 9 '0'), r)
  | cs => some (0, cs)

/-- Two digits. -/
def pair? : List Char → Option (Nat × List Char)
  | a :: b :: r => if a.isDigit && b.isDigit then some (Text.ofDigits [a, b], r) else none
  | _ => none

/-- The offset from UTC in seconds. -/
def zone? (cs : List Char) : Option (Int × List Char) :=
  match cs with
  | [] => none
  | c :: r =>
    if c.toLower = 'z' then some (0, r)
    else if (cs.take 3).map Char.toLower = ['u', 't', 'c'] then some (0, cs.drop 3)
    else if c = '+' then offset r
    else if c = '-' || c = '\u2212' then (offset r).map fun (n, r) => (-n, r)
    else none
where
  offset (cs : List Char) : Option (Int × List Char) := do
    let (hours, r) ← pair? cs
    let (minutes, r) ← pair? (r.dropWhile fun c => c = ':' || Text.isBlank c)
    if minutes ≤ 59 then some (((hours * 3600 + minutes * 60 : Nat) : Int), r) else none

/-- Whether dates of the year are representable. -/
def yearInRange (year : Int) : Bool := -262143 ≤ year && year ≤ 262142

/-- The instant of a date and time read, `offset` seconds ahead of UTC. -/
def ofParts? (d : Date) (hour minute second nanos : Nat) (offset : Int) : Option Instant :=
  if d.isValid && yearInRange d.year && hour ≤ 23 && minute ≤ 59 && second ≤ 60 && -86400 < offset
      && offset < 86400 then
    make? (d.dayNumber * 86400 + (hour * 3600 + minute * 60 + min second 59 : Nat) - offset)
      (if second = 60 then nanos + 1000000000 else nanos)
  else none

def ofChars? (cs : List Char) : Option Instant := do
  let (year, r) ← year? cs
  let r ← mark? '-' r
  let (month, r) ← number? 2 r
  let r ← mark? '-' r
  let (day, r) ← number? 2 r
  let r ← match r with
    | c :: r => if c = 'T' || c = 't' || c = ' ' then some r else none
    | [] => none
  let (hour, r) ← number? 2 r
  let r ← mark? ':' r
  let (minute, r) ← number? 2 r
  let r ← mark? ':' r
  let (second, r) ← number? 2 r
  let (nanos, r) ← fraction? r
  let (offset, r) ← zone? (skipBlanks r)
  if (skipBlanks r).isEmpty then ofParts? ⟨year, month, day⟩ hour minute second nanos offset else none

def ofText? (s : String) : Option Instant := ofChars? s.toList

end HouseLease.Instant
