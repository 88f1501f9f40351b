/-
  HouseLease.Toml.Number — numbers and dates.

  Digits may be grouped by single underscores. An integer is decimal with an optional sign,
  or hexadecimal, octal or binary without one, and has to fit 64 bits. A float has a
  fraction or an exponent, or is `inf` or `nan`; a positive one too large for a
  double-precision float is refused. Dates, times and both together are recognised.
-/

import HouseLease.Calendar.Date
import HouseLease.Text.Digits
import HouseLease.Toml.Value

namespace HouseLease.Toml

/-! ## Integers -/

/-- Digits after the first: each may have an underscore before it. -/
def moreDigits (ok : Char → Bool) : List Char → List Char × List Char
  | '_' :: c :: r => if ok c then (c :: (moreDigits ok r).1, (moreDigits ok r).2) else ([], '_' :: c :: r)
  | c :: r => if ok c then (c :: (moreDigits ok r).1, (moreDigits ok r).2) else ([], c :: r)
  | [] => ([], [])

def digitRun? (ok : Char → Bool) : Scan (List Char)
  | [] => none
  | c :: r => if ok c then some (c :: (moreDigits ok r).1, (moreDigits ok r).2) else none

/-- An optional sign; whether it is a minus. -/
def sign : List Char → Bool × List Char
  | '-' :: r => (true, r)
  | '+' :: r => (false, r)
  | cs => (false, cs)

/-- Decimal digits without a needless zero in front. -/
def decimalRun? : Scan (List Char)
  | '0' :: r => some (['0'], r)
  | cs => digitRun? Char.isDigit cs

def signed (negative : Bool) (n : Nat) : Int := if negative then -(n : Int) else n

def decimal? (cs : List Char) : Option (Value × List Char) := do
  let (ds, r) ← decimalRun? (sign cs).2
  let n ← int64? (signed (sign cs).1 (Text.ofDigits ds))
  some (.integer n, r)

/-- The value of digits in a base up to sixteen. -/
def ofBase (base : Nat) (ds : List Char) : Nat :=
  ds.foldl (fun n c => base * n + (Text.hexValue? c).getD 0) 0

def isHex (c : Char) : Bool := (Text.hexValue? c).isSome
def isOctal (c : Char) : Bool := '0' ≤ c && c ≤ '7'
def isBinary (c : Char) : Bool := c = '0' || c = '1'

def based? (base : Nat) (ok : Char → Bool) (cs : List Char) : Option (Value × List Char) := do
  let (ds, r) ← digitRun? ok cs
  let n ← int64? (ofBase base ds)
  some (.integer n, r)

def integer? : Scan Value
  | '0' :: 'x' :: r => based? 16 isHex r
  | '0' :: 'o' :: r => based? 8 isOctal r
  | '0' :: 'b' :: r => based? 2 isBinary r
  | cs => decimal? cs

/-! ## Floats -/

/-- From here on a decimal number rounds to no finite double. -/
def doubleLimit : Nat := Nat.pow 2 1024 - Nat.pow 2 970

/-- Whether `digits` times ten to the power `exponent` is `doubleLimit` or more. The sizes are
    compared first, so that no huge power is computed. -/
def exceedsDouble (digits : List Char) (exponent : Int) : Bool :=
  let digits := digits.dropWhile (· = '0')
  let size := digits.length + exponent
  if digits.isEmpty || size ≤ 308 then false
  else if 310 ≤ size then true
  else if 0 ≤ exponent then doubleLimit ≤ Text.ofDigits digits * Nat.pow 10 exponent.toNat
  else doubleLimit * Nat.pow 10 (-exponent).toNat ≤ Text.ofDigits digits

def exponent? : Scan Int
  | c :: r =>
    if c = 'e' || c = 'E' then
      (digitRun? Char.isDigit (sign r).2).map fun (ds, rest) => (signed (sign r).1 (Text.ofDigits ds), rest)
    else none
  | [] => none

def fraction? : Scan (List Char)
  | '.' :: r => digitRun? Char.isDigit r
  | _ => none

def finite? (cs : List Char) : Option (Value × List Char) := do
  let (whole, r) ← decimalRun? (sign cs).2
  let (part, exponent, rest) ←
    match fraction? r with
    | some (part, r) =>
      match exponent? r with
      | some (e, r) => some (part, e, r)
      | none => some (part, 0, r)
    | none => (exponent? r).map fun (e, r) => ([], e, r)
  if !(sign cs).1 && exceedsDouble (whole ++ part) (exponent - part.length) then none else some (.float, rest)

def special? (cs : List Char) : Option (Value × List Char) :=
  ((word? "inf" cs).orElse fun _ => word? "nan" cs).map (.float, ·)

def float? (cs : List Char) : Option (Value × List Char) :=
  (finite? cs).orElse fun _ => special? (sign cs).2

/-! ## Dates -/

/-- Exactly `n` digits. -/
def fixedDigits? (n : Nat) (cs : List Char) : Option (Nat × List Char) :=
  if (cs.take n).length = n ∧ (cs.take n).all Char.isDigit then some (Text.ofDigits (cs.take n), cs.drop n) else none

/-- `mark`, and then exactly two digits. -/
def marked? (mark : Char) : Scan Nat
  | c :: r => if c = mark then fixedDigits? 2 r else none
  | [] => none

def day? (cs : List Char) : Option (List Char) := do
  let (year, r) ← fixedDigits? 4 cs
  let (month, r) ← marked? '-' r
  let (day, r) ← marked? '-' r
  if (Date.mk year month day).isValid then some r else none

def time? (cs : List Char) : Option (List Char) := do
  let (hour, r) ← fixedDigits? 2 cs
  let (minute, r) ← marked? ':' r
  let (second, r) ← marked? ':' r
  if hour ≤ 23 ∧ minute ≤ 59 ∧ second ≤ 60 then
    match r with
    | '.' :: r => if (Text.spanDigits r).1.isEmpty then none else some (Text.spanDigits r).2
    | r => some r
  else none

/-- An offset from UTC, if there is one. -/
def zone (cs : List Char) : List Char :=
  match cs with
  | c :: r =>
    if c = 'Z' || c = 'z' then r
    else if c = '+' || c = '-' then
      match (do
        let (hour, r) ← fixedDigits? 2 r
        let (minute, r) ← marked? ':' r
        if hour ≤ 23 ∧ minute ≤ 59 then some r else none) with
      | some rest => rest
      | none => cs
    else cs
  | [] => cs

/-- The time after a day, if there is one. -/
def timeOfDay (cs : List Char) : List Char :=
  match cs with
  | c :: r => if c = 'T' || c = 't' || c = ' ' then ((time? r).map zone).getD cs else cs
  | [] => cs

def date? (cs : List Char) : Option (Value × List Char) :=
  (((day? cs).map timeOfDay).orElse fun _ => time? cs).map (.date, ·)

def number? (cs : List Char) : Option (Value × List Char) :=
  ((date? cs).orElse fun _ => float? cs).orElse fun _ => integer? cs

end HouseLease.Toml
