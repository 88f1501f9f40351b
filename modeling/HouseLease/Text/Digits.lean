/-
  HouseLease.Text.Digits — numbers as decimal and hexadecimal text.

  Decimal numbers are written by `Nat.toDigits 10` and read back by `Nat.ofDigitChars 10`;
  `padded` fills up with zeros on the left. A hexadecimal digit may have either case.
-/

namespace HouseLease.Text

def digits (n : Nat) : List Char := Nat.toDigits 10 n

/-- The value of a list of decimal digits; what is no digit is not meant to be in it. -/
def ofDigits (cs : List Char) : Nat := Nat.ofDigitChars 10 cs 0

/-- At least `width` digits. -/
def padded (width n : Nat) : List Char := (digits n).leftpad width '0'

def intText (n : Int) : List Char :=
  match n with
  | .ofNat k => digits k
  | .negSucc k => '-' :: digits (k + 1)

def numeral (n : Int) : String := String.ofList (intText n)

theorem ofDigits_digits (n : Nat) : ofDigits (digits n) = n := Nat.ofDigitChars_ten_toDigits

/-- The leading digits of a text, and the rest. -/
def spanDigits (cs : List Char) : List Char × List Char := (cs.takeWhile Char.isDigit, cs.dropWhile Char.isDigit)

def hexValue? (c : Char) : Option Nat :=
  if c.isDigit then some (c.toNat - '0'.toNat)
  else if 'a' ≤ c ∧ c ≤ 'f' then some (c.toNat - 'a'.toNat + 10)
  else if 'A' ≤ c ∧ c ≤ 'F' then some (c.toNat - 'A'.toNat + 10)
  else none

/-- The value of a text of hexadecimal digits. -/
def ofHex? (cs : List Char) : Option Nat :=
  cs.foldlM (fun n c => (hexValue? c).map (16 * n + ·)) 0

/-- The first `n` characters as a hexadecimal number, and the rest. -/
def takeHex? (n : Nat) (cs : List Char) : Option (Nat × List Char) :=
  if n ≤ cs.length then (ofHex? (cs.take n)).map (·, cs.drop n) else none

/-- The character with code point `n`; surrogates and numbers above 0x10FFFF have none. -/
def scalar? (n : Nat) : Option Char :=
  if h : n.isValidChar then some (Char.ofNatAux n h) else none

theorem takeHex?_length {n k : Nat} {cs rest : List Char} (h : takeHex? n cs = some (k, rest)) :
    rest.length ≤ cs.length := by
  simp only [takeHex?] at h
  split at h
  · obtain ⟨_, _, he⟩ := Option.map_eq_some_iff.1 h
    cases he
    simp
  · cases h

end HouseLease.Text
