/-
  HouseLease.Record.HouseList — the text of a list of leases in a stored record: a JSON array
  of pairs, a house id and the second its fees run out.

  A text is read in two steps, into tokens and from tokens into leases; both are strict. A
  text of blanks alone is the empty list. `write` puts no blanks and escapes quotes,
  backslashes and control characters only.
-/

import HouseLease.Checked
import HouseLease.Record.Holdings
import HouseLease.Text.Blank
import HouseLease.Text.Digits

namespace HouseLease.HouseList

/-! ## Writing -/

/-- The letter after the backslash for control characters that have one. -/
def shortEscape? (c : Char) : Option Char :=
  if c = '\x08' then some 'b'
  else if c = '\x0c' then some 'f'
  else if c = '\n' then some 'n'
  else if c = '\r' then some 'r'
  else if c = '\t' then some 't'
  else none

def escapeChar (c : Char) : List Char :=
  if c = '"' then ['\\', '"']
  else if c = '\\' then ['\\', '\\']
  else match shortEscape? c with
    | some e => ['\\', e]
    | none =>
      if c.toNat < 0x20 then ['\\', 'u', '0', '0', Nat.digitChar (c.toNat / 16), Nat.digitChar (c.toNat % 16)] else [c]

def quote (s : String) : List Char := '"' :: s.toList.flatMap escapeChar ++ ['"']

def pairText (l : Lease) : List Char := '[' :: quote l.house ++ ',' :: Text.intText l.paidUntil.toInt ++ [']']

/-- The leases after the first, each with a comma before it, and the closing bracket. -/
def tailText : List Lease → List Char
  | [] => [']']
  | l :: ls => ',' :: pairText l ++ tailText ls

def listText : List Lease → List Char
  | [] => ['[', ']']
  | l :: ls => '[' :: pairText l ++ tailText ls

def write (ls : List Lease) : String := String.ofList (listText ls)

/-! ## Tokens -/

inductive Token where
  | opening
  | closing
  | comma
  | text (s : String)
  | number (n : Int)
  deriving DecidableEq, Repr

/-- The character of a `\u` escape, two of which make one above U+FFFF. -/
def unicode? (cs : List Char) : Option (Char × List Char) := do
  let (hi, r) ← Text.takeHex? 4 cs
  if 0xD800 ≤ hi ∧ hi ≤ 0xDBFF then
    match r with
    | '\\' :: 'u' :: r =>
      let (lo, r) ← Text.takeHex? 4 r
      if 0xDC00 ≤ lo ∧ lo ≤ 0xDFFF then
        (Text.scalar? (0x10000 + (hi - 0xD800) * 0x400 + (lo - 0xDC00))).map (·, r)
      else none
    | _ => none
  else (Text.scalar? hi).map (·, r)

/-- The character an escape stands for, read after its backslash. -/
def escape? : List Char → Option (Char × List Char)
  | [] => none
  | e :: r =>
    if e = '"' ∨ e = '\\' ∨ e = '/' then some (e, r)
    else if e = 'b' then some ('\x08', r)
    else if e = 'f' then some ('\x0c', r)
    else if e = 'n' then some ('\n', r)
    else if e = 'r' then some ('\r', r)
    else if e = 't' then some ('\t', r)
    else if e = 'u' then unicode? r
    else none

theorem unicode?_length {cs rest : List Char} {c : Char} (h : unicode? cs = some (c, rest)) :
    rest.length ≤ cs.length := by
  simp only [unicode?, Option.bind_eq_bind, Option.bind_eq_some_iff] at h
  obtain ⟨⟨hi, r⟩, h1, h⟩ := h
  have l1 := Text.takeHex?_length h1
  simp only at h
  split at h
  · split at h
    · obtain ⟨⟨lo, r'⟩, h2, h⟩ := Option.bind_eq_some_iff.1 h
      have l2 := Text.takeHex?_length h2
      simp only at h
      split at h
      · obtain ⟨_, _, he⟩ := Option.map_eq_some_iff.1 h
        cases he
        simp only [List.length_cons] at l1
        omega
      · cases h
    · cases h
  · obtain ⟨_, _, he⟩ := Option.map_eq_some_iff.1 h
    cases he
    exact l1

theorem escape?_length {cs rest : List Char} {c : Char} (h : escape? cs = some (c, rest)) :
    rest.length < cs.length := by
  cases cs with
  | nil => cases h
  | cons e r =>
    simp only [escape?] at h
    repeat' split at h
    all_goals first
      | (cases h; done)
      | (cases h; exact Nat.lt_succ_self _)
      | exact Nat.lt_succ_of_le (unicode?_length h)

/-- The rest of a text after its opening quote, and what follows the closing one. -/
def body? : List Char → Option (List Char × List Char)
  | [] => none
  | c :: r =>
    if c = '"' then some ([], r)
    else if c = '\\' then
      match _h : escape? r with
      | some (e, r') => (body? r').map fun (s, rest) => (e :: s, rest)
      | none => none
    else if c.toNat < 0x20 then none
    else (body? r).map fun (s, rest) => (c :: s, rest)
termination_by cs => cs.length
decreasing_by
  · have := escape?_length _h
    simp only [List.length_cons]
    omega
  · simp

theorem body?_length {cs s rest : List Char} (h : body? cs = some (s, rest)) : rest.length < cs.length := by
  fun_induction body? cs generalizing s rest with
  | case1 => cases h
  | case2 => cases h; simp
  | case3 r e r' he _ ih =>
    obtain ⟨⟨s', rest'⟩, h1, h2⟩ := Option.map_eq_some_iff.1 h
    cases h2
    have := ih h1
    have := escape?_length he
    simp only [List.length_cons]
    omega
  | case4 => cases h
  | case5 => cases h
  | case6 c r _ _ _ ih =>
    obtain ⟨⟨s', rest'⟩, h1, h2⟩ := Option.map_eq_some_iff.1 h
    cases h2
    have := ih h1
    simp only [List.length_cons]
    omega

/-- Digits without a needless zero in front. -/
def plainDigits (ds : List Char) : Bool :=
  match ds with
  | [] => false
  | '0' :: more => more.isEmpty
  | _ => true

/-- A number in digits, `-0` being none. -/
def number? (negative : Bool) (ds : List Char) : Option Int :=
  if plainDigits ds then
    if negative then (if ds = ['0'] then none else some (-(Text.ofDigits ds : Int))) else some (Text.ofDigits ds)
  else none

def isSpace (c : Char) : Bool := c = ' ' || c = '\n' || c = '\r' || c = '\t'

theorem spanDigits_length (cs : List Char) : (Text.spanDigits cs).2.length ≤ cs.length :=
  (List.dropWhile_suffix _).length_le

def tokens? : List Char → Option (List Token)
  | [] => some []
  | c :: r =>
    if isSpace c then tokens? r
    else if c = '[' then (tokens? r).map (.opening :: ·)
    else if c = ']' then (tokens? r).map (.closing :: ·)
    else if c = ',' then (tokens? r).map (.comma :: ·)
    else if c = '"' then
      match _h : body? r with
      | some (s, rest) => (tokens? rest).map (.text (String.ofList s) :: ·)
      | none => none
    else if c = '-' then do
      let n ← number? true (Text.spanDigits r).1
      (tokens? (Text.spanDigits r).2).map (.number n :: ·)
    else if c.isDigit then do
      let n ← number? false (c :: (Text.spanDigits r).1)
      (tokens? (Text.spanDigits r).2).map (.number n :: ·)
    else none
termination_by cs => cs.length
decreasing_by
  all_goals simp only [List.length_cons]
  case _ => omega
  case _ => omega
  case _ => omega
  case _ => omega
  case _ => have := body?_length _h; omega
  case _ => have := spanDigits_length r; omega
  case _ => have := spanDigits_length r; omega

/-! ## From tokens to leases -/

/-- The pairs after the opening bracket of a list that is not empty. -/
def rows? : List Token → Option (List Lease)
  | .opening :: .text house :: .comma :: .number n :: .closing :: rest =>
    match int64? n, rest with
    | some paidUntil, [.closing] => some [⟨house, paidUntil⟩]
    | some paidUntil, .comma :: more => (rows? more).map (⟨house, paidUntil⟩ :: ·)
    | _, _ => none
  | _ => none

def ofTokens? : List Token → Option (List Lease)
  | [.opening, .closing] => some []
  | .opening :: rest => rows? rest
  | _ => none

def read? (s : String) : Option (List Lease) :=
  if Text.allBlank s then some [] else (tokens? s.toList).bind ofTokens?

end HouseLease.HouseList
