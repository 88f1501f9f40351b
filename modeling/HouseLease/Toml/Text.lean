/-
  HouseLease.Toml.Text — strings, read in all four forms and written in the one that suits.

  A basic string has escapes, a literal string has none; either is on one line between
  single quotation marks or on several between triple ones. `Form.of` picks the form a text
  is written in, `Form.write` writes it.
-/

import HouseLease.Text.Digits
import HouseLease.Toml.Value

namespace HouseLease.Toml

open HouseLease.Text (takeHex? takeHex?_length scalar?)

/-! ## Reading -/

/-- The character an escape stands for, read after its backslash. -/
def escape? : Scan Char
  | [] => none
  | e :: r =>
    if e = '"' ∨ e = '\\' then some (e, r)
    else if e = 'b' then some ('\x08', r)
    else if e = 't' then some ('\t', r)
    else if e = 'n' then some ('\n', r)
    else if e = 'f' then some ('\x0c', r)
    else if e = 'r' then some ('\r', r)
    else if e = 'u' then (takeHex? 4 r).bind fun (n, r) => (scalar? n).map (·, r)
    else if e = 'U' then (takeHex? 8 r).bind fun (n, r) => (scalar? n).map (·, r)
    else none

/-- Skips blanks and line breaks. -/
def skipWhite : List Char → List Char
  | '\r' :: '\n' :: r => skipWhite r
  | c :: r => if c = '\n' ∨ isGap c then skipWhite r else c :: r
  | [] => []

/-- The rest after a line break that a backslash hides, with the white space around it. -/
def hiddenBreak? (cs : List Char) : Option (List Char) := (lineBreak? (skipGap cs)).map skipWhite

/-- How many quotation marks stand together, up to five. -/
def quoteRun (quote : Char) (cs : List Char) : Nat := ((cs.take 5).takeWhile (· = quote)).length

theorem escape?_length {cs rest : List Char} {c : Char} (h : escape? cs = some (c, rest)) :
    rest.length < cs.length := by
  cases cs with
  | nil => cases h
  | cons e r =>
    simp only [escape?] at h
    repeat' split at h
    all_goals first
      | (cases h; done)
      | (cases h; exact Nat.lt_succ_self _)
      | (obtain ⟨⟨n, r'⟩, h1, h⟩ := Option.bind_eq_some_iff.1 h
         obtain ⟨_, _, he⟩ := Option.map_eq_some_iff.1 h
         cases he
         exact Nat.lt_succ_of_le (takeHex?_length h1))

theorem skipWhite_length (cs : List Char) : (skipWhite cs).length ≤ cs.length := by
  fun_induction skipWhite cs with
  | case1 r ih => simp only [List.length_cons]; omega
  | case2 c r _ _ ih => simp only [List.length_cons]; omega
  | case3 => simp
  | case4 => simp

theorem lineBreak?_length {cs rest : List Char} (h : lineBreak? cs = some rest) : rest.length < cs.length := by
  unfold lineBreak? at h
  split at h
  · cases h; simp
  · cases h; simp only [List.length_cons]; omega
  · cases h

theorem hiddenBreak?_length {cs rest : List Char} (h : hiddenBreak? cs = some rest) : rest.length < cs.length := by
  obtain ⟨r, h1, rfl⟩ := Option.map_eq_some_iff.1 h
  have := lineBreak?_length h1
  have := skipWhite_length r
  have : (skipGap cs).length ≤ cs.length := (List.dropWhile_suffix _).length_le
  omega

/-- The text up to the closing quotation marks, and the rest after them; `lines` for a string on several lines. -/
def body? (quote : Char) (lines : Bool) : Scan (List Char)
  | [] => none
  | c :: r =>
    if c = quote then
      if !lines then some ([], r)
      else if 3 ≤ quoteRun quote (c :: r) then
        some (List.replicate (quoteRun quote (c :: r) - 3) quote, (c :: r).drop (quoteRun quote (c :: r)))
      else (body? quote lines r).map fun (s, rest) => (c :: s, rest)
    else if c = '\\' ∧ quote = '"' then
      match _h : (if lines then hiddenBreak? r else none) with
      | some r' => body? quote lines r'
      | none =>
        match _h : escape? r with
        | some (e, r') => (body? quote lines r').map fun (s, rest) => (e :: s, rest)
        | none => none
    else if lines && c = '\n' then (body? quote lines r).map fun (s, rest) => ('\n' :: s, rest)
    else if lines && c = '\r' then
      match r with
      | '\n' :: r' => (body? quote lines r').map fun (s, rest) => ('\n' :: s, rest)
      | _ => none
    else if isPlain c then (body? quote lines r).map fun (s, rest) => (c :: s, rest)
    else none
termination_by cs => cs.length
decreasing_by
  all_goals simp only [List.length_cons]
  case _ => omega
  case _ =>
    split at _h
    · have := hiddenBreak?_length _h; omega
    · cases _h
  case _ => have := escape?_length _h; omega
  case _ => omega
  case _ => omega
  case _ => omega

/-- The first line break after opening marks is no part of the text. -/
def dropBreak (cs : List Char) : List Char := (lineBreak? cs).getD cs

/-- The string after its first quotation mark. -/
def quoted? (quote : Char) : Scan String
  | a :: b :: r =>
    if a = quote ∧ b = quote then (body? quote true (dropBreak r)).map fun (s, rest) => (String.ofList s, rest)
    else (body? quote false (a :: b :: r)).map fun (s, rest) => (String.ofList s, rest)
  | cs => (body? quote false cs).map fun (s, rest) => (String.ofList s, rest)

/-! ## Writing -/

/-- Holds a control character that only an escape can stand for. -/
def needsEscape (cs : List Char) : Bool := cs.any fun c => !isPlain c && c != '\n'

/-- The most `quote`s that stand together. -/
def longestRun (quote : Char) (cs : List Char) : Nat := go 0 0 cs
where
  go (run longest : Nat) : List Char → Nat
    | [] => max run longest
    | c :: r => if c = quote then go (run + 1) longest r else go 0 (max run longest) r

/-- An escape where a basic string on one line has to have one. -/
def escapeChar (c : Char) : List Char :=
  if c = '"' then ['\\', '"']
  else if c = '\\' then ['\\', '\\']
  else if c = '\x08' then ['\\', 'b']
  else if c = '\t' then ['\\', 't']
  else if c = '\n' then ['\\', 'n']
  else if c = '\x0c' then ['\\', 'f']
  else if c = '\r' then ['\\', 'r']
  else if isPlain c then [c]
  else ['\\', 'u', '0', '0', Nat.digitChar (c.toNat / 16), (Nat.digitChar (c.toNat % 16)).toUpper]

/-- On several lines line breaks stand for themselves, and so do two quotation marks in a row;
    `run` counts those before. -/
def escapeLines (run : Nat) : List Char → List Char
  | [] => []
  | '"' :: r => if run < 2 then '"' :: escapeLines (run + 1) r else '\\' :: '"' :: escapeLines 0 r
  | '\n' :: r => '\n' :: escapeLines 0 r
  | c :: r => escapeChar c ++ escapeLines 0 r

def tripled (quote : Char) : List Char := [quote, quote, quote]

/-- The four ways to write a string. -/
inductive Form where
  | basic
  | literal
  | basicLines
  | literalLines
  deriving DecidableEq, Repr

/-- The first form in which a text needs no escape but for tabs; without one, a basic string. -/
def Form.of (cs : List Char) : Form :=
  let breaks := cs.contains '\n'
  let backslash := cs.contains '\\'
  if needsEscape cs then (if breaks then .basicLines else .basic)
  else if !backslash && longestRun '"' cs = 0 && !breaks then .basic
  else if longestRun '\'' cs = 0 && !breaks then .literal
  else if !backslash && longestRun '"' cs ≤ 2 then .basicLines
  else if longestRun '\'' cs ≤ 2 then .literalLines
  else if breaks then .basicLines
  else .basic

/-- Marks that open a string on several lines; its text begins on the next line if it has a line break itself. -/
def opening (quote : Char) (cs : List Char) : List Char :=
  if cs.contains '\n' then tripled quote ++ ['\n'] else tripled quote

def Form.write (cs : List Char) : Form → List Char
  | .basic => '"' :: cs.flatMap escapeChar ++ ['"']
  | .literal => '\'' :: cs ++ ['\'']
  | .basicLines => opening '"' cs ++ escapeLines 0 cs ++ tripled '"'
  | .literalLines => opening '\'' cs ++ cs ++ tripled '\''

/-- `s` as a TOML string. -/
def stringText (s : String) : List Char := (Form.of s.toList).write s.toList

end HouseLease.Toml
