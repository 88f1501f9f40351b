/-
  HouseLease.Toml.Reader — from text to statements.

  Values nest at most `nestingLimit` deep and a dotted key has fewer keys than that. Every
  loop goes on only where a step has made the text shorter.
-/

import HouseLease.Toml.Number
import HouseLease.Toml.Table
import HouseLease.Toml.Text

namespace HouseLease.Toml

def nestingLimit : Nat := 80

/-! ## Keys -/

def isBare (c : Char) : Bool := c.isAlphanum || c = '-' || c = '_'

def key? : Scan String
  | '"' :: r => (body? '"' false r).map fun (s, rest) => (String.ofList s, rest)
  | '\'' :: r => (body? '\'' false r).map fun (s, rest) => (String.ofList s, rest)
  | cs =>
    if (cs.takeWhile isBare).isEmpty then none
    else some (String.ofList (cs.takeWhile isBare), cs.dropWhile isBare)

/-- Keys joined by dots, with blanks around them. -/
def keys? (cs : List Char) : Option (List String × List Char) := do
  let (key, r) ← key? (skipGap cs)
  match skipGap r with
  | '.' :: rest =>
    if rest.length < cs.length then (keys? rest).map fun (keys, rest) => (key :: keys, rest) else none
  | rest => some ([key], rest)
termination_by cs.length

def path? (cs : List Char) : Option (Path × List Char) := do
  let (keys, r) ← keys? cs
  let key ← keys.getLast?
  if keys.length < nestingLimit then some (⟨keys.dropLast, key⟩, r) else none

/-! ## Values -/

/-- Skips blanks, line breaks and comments between the items of an array; `comment` within a
    comment, which ends with its line. -/
def skipItems (comment : Bool) : List Char → Option (List Char)
  | [] => if comment then none else some []
  | '\n' :: r => skipItems false r
  | '\r' :: '\n' :: r => skipItems false r
  | c :: r =>
    if comment then (if isPlain c then skipItems true r else none)
    else if isGap c then skipItems false r
    else if c = '#' then skipItems true r
    else some (c :: r)

/-- The items of an array after its opening bracket, a comma after the last being allowed. -/
def items? (read : Scan Value) (cs : List Char) : Option (List Value × List Char) := do
  match ← skipItems false cs with
  | ']' :: r => some ([], r)
  | first =>
    let (v, r) ← read first
    match ← skipItems false r with
    | ']' :: r => some ([v], r)
    | ',' :: r =>
      if r.length < cs.length then (items? read r).map fun (vs, rest) => (v :: vs, rest) else none
    | _ => none
termination_by cs.length

/-- The pairs of a table in braces, of which there is one at least. -/
def pairs? (read : Scan Value) (cs : List Char) : Option (List (Path × Value) × List Char) := do
  let (path, r) ← path? cs
  match r with
  | '=' :: r =>
    let (v, r) ← read (skipGap r)
    match skipGap r with
    | '}' :: r => some ([(path, v)], r)
    | ',' :: r =>
      if r.length < cs.length then (pairs? read r).map fun (ps, rest) => ((path, v) :: ps, rest) else none
    | _ => none
  | _ => none
termination_by cs.length

/-- A table after its opening brace. -/
def inlineTable? (read : Scan Value) (cs : List Char) : Option (Value × List Char) := do
  let (pairs, r) ← match skipGap cs with
    | '}' :: r => some ([], r)
    | _ => pairs? read cs
  let es ← assignAll [] pairs
  some (.table .inline es, r)

def constant? (cs : List Char) : Option (Value × List Char) :=
  (((word? "true" cs).map (Value.boolean true, ·)).orElse fun _ =>
    (word? "false" cs).map (Value.boolean false, ·)).orElse fun _ => special? cs

/-- A value with at most `depth` brackets and braces around each other. -/
def value? : Nat → Scan Value
  | _, [] => none
  | depth, c :: r =>
    if c = '"' ∨ c = '\'' then (quoted? c r).map fun (s, rest) => (.text s, rest)
    else if c = '[' then
      match depth with
      | 0 => none
      | depth + 1 => (items? (value? depth) r).map fun (vs, rest) => (.array vs, rest)
    else if c = '{' then
      match depth with
      | 0 => none
      | depth + 1 => inlineTable? (value? depth) r
    else if c.isDigit ∨ c = '+' ∨ c = '-' then number? (c :: r)
    else constant? (c :: r)

/-! ## Statements -/

/-- The rest after the end of a line, a comment before it being skipped; the text may end with it. -/
def lineEnd? (cs : List Char) : Option (List Char) :=
  let r := match skipGap cs with
    | '#' :: r => r.dropWhile isPlain
    | r => r
  if r.isEmpty then some [] else lineBreak? r

def assignment? (cs : List Char) : Option (Statement × List Char) := do
  let (path, r) ← path? cs
  match r with
  | '=' :: r =>
    let (v, r) ← value? (nestingLimit - 1) (skipGap r)
    some (.assign path v, r)
  | _ => none

def statement? : Scan Statement
  | '[' :: '[' :: r => do
    let (path, r) ← path? r
    match r with
    | ']' :: ']' :: r => some (.arrayHeader path, r)
    | _ => none
  | '[' :: r => do
    let (path, r) ← path? r
    match r with
    | ']' :: r => some (.header path, r)
    | _ => none
  | cs => assignment? cs

/-- All statements of a text, each on a line of its own. -/
def statements? (cs : List Char) : Option (List Statement) :=
  match skipGap cs with
  | [] => some []
  | c :: r => do
    if c = '#' ∨ c = '\n' ∨ c = '\r' then
      let rest ← lineEnd? (c :: r)
      if rest.length < cs.length then statements? rest else none
    else
      let (s, r) ← statement? (c :: r)
      let rest ← lineEnd? r
      if rest.length < cs.length then (statements? rest).map (s :: ·) else none
termination_by cs.length

/-- A byte order mark in front is skipped. -/
def dropMark : List Char → List Char
  | '\uFEFF' :: r => r
  | cs => cs

/-- The table that a text describes. -/
def read? (s : String) : Option Value :=
  ((statements? (dropMark s.toList)).bind document?).map (.table .header)

end HouseLease.Toml
