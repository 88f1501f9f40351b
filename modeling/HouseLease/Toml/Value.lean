/-
  HouseLease.Toml.Value — the values of a TOML document and the statements it is made of.

  Floats and dates are told apart from other values and not kept: no setting is one. A table
  knows how it came to be (`Origin`), which decides what may be added to it later.
-/

import HouseLease.Checked

namespace HouseLease.Toml

inductive Origin where
  /-- Written in braces: nothing is added later. -/
  | inline
  /-- Named by a header of its own, or the document itself. -/
  | header
  /-- On the way to a header's table. -/
  | implied
  /-- On the way to a dotted key. -/
  | dotted
  deriving DecidableEq, Repr

inductive Value where
  | text (s : String)
  | integer (n : Int64)
  | boolean (b : Bool)
  | float
  | date
  | array (items : List Value)
  | table (origin : Origin) (entries : List (String × Value))
  /-- An array of tables, one for each of its headers. -/
  | tables (elements : List (List (String × Value)))
  deriving Repr

abbrev Entries := List (String × Value)

/-- A dotted key: the keys on the way, and the last. -/
structure Path where
  parents : List String
  key : String
  deriving DecidableEq, Repr

/-- The path of a key alone. -/
def Path.of (key : String) : Path := ⟨[], key⟩

inductive Statement where
  | assign (path : Path) (value : Value)
  | header (path : Path)
  | arrayHeader (path : Path)
  deriving Repr

/-- A reader takes what it reads off the front of a text. -/
abbrev Scan (α : Type) := List Char → Option (α × List Char)

/-- Blanks within a line. -/
def isGap (c : Char) : Bool := c = ' ' || c = '\t'

def skipGap (cs : List Char) : List Char := cs.dropWhile isGap

/-- Characters that stand for themselves in strings and comments: no control character but the tab. -/
def isPlain (c : Char) : Bool := c = '\t' || (0x20 ≤ c.toNat && c.toNat != 0x7F)

/-- The rest after a line break. -/
def lineBreak? : List Char → Option (List Char)
  | '\n' :: r => some r
  | '\r' :: '\n' :: r => some r
  | _ => none

/-- The rest after a word. -/
def word? (w : String) (cs : List Char) : Option (List Char) := w.toList.isPrefixOf? cs

end HouseLease.Toml
