/-
  HouseLease.Toml.Layout — documents as they are written: one line for a header or an
  assignment, and a blank line in front of every header but one that opens the document.

  `Line.statement` is what a line says, `Line.write` how it is written. All keys are bare.
-/

import HouseLease.Toml.Text

namespace HouseLease.Toml

inductive Line where
  | text (key value : String)
  | number (key : String) (value : Int64)
  | emptyArray (key : String)
  | header (path : Path)
  | arrayHeader (path : Path)
  deriving DecidableEq, Repr

def Path.write (p : Path) : List Char := p.parents.flatMap (fun k => k.toList ++ ['.']) ++ p.key.toList

namespace Line

def statement : Line → Statement
  | text key value => .assign (.of key) (.text value)
  | number key value => .assign (.of key) (.integer value)
  | emptyArray key => .assign (.of key) (.array [])
  | header path => .header path
  | arrayHeader path => .arrayHeader path

def assignment (key : String) (value : List Char) : List Char := key.toList ++ [' ', '=', ' '] ++ value

/-- The line without its end. -/
def write : Line → List Char
  | text key value => assignment key (stringText value)
  | number key value => assignment key (Text.intText value.toInt)
  | emptyArray key => assignment key ['[', ']']
  | header path => '[' :: path.write ++ [']']
  | arrayHeader path => '[' :: '[' :: path.write ++ [']', ']']

def isHeader : Line → Bool
  | header _ | arrayHeader _ => true
  | _ => false

/-- The line with its end, and with a blank line in front where one belongs. -/
def writeNext (l : Line) : List Char := (if l.isHeader then ['\n'] else []) ++ l.write ++ ['\n']

end Line

def writeLines : List Line → List Char
  | [] => []
  | first :: rest => first.write ++ '\n' :: rest.flatMap Line.writeNext

/-- The document of the lines. -/
def layout (lines : List Line) : String := String.ofList (writeLines lines)

end HouseLease.Toml
