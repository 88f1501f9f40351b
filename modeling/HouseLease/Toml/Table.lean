/-
  HouseLease.Toml.Table — how assignments and headers build up tables, and which of them are
  refused.

  A dotted key may add to tables that dotted keys or headers below them brought about, never
  to a table with a header of its own, and it ends in a table of dotted keys (`assign`). A
  header's table is new or was only implied so far; an array header adds an element
  (`addSection`). The way to a header leads through the last element of an array of tables.
-/

import HouseLease.Toml.Value

namespace HouseLease.Toml

/-- The value under `key` replaced, in its place. -/
def replaceEntry (key : String) (v : Value) (es : Entries) : Entries :=
  es.map fun (k, old) => if k = key then (k, v) else (k, old)

/-- Goes down the keys, making tables of origin `made` where there are none, and applies `f` to the
    entries of the last table. With `made` being `dotted`, a table with its own header is no way. -/
def descend (made : Origin) (f : Origin → Entries → Option Entries) :
    List String → Origin → Entries → Option Entries
  | [], origin, es => f origin es
  | key :: keys, _, es =>
    match es.lookup key with
    | none => (descend made f keys made []).map fun sub => es ++ [(key, .table made sub)]
    | some (.table origin sub) =>
      if origin = .inline ∨ (made = .dotted ∧ origin = .header) then none
      else (descend made f keys origin sub).map fun sub => replaceEntry key (.table origin sub) es
    | some (.tables elements) =>
      match elements.getLast? with
      | some last =>
        (descend made f keys .header last).map fun last => replaceEntry key (.tables (elements.dropLast ++ [last])) es
      | none => none
    | some _ => none

/-- A new key with its value; `dotted` when keys led here, and then only into a table of dotted keys. -/
def addEntry (dotted : Bool) (key : String) (v : Value) (origin : Origin) (es : Entries) : Option Entries :=
  if dotted ≠ (origin = .dotted) ∨ (es.lookup key).isSome then none else some (es ++ [(key, v)])

def assign (es : Entries) (pair : Path × Value) : Option Entries :=
  descend .dotted (addEntry (!pair.1.parents.isEmpty) pair.1.key pair.2) pair.1.parents .header es

def assignAll (es : Entries) (pairs : List (Path × Value)) : Option Entries := pairs.foldlM assign es

/-- A header and the assignments under it. -/
structure Section where
  isArray : Bool
  path : Path
  pairs : List (Path × Value)
  deriving Repr

/-- Places a section's table under its last key. -/
def addTable (s : Section) (es : Entries) : Option Entries :=
  match s.isArray, es.lookup s.path.key with
  | false, none => (assignAll [] s.pairs).map fun sub => es ++ [(s.path.key, .table .header sub)]
  | false, some (.table .implied sub) =>
    (assignAll sub s.pairs).map fun sub => replaceEntry s.path.key (.table .header sub) es
  | true, none => (assignAll [] s.pairs).map fun sub => es ++ [(s.path.key, .tables [sub])]
  | true, some (.tables elements) =>
    (assignAll [] s.pairs).map fun sub => replaceEntry s.path.key (.tables (elements ++ [sub])) es
  | _, some _ => none

def addSection (root : Entries) (s : Section) : Option Entries :=
  descend .implied (fun _ => addTable s) s.path.parents .header root

/-- The assignments before the first header, and the sections. -/
def sections : List Statement → List (Path × Value) × List Section
  | [] => ([], [])
  | .assign path v :: rest => ((path, v) :: (sections rest).1, (sections rest).2)
  | .header path :: rest => ([], ⟨false, path, (sections rest).1⟩ :: (sections rest).2)
  | .arrayHeader path :: rest => ([], ⟨true, path, (sections rest).1⟩ :: (sections rest).2)

/-- The entries of the document that the statements make. -/
def document? (statements : List Statement) : Option Entries := do
  let root ← assignAll [] (sections statements).1
  (sections statements).2.foldlM addSection root

end HouseLease.Toml
