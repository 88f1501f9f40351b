/-
  HouseLease.Console.Directory — a tree of files and directories, as a program that works in
  one of them sees it.

  A place is the list of names from the root down; every place on the way to a node is a
  directory. A directory can hold a record store. Paths are followed name by name
  (`follow`), and what is in the way is told by the error.
-/

import HouseLease.Record.Store

namespace HouseLease.Console

open Text (Bytes)

/-! ## Paths -/

abbrev Place := List String

structure Path where
  /-- Begins at the root, and not at the working directory. -/
  absolute : Bool
  names : List String
  /-- Ends with a slash. -/
  openEnded : Bool
  deriving DecidableEq, Repr

namespace Path

/-- The path that a text spells; no file is reached by an empty or an overlong text. -/
def ofText (s : String) : Except SystemError Path :=
  if s.toList.contains '\x00' then .error .badName
  else if s.isEmpty then .error .noEntry
  else if 4096 ≤ (Text.bytes s).length then .error .nameTooLong
  else .ok ⟨s.startsWith "/", (s.splitOn "/").filter (!·.isEmpty), s.endsWith "/"⟩

/-- The path to a directory; the empty text spells the working directory. -/
def ofDirectory (s : String) : Except SystemError Path := if s.isEmpty then .ok ⟨false, [], false⟩ else ofText s

/-- The path to the directory that holds the last name, dots being left out. -/
def parent (p : Path) : Path := { p with names := (p.names.filter (· != ".")).dropLast, openEnded := false }

theorem length_parent {p : Path} (h : p.parent.names ≠ []) : p.parent.names.length < p.names.length := by
  have h1 : (p.names.filter (· != ".")).length ≤ p.names.length := List.length_filter_le ..
  have h2 := List.length_pos_iff.2 h
  simp only [parent, List.length_dropLast] at h2 ⊢
  omega

end Path

/-! ## The tree -/

inductive Node where
  | file (content : Bytes)
  | directory (store : Store)
  deriving DecidableEq, Repr

structure Directory where
  /-- The root among them; a later entry of one place counts for nothing. -/
  nodes : List (Place × Node)
  deriving DecidableEq, Repr

namespace Directory

/-- Where the program works. -/
def working : Place := ["work"]

/-- Nothing but the working directory. -/
def empty : Directory := ⟨[(working, .directory .empty), ([], .directory .empty)]⟩

def find? (d : Directory) (place : Place) : Option Node := d.nodes.lookup place

def put (d : Directory) (place : Place) (n : Node) : Directory :=
  ⟨(place, n) :: d.nodes.filter (·.1 != place)⟩

def checkName (name : String) : Except SystemError Unit :=
  if 255 < (Text.bytes name).length then .error .nameTooLong else .ok ()

/-- The directory that the names lead to. -/
def follow (d : Directory) (place : Place) : List String → Except SystemError Place
  | [] => .ok place
  | name :: rest =>
    if name = "." then d.follow place rest
    else if name = ".." then d.follow place.dropLast rest
    else do
      checkName name
      match d.find? (place ++ [name]) with
      | none => .error .noEntry
      | some (.file _) => .error .notDirectory
      | some (.directory _) => d.follow (place ++ [name]) rest

def start (p : Path) : Place := if p.absolute then [] else working

/-- What a path ends at: a directory reached by its dots, or a name in a directory. -/
def target (d : Directory) (p : Path) : Except SystemError (Option Place) := do
  let place ← d.follow (start p) p.names.dropLast
  match p.names.getLast? with
  | none => .ok none
  | some name =>
    if name = "." ∨ name = ".." then .ok none
    else do
      checkName name
      .ok (some (place ++ [name]))

def read (d : Directory) (path : String) : Except SystemError Bytes := do
  let p ← Path.ofText path
  match ← d.target p with
  | none => .error .isDirectory
  | some place =>
    match d.find? place with
    | none => .error .noEntry
    | some (.directory _) => .error .isDirectory
    | some (.file content) => if p.openEnded then .error .notDirectory else .ok content

/-- Makes the file, or changes what is in it. -/
def edit (d : Directory) (path : String) (change : Bytes → Bytes) : Except SystemError Directory := do
  let p ← Path.ofText path
  match ← d.target p with
  | none => .error .isDirectory
  | some place =>
    if p.openEnded then .error .isDirectory
    else match d.find? place with
      | none => .ok (d.put place (.file (change [])))
      | some (.file content) => .ok (d.put place (.file (change content)))
      | some (.directory _) => .error .isDirectory

/-- Makes one directory. -/
def make (d : Directory) (p : Path) : Except SystemError Directory := do
  match ← d.target p with
  | none => .error .fileExists
  | some place =>
    match d.find? place with
    | some _ => .error .fileExists
    | none => .ok (d.put place (.directory .empty))

def isDirectory (d : Directory) (p : Path) : Bool :=
  match d.follow (start p) p.names with
  | .ok _ => true
  | .error _ => false

/-- Makes a directory and those on the way to it. What is made before a failure stays, and a
    directory that is there already is no failure. -/
def makeAll (d : Directory) (p : Path) : Except SystemError Unit × Directory :=
  match d.make p with
  | .ok d => (.ok (), d)
  | .error .noEntry =>
    match (if _h : p.parent.names = [] then (.ok (), d) else d.makeAll p.parent) with
    | (.error e, d) => (.error e, d)
    | (.ok _, d) =>
      match d.make p with
      | .ok d => (.ok (), d)
      | .error e => (if d.isDirectory p then .ok () else .error e, d)
  | .error e => (if d.isDirectory p then .ok () else .error e, d)
termination_by p.names.length
decreasing_by exact Path.length_parent _h

/-! ## Record stores -/

def storeAt (d : Directory) (place : Place) : Store :=
  match d.find? place with
  | some (.directory store) => store
  | _ => .empty

/-- Opens the store in a directory, which is made if it is not there. -/
def openStore (d : Directory) (path : String) : Except SystemError Store × Directory :=
  match Path.ofDirectory path with
  | .error e => (.error e, d)
  | .ok p =>
    match d.makeAll p with
    | (.error e, d) => (.error e, d)
    | (.ok _, d) => ((d.follow (start p) p.names).map d.storeAt, d)

def saveStore (d : Directory) (path : String) (store : Store) : Directory :=
  match (do let p ← Path.ofDirectory path; d.follow (start p) p.names) with
  | .ok place => d.put place (.directory store)
  | .error _ => d

end Directory

end HouseLease.Console
