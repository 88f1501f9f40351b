/-
  HouseLease.Record.Store — the record store: bytes under keys, in the order of the keys.

  A record's key joins player and tag behind a fixed word, the player in lower case (ASCII
  letters only). `fetch` reads a record and judges it, `write` replaces it whole with the
  current schema version, `create` writes one that holds nothing. `players` recovers the
  names from the keys under a tag.

  A write is two things, the bytes put in their place and then flushed to the disk, and either can
  fail. An `Outage` says which of the three calls fail, and how far a write comes.
-/

import HouseLease.Record.Entry
import HouseLease.Log

namespace HouseLease

open Text (Bytes)

/-- Which calls of the store fail, the first three before they have changed anything. -/
structure Outage where
  get : Bool := false
  create : Bool := false
  put : Bool := false
  /-- Why a new record cannot be flushed; it stays where it was placed. -/
  createFlush : Option String := none
  /-- Why a record that was put cannot be flushed; it stays where it was placed. -/
  putFlush : Option String := none
  deriving DecidableEq, Repr

structure Store where
  /-- In increasing order of key, each key once. -/
  entries : List (Bytes × Bytes)
  deriving DecidableEq, Repr

/-- The tag of records with houses. -/
def houseTag : String := "luxury_house"

def keyWord : String := "player_info:"

def recordKey (player tag : String) : Bytes :=
  Text.bytes (keyWord ++ player.map Char.toLower ++ ":" ++ tag)

/-- Puts `value` under `key`, in its place by order and in place of what was there. -/
def placeEntry (key value : Bytes) : List (Bytes × Bytes) → List (Bytes × Bytes)
  | [] => [(key, value)]
  | (k, v) :: rest =>
    if key < k then (key, value) :: (k, v) :: rest
    else if key = k then (key, value) :: rest
    else (k, v) :: placeEntry key value rest

/-- The player in a key under `tag`, if the key is one. Bytes that are not UTF-8 are read with replacements. -/
def playerOfKey? (tag : String) (key : Bytes) : Option String :=
  if (Text.bytes keyWord).isPrefixOf key then
    let name := (Text.lossy key).toList.drop keyWord.length
    let mark := (":" ++ tag).toList
    if mark.isSuffixOf name then some (String.ofList (name.take (name.length - mark.length))) else none
  else none

namespace Store

def empty : Store := ⟨[]⟩

def find? (s : Store) (key : Bytes) : Option Bytes := s.entries.lookup key

def insert (s : Store) (key value : Bytes) : Store := ⟨placeEntry key value s.entries⟩

/-- The record of bytes, if they are one of the current schema version. -/
def judge (value : Bytes) : Except Fault Record :=
  match Record.ofBytes? value with
  | none => .error .recordUnreadable
  | some r => if r.version = schemaVersion then .ok r else .error (.schemaMismatch r.version)

def fetch (s : Store) (player tag : String) : Except Fault (Option Record) :=
  match s.find? (recordKey player tag) with
  | none => .ok none
  | some value => (judge value).map some

/-- Stores house list and last house as they are, at time `wall`. -/
def write (s : Store) (wall : Instant) (player tag houses : String) (lastHouse : Option String) : Except Fault Store :=
  match Record.toBytes? ⟨houses, lastHouse, wall, schemaVersion⟩ with
  | some value => .ok (s.insert (recordKey player tag) value)
  | none => .error .recordTooLong

/-- The record of a player who has none yet. -/
def blankRecord (wall : Instant) : Record := Holdings.empty.toRecord wall

def create (s : Store) (wall : Instant) (player tag : String) : Except Fault (Record × Store) := do
  let r := blankRecord wall
  let s ← s.write wall player tag r.houses r.lastHouse
  pure (r, s)

/-- The players with a record under `tag`, in the order of the keys. -/
def players (s : Store) (tag : String) : List String := s.entries.filterMap (playerOfKey? tag ·.1)

end Store

/-- What the store notes when it creates a record. -/
def creationLine (player tag : String) : LogLine := ⟨.debug, "creating " ++ tag ++ " record for " ++ player⟩

end HouseLease
