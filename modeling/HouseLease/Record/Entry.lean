/-
  HouseLease.Record.Entry — a stored record and its bytes.

  The bytes are: the house list, a mark and the last house if there is one, the date of the
  last write, the schema version. Texts are blocks. Bytes after the version are ignored.
  `toBytes?` fails only on a text too long for a block.
-/

import HouseLease.Calendar.Reading
import HouseLease.Record.Block
import HouseLease.Record.HouseList
import HouseLease.Fault

namespace HouseLease

open Text (Bytes)

/-! ## Texts -/

/-- The block of a text. -/
def textBytes? (s : String) : Option Bytes := block? (Text.bytes s)

def takeText? (bs : Bytes) : Option (String × Bytes) :=
  (takeBlock? bs).bind fun (content, rest) => (Text.ofBytes? content).map (·, rest)

theorem takeText?_textBytes? {s : String} {bs : Bytes} (h : textBytes? s = some bs) (rest : Bytes) :
    takeText? (bs ++ rest) = some (s, rest) := by
  simp [takeText?, takeBlock?_block h]

/-! ## Records -/

structure Record where
  /-- The house list, as text. -/
  houses : String
  lastHouse : Option String
  updatedAt : Instant
  version : UInt8
  deriving DecidableEq

namespace Record

def lastHouseBytes? : Option String → Option Bytes
  | none => some [0]
  | some s => (textBytes? s).map (1 :: ·)

def toBytes? (r : Record) : Option Bytes := do
  let houses ← textBytes? r.houses
  let lastHouse ← lastHouseBytes? r.lastHouse
  let updatedAt ← textBytes? r.updatedAt.recordText
  some (houses ++ lastHouse ++ updatedAt ++ [r.version])

def takeLastHouse? : Bytes → Option (Option String × Bytes)
  | 0 :: rest => some (none, rest)
  | 1 :: rest => (takeText? rest).map fun (s, rest) => (some s, rest)
  | _ => none

def ofBytes? (bs : Bytes) : Option Record := do
  let (houses, rest) ← takeText? bs
  let (lastHouse, rest) ← takeLastHouse? rest
  let (date, rest) ← takeText? rest
  let updatedAt ← Instant.ofText? date
  let version ← rest.head?
  some { houses, lastHouse, updatedAt, version }

end Record

/-! ## Holdings in a record -/

namespace Holdings

/-- What a record says its player holds. -/
def ofRecord (r : Record) : Except Fault Holdings :=
  match HouseList.read? r.houses with
  | some leases => .ok ⟨leases, r.lastHouse⟩
  | none => .error .houseListUnreadable

/-- `r` with these holdings in place of its own. -/
def intoRecord (h : Holdings) (r : Record) : Record :=
  { r with houses := HouseList.write h.leases, lastHouse := h.lastHouse }

/-- The record of these holdings, written at `updatedAt`. -/
def toRecord (h : Holdings) (updatedAt : Instant) : Record :=
  ⟨HouseList.write h.leases, h.lastHouse, updatedAt, schemaVersion⟩

end Holdings

end HouseLease
