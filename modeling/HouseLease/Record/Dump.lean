/-
  HouseLease.Record.Dump — a whole store in one run of bytes: the blocks of keys and values,
  in the order of the keys.
-/

import HouseLease.Record.Store

namespace HouseLease.Store

open Text (Bytes)

def dumpEntries? : List (Bytes × Bytes) → Option Bytes
  | [] => some []
  | (key, value) :: rest => do
    let key ← block? key
    let value ← block? value
    let rest ← dumpEntries? rest
    some (key ++ (value ++ rest))

/-- The bytes of a store; a key or value too long for a block has none. -/
def dump? (s : Store) : Option Bytes := dumpEntries? s.entries

def entriesOf? (bs : Bytes) : Option (List (Bytes × Bytes)) :=
  if bs.isEmpty then some []
  else
    match _hk : takeBlock? bs with
    | none => none
    | some (key, rest) =>
      match _hv : takeBlock? rest with
      | none => none
      | some (value, rest) => (entriesOf? rest).map ((key, value) :: ·)
termination_by bs.length
decreasing_by
  have := takeBlock?_length _hk
  have := takeBlock?_length _hv
  omega

/-- The store with these bytes. -/
def ofDump? (bs : Bytes) : Option Store := (entriesOf? bs).map fun entries =>
  entries.foldl (fun s (key, value) => s.insert key value) empty

end HouseLease.Store
