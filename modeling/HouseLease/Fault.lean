/-
  HouseLease.Fault — why a call fails. A player who does not hold a house is no fault:
  queries answer `none` there.

  `Stop` adds the two ways a call ends without an answer and without a fault: its arithmetic
  left the 64-bit range, or it needed the time and the clock showed none.
-/

import HouseLease.House.Catalog
import HouseLease.Checked

namespace HouseLease

/-- A refusal of the operating system. -/
inductive SystemError where
  | noEntry
  | fileExists
  | notDirectory
  | isDirectory
  | nameTooLong
  /-- A name with a null character, which no file can have. -/
  | badName
  | other (code : Nat) (reason : String)
  deriving DecidableEq, Repr

def SystemError.message : SystemError → String
  | .noEntry => "No such file or directory (os error 2)"
  | .fileExists => "File exists (os error 17)"
  | .notDirectory => "Not a directory (os error 20)"
  | .isDirectory => "Is a directory (os error 21)"
  | .nameTooLong => "File name too long (os error 36)"
  | .badName => "file name contained an unexpected NUL byte"
  | .other code reason => reason ++ " (os error " ++ Text.numeral code ++ ")"

inductive Fault where
  | unknownHouse (id : String)
  /-- A house just bought that is not held. -/
  | missingLease (id : String)
  | schemaMismatch (found : UInt8)
  | invalidCatalog (flaw : Flaw)
  | timestampOutOfRange (seconds : Int64)
  | storeOffline
  /-- What was placed in the store could not be flushed to the disk; it is in its place all the same. -/
  | storeUnflushed (reason : String)
  | system (error : SystemError)
  /-- A house list that is no list of leases. -/
  | houseListUnreadable
  /-- Stored bytes that are no record. -/
  | recordUnreadable
  /-- A record with a text whose length does not fit its prefix of 64 bits. -/
  | recordTooLong
  deriving DecidableEq, Repr

/-- The schema version of stored records. -/
def schemaVersion : UInt8 := 1

def Fault.message : Fault → String
  | .unknownHouse id => "record not found: house: " ++ id
  | .missingLease id => "record not found: owned house: " ++ id
  | .schemaMismatch found =>
    "schema mismatch for player_info: expected " ++ Text.numeral schemaVersion.toNat ++ ", got "
      ++ Text.numeral found.toNat
  | .invalidCatalog flaw => "invalid catalog: " ++ flaw.message
  | .timestampOutOfRange seconds => "timestamp out of range: " ++ Text.numeral seconds.toInt
  | .storeOffline => "io error: store offline"
  | .storeUnflushed reason => "sled error: " ++ reason
  | .system error => "io error: " ++ error.message
  | .houseListUnreadable => "house list encoding error"
  | .recordUnreadable | .recordTooLong => "serialization error"

inductive Stop where
  | fault (f : Fault)
  | overflow (op : Overflow)
  /-- The clock shows no time. -/
  | noTime
  deriving DecidableEq, Repr

def Stop.ofFault {α : Type} : Except Fault α → Except Stop α := Except.mapError .fault

@[simp]
theorem Stop.ofFault_ok {α : Type} (a : α) : Stop.ofFault (.ok a) = .ok a := rfl

@[simp]
theorem Stop.ofFault_error {α : Type} (f : Fault) : (Stop.ofFault (.error f) : Except Stop α) = .error (.fault f) := rfl

/-- What a clock shows, where it is needed. -/
def Stop.ofClock {α : Type} : Option α → Except Stop α
  | some a => .ok a
  | none => .error .noTime

end HouseLease
