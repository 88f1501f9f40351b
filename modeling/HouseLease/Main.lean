/-
  HouseLease.Main — the program: runs against the files of the machine.

  A store is one file in its directory, read when the store is opened and written back as a
  whole. What is printed goes to standard output; the error of a run that fails and log
  lines without a log file go to standard error.
-/

import HouseLease.Console.Run
import HouseLease.Record.Dump

namespace HouseLease.Machine

open HouseLease.Console

def systemError : IO.Error → SystemError
  | .noFileOrDirectory .. => .noEntry
  | .alreadyExists .. => .fileExists
  | .inappropriateType _ code _ => if code = 21 then .isDirectory else .notDirectory
  | .permissionDenied _ code _ => .other code.toNat "Permission denied"
  | e => .other 5 (toString e)

def attempt {α : Type} (act : IO α) : IO (Except SystemError α) := do
  try
    return .ok (← act)
  catch e =>
    return .error (systemError e)

def toArray (bs : Text.Bytes) : ByteArray := ⟨bs.toArray⟩

def add (path : String) (content : Text.Bytes) : IO Unit :=
  IO.FS.withFile path .append fun file => file.write (toArray content)

def storeFile (path : String) : String := Settings.within path "records"

def openStore (path : String) : IO (Except SystemError Store) := do
  match ← attempt (IO.FS.createDirAll (if path.isEmpty then "." else path)) with
  | .error e => return .error e
  | .ok _ =>
    match ← attempt (IO.FS.readBinFile (storeFile path)) with
    | .error .noEntry => return .ok .empty
    | .error e => return .error e
    | .ok content =>
      match Store.ofDump? content.data.toList with
      | some store => return .ok store
      | none => return .error (.other 74 "Bad message")

def saveStore (path : String) (store : Store) : IO Unit := do
  match store.dump? with
  | some content => IO.FS.writeBinFile (storeFile path) (toArray content)
  | none => throw (IO.userError "the store is too large to be kept")

def host : Host IO where
  read path := attempt do return (← IO.FS.readBinFile path).data.toList
  write path content := attempt (IO.FS.writeBinFile path (toArray content))
  append path content := attempt (add path content)
  openStore := openStore
  saveStore := saveStore

/-- The time: that of a file written just now. -/
def now : IO (Option Instant) := do
  let (file, path) ← IO.FS.createTempFile
  file.write (toArray [0])
  file.flush
  let time := (← path.metadata).modified
  IO.FS.removeFile path
  return Instant.ofClock? time.sec time.nsec.toNat

end HouseLease.Machine

open HouseLease in
def main (words : List String) : IO UInt32 := do
  let outcome ← Console.run Machine.host (← Machine.now) words
  IO.print outcome.text
  for line in outcome.unlogged do
    IO.eprintln line
  match outcome.ending with
  | .done => pure ()
  | .failed f => IO.eprintln ("Error: " ++ f.message)
  | .refused => IO.eprintln Console.usageLine
  | .overflowed op => IO.eprintln op.message
  | .noTime => IO.eprintln "the clock shows no time"
  return outcome.ending.code
