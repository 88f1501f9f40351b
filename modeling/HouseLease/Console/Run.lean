/-
  HouseLease.Console.Run — one run of the program, from its words to its exit status.

  A run reaches files and stores through a `Host`. `Directory.host` is one whose files are a
  tree in memory.

  A run that loads its settings opens the log file, which makes it, and goes on without one
  that cannot be opened. The store is opened for errands only; what an errand has stored by
  its end is kept, however it ends. Where a run needs the time, for a log line too, and the
  clock shows none, it ends there.
-/

import HouseLease.Console.Directory
import HouseLease.Console.Session
import HouseLease.Settings.File

namespace HouseLease.Console

open Text (Bytes)

/-! ## Hosts -/

structure Host (m : Type → Type) where
  read (path : String) : m (Except SystemError Bytes)
  write (path : String) (content : Bytes) : m (Except SystemError Unit)
  /-- Adds to the end of a file, which is made if it is not there. -/
  append (path : String) (content : Bytes) : m (Except SystemError Unit)
  openStore (path : String) : m (Except SystemError Store)
  saveStore (path : String) (store : Store) : m Unit

namespace Directory

def change (d : Directory) (path : String) (f : Bytes → Bytes) : Except SystemError Unit × Directory :=
  match d.edit path f with
  | .ok d => (.ok (), d)
  | .error e => (.error e, d)

def host : Host (StateM Directory) where
  read path := fun d => (d.read path, d)
  write path content := fun d => d.change path fun _ => content
  append path content := fun d => d.change path (· ++ content)
  openStore path := fun d => d.openStore path
  saveStore path store := fun d => ((), d.saveStore path store)

end Directory

/-! ## Outcomes -/

inductive Failure where
  | unreadable (path : String) (error : SystemError)
  /-- A settings file that is not UTF-8. -/
  | notText (path : String)
  | notSettings
  | unwritable (path : String) (error : SystemError)
  | fault (f : Fault)
  deriving DecidableEq, Repr

def Failure.message : Failure → String
  | unreadable path error => "Failed to read config file " ++ path ++ ": " ++ error.message
  | notText path => "Failed to read config file " ++ path ++ ": stream did not contain valid UTF-8"
  | notSettings => "Failed to parse config file"
  | unwritable path error => "Failed to write config file " ++ path ++ ": " ++ error.message
  | fault f => f.message

inductive Ending where
  | done
  | failed (f : Failure)
  /-- The words ask for nothing. -/
  | refused
  | overflowed (op : Overflow)
  /-- The clock shows no time. -/
  | noTime
  deriving DecidableEq, Repr

/-- The exit status. -/
def Ending.code : Ending → UInt32
  | done => 0
  | failed _ => 1
  | refused => 2
  | overflowed _ | noTime => 101

def Ending.ofStop : Except Stop Unit → Ending
  | .ok _ => .done
  | .error (.fault f) => .failed (.fault f)
  | .error (.overflow op) => .overflowed op
  | .error .noTime => .noTime

structure Outcome where
  ending : Ending
  printed : List String := []
  /-- Log lines for which there is no log file. -/
  unlogged : List String := []
  deriving DecidableEq, Repr

namespace Outcome

def fail (f : Failure) : Outcome := { ending := .failed f }

/-- The text printed. -/
def text (o : Outcome) : String := String.join (o.printed.map (· ++ "\n"))

end Outcome

variable {m : Type → Type} [Monad m]

/-! ## The log -/

def logText (now : Instant) (l : LogLine) : String := now.logText ++ " [" ++ l.level.name ++ "] " ++ l.text

/-- How much is logged. A verbosity given with the run goes before the settings. -/
def kept (level : Level) : Nat → Level
  | 0 => level
  | 1 => .debug
  | _ => .trace

/-- The lines that are kept, with the time in front; without a time there can be none. -/
def stamp? (now : Option Instant) (level : Level) (lines : List LogLine) : Option (List String) :=
  (lines.filter (·.passes level)).mapM fun l => now.map (logText · l)

/-- What is noted when a store is opened, in place of all that a store notes on its own account. -/
def openingLine (path : String) : LogLine := ⟨.debug, "opened store " ++ path⟩

/-- Opens the log file, if there is one and it can be opened. -/
def openLog (h : Host m) : Option String → m (Option String)
  | none => return none
  | some path => do
    match ← h.append path [] with
    | .ok _ => return some path
    | .error _ => return none

/-- Writes to the log file; the lines it does not take are given back. -/
def writeLog (h : Host m) (file : Option String) (lines : List String) : m (List String) := do
  match file with
  | none => return lines
  | some path =>
    match ← h.append path (Text.bytes (String.join (lines.map (· ++ "\n")))) with
    | .ok _ => return []
    | .error _ => return lines

/-! ## Runs -/

namespace Order

/-- Writes the settings a new installation starts with. -/
def init (h : Host m) (now : Option Instant) (o : Order) : m Outcome := do
  match now with
  | none => return { ending := .noTime }
  | some now =>
    let first := logText now ⟨.info, "Initializing new luxhouse configuration"⟩
    let last := logText now ⟨.info, "Configuration file created at " ++ o.config⟩
    match ← h.write o.config (Text.bytes Settings.shipped.text) with
    | .ok _ => return { ending := .done, unlogged := [first, last] }
    | .error e => return { Outcome.fail (.unwritable o.config e) with unlogged := [first] }

/-- Carries out an errand on the store of the settings. No call to a store that could be opened
    fails, so the setting has no outage. The errand's log lines have a time: what notes one above
    `debug` has read the clock before. -/
def runErrand (h : Host m) (now : Option Instant) (o : Order) (settings : Settings) (catalog : Catalog)
    (log : Option String) (e : Errand) : m Outcome := do
  let path := settings.storePath
  let level := kept settings.logLevel o.verbosity
  match ← h.openStore path with
  | .error error => return .fail (.fault (.system error))
  | .ok store =>
    match stamp? now level [openingLine path] with
    | none => return { ending := .noTime }
    | some opened =>
      let (ending, session) := e.run { catalog, now := now.map (·.timestamp), wall := now } store
      h.saveStore path session.visit.store
      let unlogged ← writeLog h log (opened ++ (stamp? now level session.visit.log).getD [])
      return { ending := .ofStop ending, printed := session.printed, unlogged }

/-- A run that has loaded its settings. -/
def runCommand (h : Host m) (now : Option Instant) (o : Order) (settings : Settings) : m Outcome := do
  let log ← openLog h settings.logFile
  match settings.catalog with
  | .error flaw => return .fail (.fault (.invalidCatalog flaw))
  | .ok catalog =>
    match o.command with
    | .errand e => o.runErrand h now settings catalog log e
    | _ => return { ending := .done, printed := catalogLines catalog }

def run (h : Host m) (now : Option Instant) (o : Order) : m Outcome := do
  if o.command = .init then
    o.init h now
  else
    match ← h.read o.config with
    | .error e => return .fail (.unreadable o.config e)
    | .ok content =>
      match Settings.ofBytes content with
      | .error .notText => return .fail (.notText o.config)
      | .error .notSettings => return .fail .notSettings
      | .ok settings => o.runCommand h now settings

end Order

def versionLine : String := "luxhouse 0.3.0"

def usageLine : String := "Usage: luxhouse [-c FILE] [-v] COMMAND [OPTIONS]"

/-- A run with these words while the clock shows `now`. -/
def run (h : Host m) (now : Option Instant) (words : List String) : m Outcome := do
  match Request.ofWords? words with
  | none => return { ending := .refused }
  | some .version => return { ending := .done, printed := [versionLine] }
  | some .help => return { ending := .done, printed := [usageLine] }
  | some (.order o) => o.run h now

end HouseLease.Console
