/-
  HouseLease.Settings.Basic — where records are kept, what is logged, which houses are on
  offer.

  The store lies in the data directory (`storePath`) unless a directory of its own is set.
-/

import HouseLease.House.Catalog
import HouseLease.Log

namespace HouseLease

structure Settings where
  dataDir : String
  /-- The store's directory, when it is not the one in `dataDir`. -/
  dbPath : Option String := none
  /-- The name of a log level. -/
  level : String
  logFile : Option String := none
  hub : Point := everlink
  houses : List House := [greyton]
  deriving DecidableEq, Repr

namespace Settings

/-- The settings a new installation starts with. -/
def shipped : Settings where
  dataDir := "./data"
  level := "info"
  logFile := some "luxhouse.log"

def logLevel (s : Settings) : Level := Level.ofName s.level

/-- `name` within the directory `dir`; the empty path is the working directory. -/
def within (dir name : String) : String :=
  if dir.isEmpty || dir.endsWith "/" then dir ++ name else dir ++ "/" ++ name

def storePath (s : Settings) : String := s.dbPath.getD (within s.dataDir "houses")

def catalog (s : Settings) : Except Flaw Catalog := Catalog.ofHouses s.houses s.hub

end Settings

end HouseLease
