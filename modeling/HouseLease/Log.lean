/-
  HouseLease.Log — log lines as data, and how much of the log is kept.
-/

namespace HouseLease

inductive Level where
  | off
  | error
  | warn
  | info
  | debug
  | trace
  deriving DecidableEq, Repr

namespace Level

def rank : Level → Nat
  | off => 0
  | error => 1
  | warn => 2
  | info => 3
  | debug => 4
  | trace => 5

def name : Level → String
  | off => "OFF"
  | error => "ERROR"
  | warn => "WARN"
  | info => "INFO"
  | debug => "DEBUG"
  | trace => "TRACE"

/-- A level by name in any case; `warning` is `warn`, and what names no level is `info`. -/
def ofName (s : String) : Level :=
  let s := s.map Char.toLower
  if s = "off" then off
  else if s = "error" then error
  else if s = "warn" ∨ s = "warning" then warn
  else if s = "debug" then debug
  else if s = "trace" then trace
  else info

end Level

structure LogLine where
  level : Level
  text : String
  deriving DecidableEq, Repr

/-- Whether a log kept at `kept` takes the line. -/
def LogLine.passes (kept : Level) (l : LogLine) : Bool := l.level.rank ≤ kept.rank

end HouseLease
