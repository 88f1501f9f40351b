/-
  HouseLease.Console.Request — what an operator asks for, read from the words of a command
  line.

  The words are read from left to right: options, the name of a command, the options of the
  command. `--config` and `--verbose` stand on either side of the name, and what is said
  after it counts. An option is given once; its value follows it as the next word, which
  then is no option itself, or is attached to it. Anything else is refused, at the first
  word that shows it.
-/

import HouseLease.Checked
import HouseLease.Text.Digits

namespace HouseLease.Console

/-! ## Commands -/

/-- Commands on the record store. -/
inductive Errand where
  | players
  | status (player house : String)
  | buy (player house : String) (funds : Int64)
  | pay (player house : String) (days : UInt32) (funds : Int64)
  | exitCheck (player house : String) (funds : Int64)
  | depart (player house : String)
  | goBack (player : String)
  | lastHouse (player : String) (value : Option String)
  deriving DecidableEq, Repr

inductive Command where
  /-- Write a settings file. -/
  | init
  | houses
  | errand (e : Errand)
  deriving DecidableEq, Repr

structure Order where
  /-- The path of the settings file. -/
  config : String
  verbosity : Nat
  command : Command
  deriving DecidableEq, Repr

inductive Request where
  | order (o : Order)
  | version
  | help
  deriving DecidableEq, Repr

/-! ## Options and names -/

/-- The options with a value. -/
inductive Key where
  | config
  | player
  | house
  | days
  | funds
  | set
  deriving DecidableEq, Repr

inductive Verb where
  | init
  | houses
  | players
  | status
  | buy
  | pay
  | exitCheck
  | depart
  | goBack
  | lastHouse
  deriving DecidableEq, Repr

namespace Verb

def ofName? : String → Option Verb
  | "init" => some init
  | "houses" => some houses
  | "players" => some players
  | "status" => some status
  | "buy" => some buy
  | "pay" => some pay
  | "exit-check" => some exitCheck
  | "depart" => some depart
  | "return" => some goBack
  | "last-house" => some lastHouse
  | _ => none

/-- The options of its own that a command takes. -/
def keys : Verb → List Key
  | init | houses | players => []
  | status | depart => [.player, .house]
  | buy | exitCheck => [.player, .house, .funds]
  | pay => [.player, .house, .days, .funds]
  | goBack => [.player]
  | lastHouse => [.player, .set]

end Verb

def Key.ofName? : String → Option Key
  | "config" => some config
  | "player" => some player
  | "house" => some house
  | "days" => some days
  | "funds" => some funds
  | "set" => some set
  | _ => none

def Key.ofLetter? : Char → Option Key
  | 'c' => some config
  | 'p' => some player
  | 'd' => some days
  | 'f' => some funds
  | _ => none

/-- Whether an option may stand after the name `verb`, or before any name. -/
def Key.allowed (verb : Option Verb) (k : Key) : Bool :=
  k = config || match verb with
    | some v => v.keys.contains k
    | none => false

/-! ## What the options say -/

/-- The options given so far. -/
structure Given where
  config : Option String := none
  player : Option String := none
  house : Option String := none
  days : Option UInt32 := none
  funds : Option Int64 := none
  set : Option String := none
  verbosity : Nat := 0
  deriving DecidableEq, Repr

/-- A decimal number: digits, after a sign or none. -/
def number? (s : String) : Option Int :=
  match s.toList with
  | '-' :: ds => (digits? ds).map fun n => -(n : Int)
  | '+' :: ds => (digits? ds).map Int.ofNat
  | ds => (digits? ds).map Int.ofNat
where
  digits? (ds : List Char) : Option Nat :=
    if !ds.isEmpty && ds.all Char.isDigit then some (Text.ofDigits ds) else none

def once? {α : Type} (old : Option α) (new : Option α) : Option α := if old.isSome then none else new

namespace Given

/-- Takes the value of an option; `none` for a second one, and for a text that is no value of it. -/
def put? (g : Given) (k : Key) (value : String) : Option Given :=
  match k with
  | .config => (once? g.config (some value)).map fun v => { g with config := some v }
  | .player => (once? g.player (some value)).map fun v => { g with player := some v }
  | .house => (once? g.house (some value)).map fun v => { g with house := some v }
  | .set => (once? g.set (some value)).map fun v => { g with set := some v }
  | .days => (once? g.days ((number? value).bind uint32?)).map fun v => { g with days := some v }
  | .funds => (once? g.funds ((number? value).bind int64?)).map fun v => { g with funds := some v }

def command? (g : Given) : Verb → Option Command
  | .init => some .init
  | .houses => some .houses
  | .players => some (.errand .players)
  | .status => do return .errand (.status (← g.player) (← g.house))
  | .buy => do return .errand (.buy (← g.player) (← g.house) (← g.funds))
  | .pay => do return .errand (.pay (← g.player) (← g.house) (← g.days) (← g.funds))
  | .exitCheck => do return .errand (.exitCheck (← g.player) (← g.house) (← g.funds))
  | .depart => do return .errand (.depart (← g.player) (← g.house))
  | .goBack => do return .errand (.goBack (← g.player))
  | .lastHouse => do return .errand (.lastHouse (← g.player) g.set)

/-- The order given by the options before the name of its command and those after it. -/
def order? (before after : Given) (verb : Verb) : Option Order := do
  let command ← after.command? verb
  some {
    config := (after.config.or before.config).getD "config.toml"
    verbosity := if after.verbosity = 0 then before.verbosity else after.verbosity
    command }

end Given

/-! ## Words -/

/-- What the options of a word come to. -/
inductive Sense where
  | given (g : Given)
  /-- The next word is the option's value. -/
  | awaits (k : Key) (g : Given)
  | version
  | help
  deriving DecidableEq, Repr

/-- An option that stands after `verb`, with the value attached to it, if one is. -/
def Key.sense? (verb : Option Verb) (g : Given) (value : Option String) (k : Key) : Option Sense :=
  if !k.allowed verb then none
  else match value with
    | some v => (g.put? k v).map .given
    | none => some (.awaits k g)

/-- Letters after one hyphen. The first letter with a value takes the rest for it, without an equals sign in front. -/
def letters? (verb : Option Verb) (g : Given) : List Char → Option Sense
  | [] => some (.given g)
  | c :: r =>
    if c = 'v' then letters? verb { g with verbosity := g.verbosity + 1 } r
    else if c = 'h' then some .help
    else if c = 'V' ∧ verb = none then some .version
    else (Key.ofLetter? c).bind (Key.sense? verb g <| match r with
      | [] => none
      | '=' :: value => some (String.ofList value)
      | value => some (String.ofList value))

/-- A name after two hyphens, and a value after an equals sign. -/
def long? (verb : Option Verb) (g : Given) (cs : List Char) : Option Sense :=
  let name := String.ofList (cs.takeWhile (· ≠ '='))
  let value := match cs.dropWhile (· ≠ '=') with
    | [] => none
    | _ :: value => some (String.ofList value)
  if name = "verbose" ∧ value = none then some (.given { g with verbosity := g.verbosity + 1 })
  else if name = "help" ∧ value = none then some .help
  else if name = "version" ∧ value = none ∧ verb = none then some .version
  else (Key.ofName? name).bind (Key.sense? verb g value)

/-- A word that begins with a hyphen and goes on. -/
def isOption (w : String) : Bool :=
  match w.toList with
  | '-' :: _ :: _ => true
  | _ => false

/-- Where the reading of options ends. -/
inductive Stretch where
  /-- Before these words, of which the first is no option. -/
  | upTo (g : Given) (rest : List String)
  | version
  | help
  deriving DecidableEq, Repr

/-- The options at the front of the words. A lone `--` may end them. -/
def options? (verb : Option Verb) (g : Given) : List String → Option Stretch
  | [] => some (.upTo g [])
  | w :: ws =>
    if !isOption w then some (.upTo g (w :: ws))
    else if w = "--" then (if ws.isEmpty then some (.upTo g []) else none)
    else
      match (match w.toList with
        | '-' :: '-' :: cs => long? verb g cs
        | cs => letters? verb g (cs.drop 1)) with
      | none => none
      | some .version => some .version
      | some .help => some .help
      | some (.given g) => options? verb g ws
      | some (.awaits k g) =>
        match ws with
        | [] => none
        | value :: ws => if isOption value then none else (g.put? k value).bind fun g => options? verb g ws

namespace Request

/-- Help on help, or on a command, or in general. -/
def help? : List String → Option Request
  | [] => some .help
  | [w] => if w = "help" ∨ (Verb.ofName? w).isSome then some .help else none
  | _ => none

/-- What the words ask for, if they ask for anything. -/
def ofWords? (words : List String) : Option Request := do
  match ← options? none {} words with
  | .version => some .version
  | .help => some .help
  | .upTo _ [] => none
  | .upTo before (w :: ws) =>
    if w = "help" then help? ws
    else do
      let verb ← Verb.ofName? w
      match ← options? verb {} ws with
      | .version => some .version
      | .help => some .help
      | .upTo after [] => (before.order? after verb).map .order
      | .upTo _ (_ :: _) => none

end Request

end HouseLease.Console
