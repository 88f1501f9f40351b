/-
  HouseLease.Visit.World — many players at once: one store, ledgers and purses by name, and
  the calls made on them one after the other.

  `Call` names every call on a ledger and `Call.run` makes it. `World.step` takes ledger and
  purse out of the world, makes the call, and puts both back, whatever the call ended with.
  Two ledgers of one player share nothing but the store.
-/

import HouseLease.Visit.Hub
import HouseLease.Visit.Trade

namespace HouseLease

/-! ## Calls on a ledger -/

inductive Call where
  | player
  | house
  | bind (id : String)
  | terms
  | hasHouse
  | isFeeExpired
  | paidUntil
  | secondsRemaining
  | daysRemaining
  | expiryLabel
  | leases
  | lastHouse
  | feeForDays (days : UInt32)
  | purchase
  | payFees (days : UInt32)
  | setLastHouse (value : String)
  | depart
  | goBack
  | leave
  | checkExitFees
  | buyHouse
  | prepayFees (days : UInt32)
  deriving DecidableEq, Repr

inductive Answer where
  | done
  | flag (b : Bool)
  | flag? (b : Option Bool)
  | text (s : String)
  | text? (s : Option String)
  | number (n : Int64)
  | number? (n : Option Int64)
  | days? (n : Option Int)
  | terms (h : House)
  | leases (ls : List Lease)
  | point (p : Point)
  | point? (p : Option Point)
  | feeCheck (o : Trade.FeeCheck)
  | purchase (o : Trade.Purchase)
  | prepay (o : Trade.Prepay)
  | record (r : Record)
  | record? (r : Option Record)
  deriving DecidableEq

def Call.run (s : Setting) : Call → Act Answer
  | .player => .text <$> Act.player
  | .house => .text <$> Act.house
  | .bind id => do
    Ledger.bind id
    .text <$> Act.house
  | .terms => .terms <$> s.terms
  | .hasHouse => .flag <$> Ledger.hasHouse s
  | .isFeeExpired => .flag? <$> Ledger.isFeeExpired s
  | .paidUntil => .number? <$> Ledger.paidUntil s
  | .secondsRemaining => .number? <$> Ledger.secondsRemaining s
  | .daysRemaining => .days? <$> Ledger.daysRemaining s
  | .expiryLabel => .text? <$> Ledger.expiryLabel s
  | .leases => .leases <$> Ledger.leases s
  | .lastHouse => .text? <$> Ledger.lastHouse s
  | .feeForDays days => .number <$> Ledger.feeForDays s days
  | .purchase => .flag <$> Ledger.purchase s
  | .payFees days => .flag <$> Ledger.payFees s days
  | .setLastHouse value => .flag <$> Ledger.setLastHouse s value
  | .depart => .point <$> Hub.depart s
  | .goBack => .point? <$> Hub.goBack s
  | .leave => .point <$> Hub.leave s
  | .checkExitFees => .feeCheck <$> Trade.checkExitFees s
  | .buyHouse => .purchase <$> Trade.buyHouse s
  | .prepayFees days => .prepay <$> Trade.prepayFees s days

/-! ## The world -/

structure World where
  store : Store := .empty
  ledgers : List (String × Ledger) := []
  purses : List (String × Int64) := []
  deriving DecidableEq, Repr

inductive Step where
  /-- A new ledger under a name, in place of the one that had it. -/
  | openLedger (name player house : String)
  | openPurse (name : String) (balance : Int64)
  | pay (purse : String) (amount : Int64)
  | refund (purse : String) (amount : Int64)
  | balance (purse : String)
  /-- A call on a ledger; without a purse there is no money to spend. -/
  | call (ledger : String) (purse : Option String) (c : Call)
  | getRecord (player tag : String)
  | createRecord (player tag : String)
  | putRecord (player tag houses : String) (lastHouse : Option String)
  deriving DecidableEq, Repr

/-- How a step ended and what it noted. -/
structure Reply where
  answer : Except Stop Answer
  log : List LogLine := []

namespace World

/-- `v` under `name`, in place of what was there. -/
def assign {α : Type} (name : String) (v : α) (entries : List (String × α)) : List (String × α) :=
  (name, v) :: entries.filter (·.1 != name)

def purseOf? (w : World) : Option String → Option Int64
  | none => some 0
  | some name => w.purses.lookup name

def keepPurse (w : World) : Option String → Int64 → World
  | none, _ => w
  | some name, balance => { w with purses := assign name balance w.purses }

/-- The world after a call that found `v`. -/
def putBack (w : World) (ledger : String) (purse : Option String) (v : Visit) : World :=
  { w with store := v.store, ledgers := assign ledger v.ledger w.ledgers }.keepPurse purse v.purse

def call (s : Setting) (w : World) (ledger : String) (purse : Option String) (c : Call) : Option (Reply × World) := do
  let book ← w.ledgers.lookup ledger
  let balance ← w.purseOf? purse
  match c.run s { store := w.store, ledger := book, purse := balance } with
  | .ok a v => some (⟨.ok a, v.log⟩, w.putBack ledger purse v)
  | .error stop v => some (⟨.error stop, v.log⟩, w.putBack ledger purse v)

/-- A call of the store that fails when `down` and otherwise ends as `act` does, unless what it placed cannot be
    flushed. -/
def onStore (w : World) (down : Bool) (flush : Option String) (log : List LogLine)
    (act : Except Stop (Answer × Store)) : Reply × World :=
  if down then (⟨.error (.fault .storeOffline), []⟩, w)
  else match act, flush with
    | .ok (a, store), none => (⟨.ok a, log⟩, { w with store })
    | .ok (_, store), some reason => (⟨.error (.fault (.storeUnflushed reason)), log⟩, { w with store })
    | .error stop, _ => (⟨.error stop, log⟩, w)

/-- One step of the world; `none` for a ledger or purse that is not there. -/
def step (s : Setting) (w : World) : Step → Option (Reply × World)
  | .openLedger name player house =>
    some (⟨.ok .done, []⟩, { w with ledgers := assign name { player, house } w.ledgers })
  | .openPurse name balance => some (⟨.ok .done, []⟩, { w with purses := assign name balance w.purses })
  | .pay name amount => do
    let balance ← w.purses.lookup name
    match Purse.pay? balance amount with
    | some balance => some (⟨.ok (.flag true), []⟩, w.keepPurse name balance)
    | none => some (⟨.ok (.flag false), []⟩, w)
  | .refund name amount => do
    let balance ← w.purses.lookup name
    match Purse.refund balance amount with
    | .ok balance => some (⟨.ok .done, []⟩, w.keepPurse name balance)
    | .error op => some (⟨.error (.overflow op), []⟩, w)
  | .balance name => do
    let balance ← w.purses.lookup name
    some (⟨.ok (.number balance), []⟩, w)
  | .call ledger purse c => w.call s ledger purse c
  | .getRecord player tag =>
    some (w.onStore s.outage.get none [] do
      let r ← Stop.ofFault (w.store.fetch player tag)
      return (.record? r, w.store))
  | .createRecord player tag =>
    some (w.onStore s.outage.create s.outage.createFlush [creationLine player tag] do
      let (r, store) ← Stop.ofFault (w.store.create (← Stop.ofClock s.wall) player tag)
      return (.record r, store))
  | .putRecord player tag houses lastHouse =>
    some (w.onStore s.outage.put s.outage.putFlush [] do
      let store ← Stop.ofFault (w.store.write (← Stop.ofClock s.wall) player tag houses lastHouse)
      return (.done, store))

/-- The steps in order, each with the setting it finds; steps without their ledger or purse are left out. -/
def run (w : World) : List (Setting × Step) → List Reply × World
  | [] => ([], w)
  | (s, step) :: rest =>
    match w.step s step with
    | some (reply, w) => let (replies, w) := w.run rest; (reply :: replies, w)
    | none => w.run rest

end World

/-! ## The clock -/

/-- The clock `seconds` later. -/
def advance (now seconds : Int64) : Except Overflow Int64 := checked .add (now.toInt + seconds.toInt)

end HouseLease
