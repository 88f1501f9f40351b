/-
  HouseLease.Visit.Act — one player at one house: what a call works on and how it ends.

  A call (`Act`) finds a `Setting`, which it cannot change: the catalog, the clocks, the
  outages of the store. A clock may show no time, which stops the calls that read it. The call
  works on a `Visit`: the store, the player's ledger with its own copy of the record, the purse,
  the log. It ends with an answer or with a `Stop`; what it had changed by then stays changed
  either way.
-/

import HouseLease.Record.Store

namespace HouseLease

structure Setting where
  catalog : Catalog
  /-- The clock, in seconds. -/
  now : Option Int64
  outage : Outage := {}
  /-- The clock the store dates its writes with. -/
  wall : Option Instant := some .epoch
  deriving DecidableEq

/-- A ledger's copy of the player's record, made at first use. -/
inductive Copy where
  | unread
  | absent
  | present (holdings : Holdings)
  deriving DecidableEq, Repr

/-- A player's ledger, bound to one house. -/
structure Ledger where
  player : String
  house : String
  copy : Copy := .unread
  deriving DecidableEq, Repr

structure Visit where
  store : Store
  ledger : Ledger
  /-- The money the player can spend. -/
  purse : Int64 := 0
  /-- Oldest line first. -/
  log : List LogLine := []
  deriving DecidableEq, Repr

abbrev Act := EStateM Stop Visit

namespace Act

def note (level : Level) (text : String) : Act Unit :=
  modify fun v => { v with log := v.log ++ [⟨level, text⟩] }

def ofExcept {α : Type} : Except Stop α → Act α
  | .ok a => pure a
  | .error stop => throw stop

def ofFault {α : Type} (r : Except Fault α) : Act α := ofExcept (Stop.ofFault r)

/-- The end of a flush, given why it fails if it does. -/
def flushed : Option String → Act Unit
  | none => pure ()
  | some reason => throw (.fault (.storeUnflushed reason))

/-- Reads a clock. -/
def ofClock {α : Type} (clock : Option α) : Act α := ofExcept (Stop.ofClock clock)

def ofOverflow {α : Type} : Except Overflow α → Act α
  | .ok a => pure a
  | .error op => throw (.overflow op)

def player : Act String := return (← get).ledger.player

def house : Act String := return (← get).ledger.house

def keep (copy : Copy) : Act Unit := modify fun v => { v with ledger := { v.ledger with copy } }

end Act

/-! ## Calls of the store, each failing in its outage

A call that finds the store offline has changed nothing. One that fails in its flush has placed its
record. -/

namespace Setting

def fetch (s : Setting) : Act (Option Record) := do
  if s.outage.get then throw (.fault .storeOffline)
  let v ← get
  Act.ofFault (v.store.fetch v.ledger.player houseTag)

def create (s : Setting) : Act Record := do
  if s.outage.create then throw (.fault .storeOffline)
  let v ← get
  set { v with log := v.log ++ [creationLine v.ledger.player houseTag] }
  let (record, store) ← Act.ofFault (v.store.create (← Act.ofClock s.wall) v.ledger.player houseTag)
  modify fun v => { v with store }
  Act.flushed s.outage.createFlush
  return record

def write (s : Setting) (h : Holdings) : Act Unit := do
  if s.outage.put then throw (.fault .storeOffline)
  let v ← get
  let r := h.toRecord (← Act.ofClock s.wall)
  let store ← Act.ofFault (v.store.write r.updatedAt v.ledger.player houseTag r.houses r.lastHouse)
  set { v with store }
  Act.flushed s.outage.putFlush

/-- The terms of the house the ledger is bound to. -/
def terms (s : Setting) : Act House := do
  let house ← Act.house
  match s.catalog.find? house with
  | some h => return h
  | none => throw (.fault (.unknownHouse house))

end Setting

end HouseLease
