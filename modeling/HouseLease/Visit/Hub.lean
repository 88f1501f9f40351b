/-
  HouseLease.Visit.Hub — ways in and out: leaving a house, leaving it for the hub, and going
  back from the hub to the house last left.
-/

import HouseLease.Visit.Ledger

namespace HouseLease.Hub

open Act

/-- Goes to the hub and remembers the bound house for the way back, if the player has a record. -/
def depart (s : Setting) : Act Point := do
  let _ ← Ledger.setLastHouse s (← Act.house)
  return s.catalog.hub

/-- Goes back to the house last left, if the catalog has it and the player still holds it; the
    ledger is then bound to it, and otherwise to the house it was bound to. -/
def goBack (s : Setting) : Act (Option Point) := do
  match ← Ledger.lastHouse s with
  | none => return none
  | some last =>
    match s.catalog.find? last with
    | none =>
      note .debug ((← Act.player) ++ " last left unknown house " ++ last)
      return none
    | some terms =>
      let previous ← Act.house
      Ledger.bind last
      if ← Ledger.hasHouse s then
        return some terms.fromHubPortal
      else
        Ledger.bind previous
        return none

/-- Walks out of the bound house. -/
def leave (s : Setting) : Act Point := return (← s.terms).exitPortal

end HouseLease.Hub
