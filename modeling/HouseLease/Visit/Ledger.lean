/-
  HouseLease.Visit.Ledger — a player's lease on the bound house: questions and changes.

  The record is fetched at first use (`consult`); only a purchase creates one (`enrol`). A
  change is made in the ledger's copy first and then written whole (`commit`), house list
  and last house together. A write that fails leaves the changed copy behind. The questions
  that need the time read the clock before the record.
-/

import HouseLease.Visit.Act

namespace HouseLease.Ledger

open Act

/-! ## The record -/

/-- What the player holds, or `none` for a player without a record. -/
def consult (s : Setting) : Act (Option Holdings) := do
  match (← get).ledger.copy with
  | .present h => return some h
  | .absent => return none
  | .unread =>
    match ← s.fetch with
    | some record =>
      let h ← ofFault (Holdings.ofRecord record)
      note .debug ("loaded " ++ Text.numeral h.leases.length ++ " houses for " ++ (← Act.player))
      keep (.present h)
      return some h
    | none =>
      note .debug ("no " ++ houseTag ++ " record for " ++ (← Act.player))
      keep .absent
      return none

/-- What the player holds, a record being created for one who has none. -/
def enrol (s : Setting) : Act Holdings := do
  match ← consult s with
  | some h => return h
  | none =>
    let h ← ofFault (Holdings.ofRecord (← s.create))
    keep (.present h)
    return h

/-- Makes `h` what the player holds. -/
def commit (s : Setting) (h : Holdings) : Act Unit := do
  keep (.present h)
  s.write h

/-! ## Questions -/

/-- When the fees for the bound house run out, for a player who holds it. -/
def paidUntil (s : Setting) : Act (Option Int64) := do
  let held ← consult s
  return held.bind (·.paidUntil? (← Act.house))

def hasHouse (s : Setting) : Act Bool := return (← paidUntil s).isSome

/-- Fees hold through the second they run out in. -/
def isFeeExpired (s : Setting) : Act (Option Bool) := do
  let now ← ofClock s.now
  return (← paidUntil s).map (· < now)

/-- Negative once the fees have lapsed. -/
def secondsRemaining (s : Setting) : Act (Option Int64) := do
  let now ← ofClock s.now
  match ← paidUntil s with
  | some t => return some (← ofOverflow (checked .subtract (t.toInt - now.toInt)))
  | none => return none

/-- Whole days, rounded down. -/
def daysRemaining (s : Setting) : Act (Option Int) :=
  return (← secondsRemaining s).map (·.toInt / daySeconds)

def expiryLabel (s : Setting) : Act (Option String) := do
  match ← paidUntil s with
  | none => return none
  | some t =>
    match HouseLease.expiryLabel t with
    | some label => return some label
    | none => throw (.fault (.timestampOutOfRange t))

def leases (s : Setting) : Act (List Lease) := return ((← consult s).map (·.leases)).getD []

def lastHouse (s : Setting) : Act (Option String) := return (← consult s).bind (·.lastHouse)

/-- The fee for so many days of the bound house, held or not. -/
def feeForDays (s : Setting) (days : UInt32) : Act Int64 := do
  let terms ← s.terms
  ofOverflow (checked .multiply (terms.dailyFee.toInt * days.toNat))

/-! ## Changes -/

def bind (house : String) : Act Unit := modify fun v => { v with ledger := { v.ledger with house } }

/-- Records the purchase of the bound house and its prepaid days; `false` for a house already held. -/
def purchase (s : Setting) : Act Bool := do
  let terms ← s.terms
  let held ← enrol s
  let player ← Act.player
  let house ← Act.house
  if held.owns house then
    note .warn (player ++ " already owns " ++ house ++ "; purchase ignored")
    return false
  let paidUntil ← ofOverflow (addDays (← ofClock s.now) terms.prepaidDaysOnPurchase)
  commit s (held.acquire house paidUntil)
  note .info (player ++ " purchased " ++ house ++ " (fees paid until " ++ Text.numeral paidUntil.toInt ++ ")")
  return true

/-- Extends the lease by days of fees, however many; `false` for a house not held. -/
def payFees (s : Setting) (days : UInt32) : Act Bool := do
  let held ← consult s
  let player ← Act.player
  let house ← Act.house
  match held, held.bind (·.paidUntil? house) with
  | some held, some t =>
    let paidUntil ← ofOverflow (addDays t days)
    commit s (held.extend house paidUntil)
    note .info (player ++ " paid " ++ Text.numeral days.toNat ++ " days of fees for " ++ house ++ " (now paid until "
      ++ Text.numeral paidUntil.toInt ++ ")")
    return true
  | _, _ =>
    note .debug (player ++ " does not own " ++ house ++ "; fee payment skipped")
    return false

/-- Remembers the house last left; `false` for a player without a record. -/
def setLastHouse (s : Setting) (value : String) : Act Bool := do
  match ← consult s with
  | some held =>
    commit s (held.leave (some value))
    return true
  | none =>
    note .debug ("no record for " ++ (← Act.player) ++ "; last house not stored")
    return false

end HouseLease.Ledger
