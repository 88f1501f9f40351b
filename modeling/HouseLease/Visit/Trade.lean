/-
  HouseLease.Visit.Trade — the three calls that move money: buying the bound house, paying
  fees ahead, and the check at a guarded exit that collects a day of lapsed fees.

  The purse is debited before the ledger is written, and refunded when the write fails. A
  purse never pays more than it holds, nor a negative amount.
-/

import HouseLease.Visit.Ledger

namespace HouseLease

/-! ## The purse -/

namespace Purse

/-- The balance after paying `amount`, if it can be paid. -/
def pay? (balance amount : Int64) : Option Int64 :=
  if amount < 0 ∨ balance < amount then none else some (balance - amount)

def refund (balance amount : Int64) : Except Overflow Int64 := checked .add (balance.toInt + max amount.toInt 0)

end Purse

namespace Trade

open Act

def pay (amount : Int64) : Act Bool := do
  match Purse.pay? (← get).purse amount with
  | some purse =>
    modify fun v => { v with purse }
    return true
  | none => return false

def refund (amount : Int64) : Act Unit := do
  let purse ← ofOverflow (Purse.refund (← get).purse amount)
  modify fun v => { v with purse }

/-- Gives `cost` back if `act` meets a fault; any other stop passes through. -/
def orRefund {α : Type} (cost : Int64) (act : Act α) : Act α :=
  tryCatch act fun stop => do
    match stop with
    | .fault f =>
      note .warn ("refunding " ++ Text.numeral cost.toInt ++ " after failed ledger write: " ++ f.message)
      refund cost
    | .overflow _ | .noTime => pure ()
    throw stop

/-! ## The exit check -/

inductive FeeCheck where
  | notOwned
  | current
  /-- One more day was charged. -/
  | charged (cost : Int64)
  /-- The player cannot pay and is to be moved. -/
  | unpaid (cost : Int64) (relocateTo : Tile)
  deriving DecidableEq, Repr

def checkExitFees (s : Setting) : Act FeeCheck := do
  match ← Ledger.isFeeExpired s with
  | none => return .notOwned
  | some false => return .current
  | some true =>
    let cost ← Ledger.feeForDays s 1
    let player ← Act.player
    let house ← Act.house
    if ← pay cost then
      let _ ← orRefund cost (Ledger.payFees s 1)
      note .info (player ++ " paid " ++ Text.numeral cost.toInt ++ " for a day of fees on " ++ house)
      return .charged cost
    else
      let terms ← s.terms
      note .warn (player ++ " cannot pay " ++ Text.numeral cost.toInt ++ " in lapsed fees on " ++ house
        ++ "; relocating to " ++ terms.unpaidFeePosition.text)
      return .unpaid cost terms.unpaidFeePosition

/-! ## Buying -/

inductive Purchase where
  | alreadyOwned
  | insufficientFunds (cost : Int64)
  | bought (cost paidUntil : Int64)
  deriving DecidableEq, Repr

def buyHouse (s : Setting) : Act Purchase := do
  let terms ← s.terms
  let cost := terms.purchaseCost
  if ← Ledger.hasHouse s then return .alreadyOwned
  if !(← pay cost) then return .insufficientFunds cost
  let _ ← orRefund cost (Ledger.purchase s)
  match ← Ledger.paidUntil s with
  | some paidUntil => return .bought cost paidUntil
  | none => throw (.fault (.missingLease (← Act.house)))

/-! ## Paying ahead -/

inductive Prepay where
  | notOwned
  /-- As many days are paid ahead as may be. -/
  | capReached (maxDays : UInt32)
  | insufficientFunds (days : UInt32) (cost : Int64)
  | paid (days : UInt32) (cost : Int64)
  deriving DecidableEq, Repr

/-- Whole days that fit under the cap; part of a day already paid ahead counts against it. -/
def daysAllowed (maxDays : UInt32) (remaining : Int64) : UInt32 :=
  (uint32? (max ((daySeconds * maxDays.toNat - max remaining.toInt 0) / daySeconds) 0)).getD 0

def prepayFees (s : Setting) (requested : UInt32) : Act Prepay := do
  let terms ← s.terms
  match ← Ledger.secondsRemaining s with
  | none => return .notOwned
  | some remaining =>
    let days := min requested (daysAllowed terms.maxPrepaidDays remaining)
    if days = 0 then return .capReached terms.maxPrepaidDays
    let cost ← Ledger.feeForDays s days
    if !(← pay cost) then return .insufficientFunds days cost
    let _ ← orRefund cost (Ledger.payFees s days)
    return .paid days cost

end Trade

end HouseLease
