/-
  HouseLease.Console.Session — errands, carried out and told in lines.

  An errand makes the calls of one visit and prints what they answer. It ends as soon as a
  call ends without an answer; the lines printed by then stay.
-/

import HouseLease.Console.Listing
import HouseLease.Console.Request
import HouseLease.Visit.Hub
import HouseLease.Visit.Trade

namespace HouseLease.Console

structure Session where
  visit : Visit
  /-- Oldest line first. -/
  printed : List String := []
  deriving DecidableEq, Repr

abbrev Talk := EStateM Stop Session

namespace Talk

def print (line : String) : Talk Unit := modify fun s => { s with printed := s.printed ++ [line] }

/-- Makes a call of the visit. -/
def ask {α : Type} (act : Act α) : Talk α := fun s =>
  match act s.visit with
  | .ok a visit => .ok a { s with visit }
  | .error stop visit => .error stop { s with visit }

/-- Opens a new ledger, and a purse with so much in it. -/
def seat (player house : String) (funds : Int64) : Talk Unit :=
  modify fun s => { s with visit := { s.visit with ledger := { player, house }, purse := funds } }

def balance : Talk String := return Text.numeral (← get).visit.purse.toInt

end Talk

open Talk

def idList (leases : List Lease) : String := ", ".intercalate (leases.map (·.house))

/-- The line of a player in the list of players. -/
def playerLine (s : Setting) (player : String) : Talk Unit := do
  seat player "" 0
  let leases ← ask (Ledger.leases s)
  print (flushLeft 16 player ++ " " ++ idList leases)

def playerLines (s : Setting) : List String → Talk Unit
  | [] => pure ()
  | player :: rest => do
    playerLine s player
    playerLines s rest

/-! ## Errands -/

namespace Session

def status (s : Setting) (player : String) : Talk Unit := do
  let terms ← ask s.terms
  print (terms.displayName ++ " (" ++ terms.id ++ ")")
  if ← ask (Ledger.hasHouse s) then
    let label ← ask (Ledger.expiryLabel s)
    print ("Fees paid until " ++ label.getD "")
    let days ← ask (Ledger.daysRemaining s)
    print ("Days left: " ++ Text.numeral (days.getD 0))
    if (← ask (Ledger.isFeeExpired s)).getD false then
      print "Fees have expired."
    let leases ← ask (Ledger.leases s)
    print ("Owned houses: " ++ idList leases)
  else
    print (player ++ " does not own this house.")

def buy (s : Setting) (player house : String) (funds : Int64) : Talk Unit := do
  match ← ask (Trade.buyHouse s) with
  | .alreadyOwned => print (player ++ " already owns " ++ house ++ ".")
  | .insufficientFunds cost =>
    print (house ++ " costs " ++ Text.numeral cost.toInt ++ "; only " ++ Text.numeral funds.toInt ++ " available.")
  | .bought cost _ =>
    let label ← ask (Ledger.expiryLabel s)
    print ("Bought " ++ house ++ " for " ++ Text.numeral cost.toInt ++ ". Fees paid until " ++ label.getD ""
      ++ ". Balance " ++ (← balance) ++ ".")
    let terms ← ask s.terms
    print ("Enter at " ++ terms.housePortal.text)

def pay (s : Setting) (player house : String) (days : UInt32) (funds : Int64) : Talk Unit := do
  match ← ask (Trade.prepayFees s days) with
  | .notOwned => print (player ++ " does not own " ++ house ++ ".")
  | .capReached maxDays => print ("Already " ++ Text.numeral maxDays.toNat ++ " days of fees paid in advance.")
  | .insufficientFunds days cost =>
    print (Text.numeral days.toNat ++ " days cost " ++ Text.numeral cost.toInt ++ "; only "
      ++ Text.numeral funds.toInt ++ " available.")
  | .paid days cost =>
    let label ← ask (Ledger.expiryLabel s)
    print ("Paid " ++ Text.numeral cost.toInt ++ " for " ++ Text.numeral days.toNat ++ " days. Fees paid until "
      ++ label.getD "" ++ ". Balance " ++ (← balance) ++ ".")

def exitCheck (s : Setting) (player house : String) : Talk Unit := do
  match ← ask (Trade.checkExitFees s) with
  | .notOwned => print (player ++ " does not own " ++ house ++ ".")
  | .current =>
    let exit ← ask (Hub.leave s)
    print ("Fees current. Exit to " ++ exit.text)
  | .charged cost =>
    print ("You have paid " ++ Text.numeral cost.toInt ++ " for your daily house fees. Balance " ++ (← balance) ++ ".")
  | .unpaid cost relocateTo =>
    print ("Your prepaid fees have expired and you do not have " ++ Text.numeral cost.toInt
      ++ " to pay for one more day. Moved to " ++ relocateTo.text ++ ".")

def goBack (s : Setting) (player : String) : Talk Unit := do
  match ← ask (Hub.goBack s) with
  | some portal => print ("Teleport to " ++ portal.text ++ " in " ++ (← ask Act.house))
  | none => print (player ++ " has no house to return to.")

/-- Sets the house last left, or tells it. -/
def lastHouse (s : Setting) (player : String) : Option String → Talk Unit
  | some value => do
    if ← ask (Ledger.setLastHouse s value) then
      print ("Last house set to " ++ value)
    else
      print (player ++ " has no house record; nothing stored.")
  | none => do
    let last ← ask (Ledger.lastHouse s)
    print (last.getD "(none)")

end Session

namespace Errand

def talk (s : Setting) : Errand → Talk Unit
  | .players => do
    let names := (← get).visit.store.players houseTag
    if names.isEmpty then
      print "No house records."
    playerLines s names
  | .status player house => do
    seat player house 0
    Session.status s player
  | .buy player house funds => do
    seat player house funds
    Session.buy s player house funds
  | .pay player house days funds => do
    seat player house funds
    Session.pay s player house days funds
  | .exitCheck player house funds => do
    seat player house funds
    Session.exitCheck s player house
  | .depart player house => do
    seat player house 0
    let hub ← ask (Hub.depart s)
    print ("Teleport to " ++ hub.text)
  | .goBack player => do
    seat player "" 0
    Session.goBack s player
  | .lastHouse player value => do
    seat player "" 0
    Session.lastHouse s player value

/-- How the errand ends on a store, and the session it leaves. -/
def run (s : Setting) (store : Store) (e : Errand) : Except Stop Unit × Session :=
  match e.talk s { visit := { store, ledger := { player := "", house := "" } } } with
  | .ok _ session => (.ok (), session)
  | .error stop session => (.error stop, session)

end Errand

end HouseLease.Console
