/-
  HouseLease.House.Catalog — the houses on offer, by id, and the hub.

  `Catalog.ofHouses` takes the houses one after the other and stops at the first that breaks
  a rule (`House.flaw?`) or repeats an id. The order of ids is that of their UTF-8 bytes.
-/

import HouseLease.House.Terms
import HouseLease.Text.Blank
import HouseLease.Text.Utf8

namespace HouseLease

/-- Why a list of houses makes no catalog. -/
inductive Flaw where
  | blankId
  | prepaidAboveCap (id : String) (prepaid cap : UInt32)
  | negativeCost (id : String)
  | duplicate (id : String)
  deriving DecidableEq, Repr

def Flaw.message : Flaw → String
  | .blankId => "house id is empty"
  | .prepaidAboveCap id prepaid cap =>
    id ++ ": prepaid_days_on_purchase (" ++ Text.numeral prepaid.toNat ++ ") exceeds max_prepaid_days ("
      ++ Text.numeral cap.toNat ++ ")"
  | .negativeCost id => id ++ ": costs must not be negative"
  | .duplicate id => "duplicate house id: " ++ id

/-- The first rule that the terms of a house break. -/
def House.flaw? (h : House) : Option Flaw :=
  if Text.allBlank h.id then some .blankId
  else if h.maxPrepaidDays < h.prepaidDaysOnPurchase then
    some (.prepaidAboveCap h.id h.prepaidDaysOnPurchase h.maxPrepaidDays)
  else if h.dailyFee < 0 ∨ h.purchaseCost < 0 then some (.negativeCost h.id)
  else none

structure Catalog where
  /-- In increasing order of id. -/
  houses : List House
  hub : Point
  deriving DecidableEq, Repr

namespace Catalog

def find? (c : Catalog) (id : String) : Option House := c.houses.find? (·.id == id)

def contains (c : Catalog) (id : String) : Bool := (c.find? id).isSome

/-- Puts `h` before the first house with a greater id. -/
def place (h : House) : List House → List House
  | [] => [h]
  | k :: ks => if Text.bytes h.id < Text.bytes k.id then h :: k :: ks else k :: place h ks

def add (c : Catalog) (h : House) : Except Flaw Catalog :=
  match h.flaw? with
  | some flaw => .error flaw
  | none => if c.contains h.id then .error (.duplicate h.id) else .ok { c with houses := place h c.houses }

def ofHouses (houses : List House) (hub : Point) : Except Flaw Catalog :=
  houses.foldlM add ⟨[], hub⟩

/-- The catalog the world ships with. -/
def shipped : Catalog := ⟨[greyton], everlink⟩

end Catalog

end HouseLease
