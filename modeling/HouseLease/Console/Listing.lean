/-
  HouseLease.Console.Listing — lists in columns. A column is filled up with blanks, counted
  in characters; a text that is too wide for it keeps its width.
-/

import HouseLease.House.Catalog

namespace HouseLease.Console

def flushLeft (width : Nat) (s : String) : String := String.ofList (s.toList.rightpad width ' ')

def flushRight (width : Nat) (s : String) : String := String.ofList (s.toList.leftpad width ' ')

/-- Costs and days of one house. -/
def houseLine (h : House) : String :=
  flushLeft 12 h.id ++ " " ++ flushLeft 24 h.displayName
    ++ " cost " ++ flushRight 9 (Text.numeral h.purchaseCost.toInt)
    ++ "  fee/day " ++ flushRight 6 (Text.numeral h.dailyFee.toInt)
    ++ "  prepaid " ++ flushRight 3 (Text.numeral h.prepaidDaysOnPurchase.toNat)
    ++ "/" ++ flushLeft 3 (Text.numeral h.maxPrepaidDays.toNat) ++ " days"

/-- All houses, and the hub. -/
def catalogLines (c : Catalog) : List String := c.houses.map houseLine ++ ["Hub: " ++ c.hub.text]

end HouseLease.Console
