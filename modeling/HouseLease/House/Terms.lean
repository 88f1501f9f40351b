/-
  HouseLease.House.Terms — a house one can lease: its price and daily fee, how many days of
  fees may be paid ahead, and where its doors lead. `greyton` is the house the world ships
  with, `everlink` the hub every house leads to.
-/

import HouseLease.Text.Digits

namespace HouseLease

/-- A place on a named map. -/
structure Point where
  path : String
  x : Int32
  y : Int32
  deriving DecidableEq, Repr

/-- A tile of the map one stands on. -/
structure Tile where
  x : Int32
  y : Int32
  deriving DecidableEq, Repr

structure House where
  id : String
  displayName : String
  purchaseCost : Int64
  dailyFee : Int64
  /-- How many days of fees may be paid ahead. -/
  maxPrepaidDays : UInt32
  /-- Days credited by the purchase itself. -/
  prepaidDaysOnPurchase : UInt32
  /-- How far around `strayItemAnchor` stray items are looked for. -/
  strayItemRadius : UInt32
  housePortal : Point
  /-- Where one arrives from the hub. -/
  fromHubPortal : Point
  exitPortal : Point
  strayItemAnchor : Tile
  /-- Where a player goes who cannot pay lapsed fees. -/
  unpaidFeePosition : Tile
  deriving DecidableEq, Repr

def coordinates (x y : Int32) : String :=
  String.ofList ('(' :: Text.intText x.toInt ++ [',', ' '] ++ Text.intText y.toInt ++ [')'])

def Tile.text (t : Tile) : String := coordinates t.x t.y

def Point.text (p : Point) : String := p.path ++ " " ++ coordinates p.x p.y

def greytonMap : String := "/shattered_islands/strakewood_island/greyton/house/luxury_house"

def greyton : House where
  id := "greyton"
  displayName := "Greyton Luxury House"
  purchaseCost := 1500000
  dailyFee := 7500
  maxPrepaidDays := 120
  prepaidDaysOnPurchase := 10
  strayItemRadius := 4
  housePortal := ⟨greytonMap, 11, 26⟩
  fromHubPortal := ⟨greytonMap, 45, 26⟩
  exitPortal := ⟨"/shattered_islands/world_1111", 14, 15⟩
  strayItemAnchor := ⟨11, 23⟩
  unpaidFeePosition := ⟨11, 24⟩

def everlink : Point := ⟨"/shattered_islands/everlink/everlink_0102", 6, 7⟩

end HouseLease
