/-
  HouseLease.Record.Holdings — what a player holds: leases in the order of purchase, and the
  house last left for the hub. Where a house is listed more than once, its first lease counts.
-/

namespace HouseLease

/-- A house held and the moment its prepaid fees run out. -/
structure Lease where
  house : String
  paidUntil : Int64
  deriving DecidableEq, Repr

structure Holdings where
  leases : List Lease
  lastHouse : Option String
  deriving DecidableEq, Repr

/-- Moves the expiry of the first lease on `house`. -/
def extendFirst (house : String) (paidUntil : Int64) : List Lease → List Lease
  | [] => []
  | l :: ls => if l.house == house then { l with paidUntil } :: ls else l :: extendFirst house paidUntil ls

namespace Holdings

/-- No lease and no house left. -/
def empty : Holdings := ⟨[], none⟩

/-- When the fees paid for `house` run out. -/
def paidUntil? (h : Holdings) (house : String) : Option Int64 :=
  (h.leases.find? (·.house == house)).map (·.paidUntil)

def owns (h : Holdings) (house : String) : Bool := (h.paidUntil? house).isSome

def acquire (h : Holdings) (house : String) (paidUntil : Int64) : Holdings :=
  { h with leases := h.leases ++ [⟨house, paidUntil⟩] }

def extend (h : Holdings) (house : String) (paidUntil : Int64) : Holdings :=
  { h with leases := extendFirst house paidUntil h.leases }

def leave (h : Holdings) (house : Option String) : Holdings := { h with lastHouse := house }

end Holdings

theorem find?_extendFirst (house : String) (t : Int64) (ls : List Lease) :
    (extendFirst house t ls).find? (·.house == house)
      = (ls.find? (·.house == house)).map ({ · with paidUntil := t }) := by
  induction ls with
  | nil => rfl
  | cons l ls ih =>
    rw [extendFirst]
    by_cases h : (l.house == house) = true
    · simp [h]
    · simp [h, ih]

theorem extendFirst_house (house : String) (t : Int64) (ls : List Lease) :
    (extendFirst house t ls).map (·.house) = ls.map (·.house) := by
  induction ls with
  | nil => rfl
  | cons l ls ih =>
    rw [extendFirst]
    split <;> simp [ih]

end HouseLease
