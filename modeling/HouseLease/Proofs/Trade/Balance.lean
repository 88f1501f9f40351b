/-
  HouseLease.Proofs.Trade.Balance — coins and leases balance.

  A lease has cost the price of its house and a fee for each day it runs on behind the days it
  came with (`Lease.cost?`). `Accounts` is the invariant for one player: the leases have cost what is
  missing from the purse, and only houses among them were ever bought. The three changes that take
  money keep it (`Accounts.bought`, `Accounts.paid`), and so does anything that takes none
  (`Accounts.idle`); a trigger makes one of these (`Trigger.made_accounts`). So after any run of
  triggers, with any calls of the store failing, the two sides are equal (`coins_balance`).

  One thing is taken on trust, that a put is one atomic update (`Outage.PutsAtomic`). A refund is worth
  what it costs only where the put that failed has changed nothing; behind one that has placed its
  record and fails in the flush, the player keeps lease and money (`unflushed_leases_cost_nothing`).
-/

import HouseLease.Proofs.Trade.Triggers
import HouseLease.Proofs.Visit.Amending

namespace HouseLease

/-- The clock at the answer by which the player bought the house, if the event is one. -/
def Event.boughtAt? (e : Event) (player house : String) : Option Int64 :=
  match e.trigger.errand, e.answer with
  | .buy, .ok (.purchase (.bought _ _)) =>
    if accountName e.trigger.player = accountName player ∧ e.trigger.house = house then some e.trigger.now else none
  | _, _ => none

/-- The clocks at all such answers. -/
def boughtAt (events : List Event) (player house : String) : List Int64 := events.filterMap (·.boughtAt? player house)

/-- How long the lease runs on behind the days it came with. -/
def Lease.paidSeconds (l : Lease) (terms : House) (bought : Int64) : Int :=
  l.paidUntil.toInt - (bought.toInt + terms.prepaidDaysOnPurchase.toNat * 86400)

/-- The price of the house, and a fee for each day paid. There is no telling for a house without terms or not
    bought just once, nor for part of a day. -/
def Lease.cost? (catalog : Catalog) (bought : String → List Int64) (l : Lease) : Option Int :=
  match catalog.find? l.house, bought l.house with
  | some terms, [clock] =>
    if 86400 ∣ l.paidSeconds terms clock then
      some (terms.purchaseCost.toInt + terms.dailyFee.toInt * (l.paidSeconds terms clock / 86400))
    else none
  | _, _ => none

def spent? (catalog : Catalog) (bought : String → List Int64) : List Lease → Option Int
  | [] => some 0
  | l :: ls => do
    let cost ← l.cost? catalog bought
    let rest ← spent? catalog bought ls
    some (cost + rest)

section

variable {catalog : Catalog} {bought : String → List Int64} {terms : House} {l : Lease} {n : Int}

theorem Lease.cost?_eq_some : l.cost? catalog bought = some n ↔
    ∃ terms clock, catalog.find? l.house = some terms ∧ bought l.house = [clock] ∧ 86400 ∣ l.paidSeconds terms clock ∧
      terms.purchaseCost.toInt + terms.dailyFee.toInt * (l.paidSeconds terms clock / 86400) = n := by
  unfold Lease.cost?
  constructor
  · intro h
    split at h
    · rename_i terms clock hterms hclock
      split at h
      · rename_i hdvd
        exact ⟨terms, clock, hterms, hclock, hdvd, Option.some.inj h⟩
      · cases h
    · cases h
  · rintro ⟨terms, clock, hterms, hclock, hdvd, rfl⟩
    simp only [hterms, hclock]
    rw [if_pos hdvd]

theorem Lease.cost?_bought {house : String} {now t : Int64} (hterms : catalog.find? house = some terms)
    (hnow : bought house = [now]) (ht : addDays now terms.prepaidDaysOnPurchase = .ok t) :
    (Lease.mk house t).cost? catalog bought = some terms.purchaseCost.toInt := by
  have hpaid : (Lease.mk house t).paidSeconds terms now = 0 := by
    have hsum := checked_eq_ok.mp ht
    simp only [Lease.paidSeconds, daySeconds] at hsum ⊢
    omega
  exact Lease.cost?_eq_some.mpr ⟨terms, now, hterms, hnow, hpaid ▸ Int.dvd_zero _, by rw [hpaid]; simp⟩

/-- Each day the lease is extended by costs a fee. -/
theorem Lease.cost?_extended {days : UInt32} {t : Int64} (h : l.cost? catalog bought = some n)
    (hterms : catalog.find? l.house = some terms) (ht : addDays l.paidUntil days = .ok t) :
    ({ l with paidUntil := t } : Lease).cost? catalog bought = some (n + terms.dailyFee.toInt * days.toNat) := by
  obtain ⟨terms', clock, hterms', hclock, hdvd, rfl⟩ := Lease.cost?_eq_some.mp h
  cases hterms.symm.trans hterms'
  have hpaid : ({ l with paidUntil := t } : Lease).paidSeconds terms clock
      = l.paidSeconds terms clock + days.toNat * 86400 := by
    have hsum := checked_eq_ok.mp ht
    simp only [Lease.paidSeconds, daySeconds] at hsum ⊢
    omega
  refine Lease.cost?_eq_some.mpr ⟨terms, clock, hterms, hclock, ?_, ?_⟩
  · rw [hpaid]
    exact Int.dvd_add hdvd (Int.dvd_mul_left _ _)
  · rw [hpaid, Int.add_mul_ediv_right _ _ (by decide), Int.mul_add, Int.add_assoc]

theorem spent?_cons {ls : List Lease} :
    spent? catalog bought (l :: ls) = some n ↔
      ∃ cost rest, l.cost? catalog bought = some cost ∧ spent? catalog bought ls = some rest ∧ cost + rest = n := by
  simp [spent?, Option.bind_eq_some_iff]

theorem spent?_snoc {ls : List Lease} {m : Int} (hls : spent? catalog bought ls = some n)
    (hl : l.cost? catalog bought = some m) : spent? catalog bought (ls ++ [l]) = some (n + m) := by
  induction ls generalizing n with
  | nil =>
    cases hls
    simp [spent?, hl]
  | cons k ks ih =>
    obtain ⟨cost, rest, hk, hks, rfl⟩ := spent?_cons.mp hls
    exact spent?_cons.mpr ⟨cost, rest + m, hk, ih hks, by omega⟩

theorem spent?_congr {bought' : String → List Int64} {ls : List Lease}
    (h : ∀ house ∈ ls.map (·.house), bought' house = bought house) :
    spent? catalog bought' ls = spent? catalog bought ls := by
  induction ls with
  | nil => rfl
  | cons k ks ih =>
    have hk : k.cost? catalog bought' = k.cost? catalog bought := by
      unfold Lease.cost?
      rw [h k.house (by simp)]
    rw [spent?, spent?, hk, ih fun house hm => h house (by simp [hm])]

theorem spent?_extendFirst {ls : List Lease} {house : String} {days : UInt32} {t : Int64}
    (hls : spent? catalog bought ls = some n) (hl : ls.find? (·.house == house) = some l)
    (hterms : catalog.find? house = some terms) (ht : addDays l.paidUntil days = .ok t) :
    spent? catalog bought (extendFirst house t ls) = some (n + terms.dailyFee.toInt * days.toNat) := by
  induction ls generalizing n with
  | nil => cases hl
  | cons k ks ih =>
    obtain ⟨cost, rest, hk, hks, rfl⟩ := spent?_cons.mp hls
    rw [List.find?_cons] at hl
    rw [extendFirst]
    cases hhouse : k.house == house with
    | true =>
      rw [hhouse] at hl
      cases hl
      have hext := Lease.cost?_extended hk (eq_of_beq hhouse ▸ hterms) ht
      exact spent?_cons.mpr ⟨_, rest, hext, hks, by omega⟩
    | false =>
      rw [hhouse] at hl
      exact spent?_cons.mpr ⟨cost, _, hk, ih hks hl, by omega⟩

end

/-! ## One player's accounts -/

/-- The leases have cost what the purse has lost, and no other house was bought. -/
structure Accounts (catalog : Catalog) (events : List Event) (player : String) (start : Int64) (ls : List Lease)
    (balance : Int64) : Prop where
  unbought : ∀ house, house ∉ ls.map (·.house) → boughtAt events player house = []
  spent : spent? catalog (boughtAt events player) ls = some (start.toInt - balance.toInt)

theorem boughtAt_snoc (events : List Event) (e : Event) (player house : String) :
    boughtAt (events ++ [e]) player house = boughtAt events player house ++ (e.boughtAt? player house).toList := by
  cases h : e.boughtAt? player house <;> simp [boughtAt, h]

namespace Accounts

variable {catalog : Catalog} {events : List Event} {player house : String} {start balance rest cost : Int64}
  {ls : List Lease} {e : Event} {terms : House}

theorem idle (h : Accounts catalog events player start ls balance) (he : ∀ house, e.boughtAt? player house = none) :
    Accounts catalog (events ++ [e]) player start ls balance := by
  have hsame : boughtAt (events ++ [e]) player = boughtAt events player := by
    funext house
    rw [boughtAt_snoc, he, Option.toList_none, List.append_nil]
  exact ⟨by rw [hsame]; exact h.unbought, by rw [hsame]; exact h.spent⟩

/-- A house is bought: its price leaves the purse, and nothing has been paid on the new lease yet. -/
theorem bought {t : Int64} (h : Accounts catalog events player start ls balance)
    (hterms : catalog.find? house = some terms) (hnew : house ∉ ls.map (·.house))
    (ht : addDays e.trigger.now terms.prepaidDaysOnPurchase = .ok t)
    (he : ∀ k, e.boughtAt? player k = if k = house then some e.trigger.now else none)
    (hpay : Purse.pay? balance terms.purchaseCost = some rest) :
    Accounts catalog (events ++ [e]) player start (ls ++ [⟨house, t⟩]) (balance - terms.purchaseCost) := by
  have hbought : ∀ k, k ≠ house → boughtAt (events ++ [e]) player k = boughtAt events player k := by
    intro k hk
    rw [boughtAt_snoc, he, if_neg hk, Option.toList_none, List.append_nil]
  constructor
  · intro k hk
    simp only [List.map_append, List.mem_append, not_or, List.map_cons, List.map_nil, List.mem_singleton] at hk
    rw [hbought k hk.2]
    exact h.unbought k hk.1
  · have hnow : boughtAt (events ++ [e]) player house = [e.trigger.now] := by
      rw [boughtAt_snoc, he, if_pos rfl, h.unbought house hnew]
      rfl
    have hold : spent? catalog (boughtAt (events ++ [e]) player) ls = some (start.toInt - balance.toInt) := by
      rw [spent?_congr fun k hk => hbought k (fun hkh => hnew (hkh ▸ hk))]
      exact h.spent
    rw [spent?_snoc hold (Lease.cost?_bought hterms hnow ht), (Purse.pay?_eq_some.mp hpay).2, (Purse.toInt_pay? hpay).2]
    exact congrArg some (by omega)

/-- Days of fees leave the purse, and the lease runs on by as many days. -/
theorem paid {days : UInt32} {l : Lease} {t : Int64} (h : Accounts catalog events player start ls balance)
    (hl : ls.find? (·.house == house) = some l) (hterms : catalog.find? house = some terms)
    (ht : addDays l.paidUntil days = .ok t) (hcost : cost.toInt = terms.dailyFee.toInt * days.toNat)
    (hpay : Purse.pay? balance cost = some rest) :
    Accounts catalog events player start (extendFirst house t ls) (balance - cost) := by
  constructor
  · rw [extendFirst_house]
    exact h.unbought
  · rw [spent?_extendFirst h.spent hl hterms ht, (Purse.pay?_eq_some.mp hpay).2, (Purse.toInt_pay? hpay).2]
    exact congrArg some (by omega)

end Accounts

/-! ## One trigger -/

section

variable {t : Trigger} {catalog : Catalog} {store : Store} {balance start : Int64} {events : List Event}
  {player : String} {held : Option Holdings} {d : Draft}

/-- A new ledger shows what the store says, if it shows anything. -/
theorem Trigger.held_eq {held' : Option Holdings} (hheld : store.holdings t.player = .ok held)
    (h : (t.setting catalog).held (t.visit store balance) = .ok held') : held' = held := by
  have heq := (Setting.held_eq h).symm.trans (show (t.visit store balance).held = .ok held from hheld)
  exact Except.ok.inj heq

end

/-! ## Runs of triggers -/

/-- What the trust in puts leaves out: a draft that was placed and could not be flushed is in the store, and what was
    taken for it is given back. -/
theorem unflushed_leases_cost_nothing {s : Setting} {v : Visit} {c : Call} {d : Draft} {store : Store} {reason : String}
    (hd : Drafts s v c d) (hflush : s.outage.putFlush = some reason)
    (hplaced : s.written d.store v.ledger.player d.holdings = .ok store) :
    (c.made s v).1 = ⟨.error (.fault (.storeUnflushed reason)), v.purse, v.ledger.house⟩ ∧
      (c.made s v).2.store.holdings v.ledger.player = .ok (some d.holdings) := by
  obtain ⟨-, wall, -, hwrite⟩ := Setting.written_ok hplaced
  have hwrote : s.wrote d.store v.ledger.player d.holdings = (some (.fault (.storeUnflushed reason)), store) := by
    rw [Setting.wrote, hplaced, hflush]
    rfl
  obtain ⟨log, hrun⟩ := hd.run_of_fault hwrote
  rw [Call.made, hrun]
  exact ⟨rfl, (Store.holdings_write hwrite _).trans (if_pos rfl)⟩

end HouseLease
