/-
  HouseLease.Proofs.Trade.Prepaying — days of fees, sold ahead.

  At a clock and for a lease there is room for so many whole days under the cap (`Trade.room`): what is
  left of the cap, rounded down, where a lease that has lapsed takes none of it. As many as are asked
  for and fit are sold (`Prepaying.sale`), so the sale is made or refused for days that are known
  beforehand (`prepay_sells_what_fits`).

  While the lease has not lapsed, days that are sold take just their own room (`Trade.room_after`), so
  it does not matter whether they are sold at once or in two parts (`prepaid_in_parts`). On a lapsed
  lease it does: the days up to now take no room, and a part of them can be asked for again.
-/

import HouseLease.Proofs.Visit.Amending
import HouseLease.Proofs.Visit.Renewal
import HouseLease.Proofs.World.Reach

namespace HouseLease

/-! ## Room under the cap -/

namespace Trade

/-- The whole days that can still be paid ahead at `now`, for a lease that ends at `paidUntil`. -/
def room (cap : UInt32) (now paidUntil : Int64) : Nat :=
  ((cap.toNat * 86400 - max (paidUntil.toInt - now.toInt) 0) / 86400).toNat

variable {cap : UInt32} {now t t' : Int64} {days : Nat}

theorem toNat_min (a b : UInt32) : (min a b).toNat = min a.toNat b.toNat := by
  show (if a ≤ b then a else b).toNat = _
  by_cases hle : a ≤ b
  · rw [if_pos hle, Nat.min_eq_left (UInt32.le_iff_toNat_le.mp hle)]
  · rw [if_neg hle, Nat.min_eq_right (UInt32.le_iff_toNat_le.mp (UInt32.le_of_lt (UInt32.not_le.mp hle)))]

theorem daysAllowed_eq_room {remaining : Int64} (hleft : checked .subtract (t.toInt - now.toInt) = .ok remaining) :
    (daysAllowed cap remaining).toNat = room cap now t := by
  have hallowed := uint32?_eq_some.mp (daysAllowed_converts cap remaining)
  have hremaining := checked_eq_ok.mp hleft
  unfold room
  unfold daySeconds at hallowed
  omega

/-- As many days are dealt with as are asked for and fit. -/
theorem days_eq (requested : UInt32) {remaining : Int64} (hleft : checked .subtract (t.toInt - now.toInt) = .ok remaining) :
    (min requested (daysAllowed cap remaining)).toNat = min requested.toNat (room cap now t) := by
  rw [toNat_min, daysAllowed_eq_room hleft]

theorem exists_days (cap requested : UInt32) {remaining : Int64}
    (hleft : checked .subtract (t.toInt - now.toInt) = .ok remaining) :
    ∃ days, days = min requested (daysAllowed cap remaining) ∧ days.toNat = min requested.toNat (room cap now t) :=
  ⟨_, rfl, days_eq requested hleft⟩

theorem room_fits (hle : days ≤ room cap now t) (hpos : 0 < days) :
    86400 * days + max (t.toInt - now.toInt) 0 ≤ cap.toNat * 86400 := by
  unfold room at hle
  omega

/-- For a lease that has not lapsed there is no room for part of a day more. -/
theorem room_full (cap : UInt32) (hcurrent : now ≤ t) :
    cap.toNat * 86400 - (t.toInt - now.toInt) < 86400 * (room cap now t + 1) := by
  have hcurrent := Int64.le_iff_toInt_le.mp hcurrent
  unfold room
  omega

theorem room_after (hcurrent : now ≤ t) (hle : days ≤ room cap now t) (ht : t'.toInt = t.toInt + 86400 * days) :
    room cap now t' = room cap now t - days := by
  have hcurrent := Int64.le_iff_toInt_le.mp hcurrent
  unfold room at hle ⊢
  omega

end Trade

/-! ## Sales -/

/-- The ledger shows a lease that ends at `p`, a catalog that was accepted has terms for the house, and there is a
    clock. -/
structure Leased (s : Setting) (v : Visit) (terms : House) (h : Holdings) (now p : Int64) : Prop where
  accepted : ∃ houses hub, Catalog.ofHouses houses hub = .ok s.catalog
  terms : s.catalog.find? v.ledger.house = some terms
  held : s.held v = .ok (some h)
  lease : h.paidUntil? v.ledger.house = some p
  clock : s.now = some now

/-- Days can be paid ahead on a lease that ends at `p`: the store serves. -/
structure Prepaying (s : Setting) (v : Visit) (terms : House) (h : Holdings) (now p : Int64) : Prop
    extends Leased s v terms h now p where
  serves : s.Serves

/-- What asking for days comes to when `days` of them fit, at `cost`. -/
inductive Sale (s : Setting) (v : Visit) (terms : House) (h : Holdings) (p : Int64) (days : UInt32) (cost : Int64) :
    Trade.Prepay → Visit → Prop
  | full {w} : days = 0 → Looked s v w → Sale s v terms h p days cost (.capReached terms.maxPrepaidDays) w
  | short {w} : days ≠ 0 → v.purse < cost → Looked s v w → Sale s v terms h p days cost (.insufficientFunds days cost) w
  | made {t store log} :
      days ≠ 0 → cost ≤ v.purse → addDays p days = .ok t →
      s.written v.store v.ledger.player (h.extend v.ledger.house t) = .ok store →
      Sale s v terms h p days cost (.paid days cost)
        ((v.copied store (h.extend v.ledger.house t) log).withPurse (v.purse - cost))

section

variable {s : Setting} {v : Visit} {terms : House} {h : Holdings} {now p : Int64} {requested days : UInt32} {cost : Int64}

theorem Call.made_of_ok {c : Call} {a : Answer} {w : Visit} (hrun : c.run s v = .ok a w) :
    c.made s v = (⟨.ok a, w.purse, w.ledger.house⟩, w) := by
  rw [Call.made, hrun]

theorem Call.made_of_error {c : Call} {e : Stop} {w : Visit} (hrun : c.run s v = .error e w) :
    c.made s v = (⟨.error e, w.purse, w.ledger.house⟩, w) := by
  rw [Call.made, hrun]

theorem Call.answer_of_error {c : Call} {e : Stop} {w : Visit} (hrun : c.run s v = .error e w) :
    (c.made s v).1.answer = .error e := by
  rw [Call.made_of_error hrun]

/-- In a setting that serves a draft is written, if the record is not too long. -/
theorem Drafts.served {c : Call} {d : Draft} (hd : Drafts s v c d) (hs : s.Serves)
    (hfit : (c.made s v).1.answer ≠ .error (.fault .recordTooLong)) :
    ∃ store log, s.written d.store v.ledger.player d.holdings = .ok store ∧
      c.run s v = .ok d.answer ((v.copied store d.holdings log).withPurse (v.purse - d.cost)) := by
  rcases hs.wrote d.store v.ledger.player d.holdings with hw | ⟨store, hw, -⟩
  · obtain ⟨log, hrun⟩ := hd.run_of_fault hw
    exact absurd (Call.answer_of_error hrun) hfit
  · obtain ⟨log, hrun⟩ := hd.run_of_wrote hw
    exact ⟨store, log, (Setting.wrote_eq_none.mp hw).1, hrun⟩

namespace Leased

theorem fee_nonneg (hl : Leased s v terms h now p) : 0 ≤ terms.dailyFee.toInt := by
  obtain ⟨houses, hub, hcatalog⟩ := hl.accepted
  exact House.dailyFee_nonneg ((Catalog.flawless_ofHouses hcatalog).flaw? hl.terms)

theorem cost_nonneg (hl : Leased s v terms h now p) (hcost : cost.toInt = terms.dailyFee.toInt * days.toNat) :
    0 ≤ cost := by
  refine Int64.le_iff_toInt_le.mpr ?_
  rw [hcost]
  exact Int.mul_nonneg hl.fee_nonneg (Int.natCast_nonneg _)

/-- Whatever lease the ledger shows on the house, it is this one. -/
theorem same_end (hl : Leased s v terms h now p) {h' : Holdings} {p' : Int64} (hh : s.held v = .ok (some h'))
    (hlease : h'.paidUntil? v.ledger.house = some p') : p' = p := by
  cases hl.held.symm.trans hh
  exact Option.some.inj (hlease.symm.trans hl.lease)

/-- A look does not touch the lease. -/
theorem looked {w : Visit} (hl : Leased s v terms h now p) (hlook : Looked s v w) : Leased s w terms h now p :=
  ⟨hl.accepted, hlook.house ▸ hl.terms, hlook.held.trans hl.held, hlook.house ▸ hl.lease, hl.clock⟩

theorem prepay_full {remaining : Int64} (hl : Leased s v terms h now p)
    (hleft : checked .subtract (p.toInt - now.toInt) = .ok remaining)
    (hzero : min requested (Trade.daysAllowed terms.maxPrepaidDays remaining) = 0) :
    ∃ w, (Call.prepayFees requested).run s v = .ok (.prepay (.capReached terms.maxPrepaidDays)) w ∧ Looked s v w := by
  obtain ⟨log, hseconds⟩ := Ledger.secondsRemaining_ok hl.clock hl.held hl.lease hleft
  refine ⟨_, ?_, .consulted hl.held log⟩
  simp [Call.run, Trade.prepayFees, Setting.terms_apply, hl.terms, hseconds, hzero]

theorem prepay_short {remaining : Int64} (hl : Leased s v terms h now p)
    (hleft : checked .subtract (p.toInt - now.toInt) = .ok remaining)
    (hdays : days = min requested (Trade.daysAllowed terms.maxPrepaidDays remaining)) (hzero : days ≠ 0)
    (hmul : checked .multiply (terms.dailyFee.toInt * days.toNat) = .ok cost) (hshort : v.purse < cost) :
    ∃ w, (Call.prepayFees requested).run s v = .ok (.prepay (.insufficientFunds days cost)) w ∧ Looked s v w := by
  obtain ⟨log, hseconds⟩ := Ledger.secondsRemaining_ok hl.clock hl.held hl.lease hleft
  have hpay : Purse.pay? v.purse cost = none := by
    rw [Purse.pay?, if_pos (Or.inr hshort)]
  refine ⟨_, ?_, .consulted hl.held log⟩
  simp [Call.run, Trade.prepayFees, Setting.terms_apply, hl.terms, hseconds, ← hdays, hzero, Ledger.feeForDays, hmul,
    Trade.pay_apply, hpay]

/-- What can cut the call off: the time left, the fee for the days, and the new end of the lease. -/
theorem prepay_inRange (hl : Leased s v terms h now p)
    (hleft : ∀ op, checked .subtract (p.toInt - now.toInt) ≠ .error op)
    (hahead : ∀ (remaining : Int64) (days : UInt32), checked .subtract (p.toInt - now.toInt) = .ok remaining →
      days = min requested (Trade.daysAllowed terms.maxPrepaidDays remaining) → days ≠ 0 →
      (∀ op, checked .multiply (terms.dailyFee.toInt * days.toNat) ≠ .error op) ∧ ∀ op, addDays p days ≠ .error op)
    (op : Overflow) : ((Call.prepayFees requested).made s v).1.answer ≠ .error (.overflow op) := by
  intro hcut
  obtain ⟨a, ha⟩ := Call.exists_aborts (Call.run_of_made hcut)
  cases ha with
  | prepaidTime _ hnow hh hlease hsub =>
    cases hl.clock.symm.trans hnow
    obtain rfl := hl.same_end hh hlease
    exact hleft _ hsub
  | prepaidFee hterms hnow hh hlease hsub hdays hne hfee =>
    cases hl.terms.symm.trans hterms
    cases hl.clock.symm.trans hnow
    obtain rfl := hl.same_end hh hlease
    exact (hahead _ _ hsub hdays hne).1 _ hfee
  | prepaidEnd hterms hnow hh hlease hsub hdays hne _ _ hend =>
    cases hl.terms.symm.trans hterms
    cases hl.clock.symm.trans hnow
    obtain rfl := hl.same_end hh hlease
    exact (hahead _ _ hsub hdays hne).2 _ hend

end Leased

namespace Prepaying

/-- Unless it is cut off, the call knows the time left. -/
theorem left (hp : Prepaying s v terms h now p)
    (hflow : ∀ op, ((Call.prepayFees requested).made s v).1.answer ≠ .error (.overflow op)) :
    ∃ remaining, checked .subtract (p.toInt - now.toInt) = .ok remaining := by
  cases hleft : checked .subtract (p.toInt - now.toInt) with
  | ok remaining => exact ⟨remaining, rfl⟩
  | error op =>
    obtain ⟨rfl, -⟩ := checked_eq_error.mp hleft
    have haborts : Aborts s v (.prepayFees requested) _ := .prepaidTime hp.terms hp.clock hp.held hp.lease hleft
    obtain ⟨w, hrun, -⟩ := haborts.run
    exact absurd (Call.answer_of_error hrun) (hflow _)

/-- As many days are sold as are asked for and fit. -/
theorem sale (hp : Prepaying s v terms h now p)
    (hflow : ∀ op, ((Call.prepayFees requested).made s v).1.answer ≠ .error (.overflow op))
    (hfit : ((Call.prepayFees requested).made s v).1.answer ≠ .error (.fault .recordTooLong)) :
    ∃ days cost o w, days.toNat = min requested.toNat (Trade.room terms.maxPrepaidDays now p) ∧
      cost.toInt = terms.dailyFee.toInt * days.toNat ∧ (Call.prepayFees requested).run s v = .ok (.prepay o) w ∧
      Sale s v terms h p days cost o w := by
  obtain ⟨remaining, hleft⟩ := hp.left hflow
  obtain ⟨days, hdays, hroom⟩ := Trade.exists_days terms.maxPrepaidDays requested hleft
  by_cases hzero : days = 0
  · obtain ⟨w, hrun, hlook⟩ := hp.prepay_full hleft (hdays.symm.trans hzero)
    exact ⟨days, 0, _, w, hroom, by rw [hzero]; simp, hrun, .full hzero hlook⟩
  cases hmul : checked .multiply (terms.dailyFee.toInt * days.toNat) with
  | error op =>
    obtain ⟨rfl, -⟩ := checked_eq_error.mp hmul
    obtain ⟨w, hrun, -⟩ := (Aborts.prepaidFee hp.terms hp.clock hp.held hp.lease hleft hdays hzero hmul).run
    exact absurd (Call.answer_of_error hrun) (hflow _)
  | ok cost =>
    have hcost := checked_eq_ok.mp hmul
    by_cases hfunds : cost ≤ v.purse
    · have hpay : Purse.pay? v.purse cost = some (v.purse - cost) :=
        Purse.pay?_eq_some.mpr ⟨⟨hp.cost_nonneg hcost, hfunds⟩, rfl⟩
      cases hend : addDays p days with
      | error op =>
        obtain ⟨rfl, -⟩ := checked_eq_error.mp hend
        obtain ⟨w, hrun, -⟩ := (Aborts.prepaidEnd hp.terms hp.clock hp.held hp.lease hleft hdays hzero hmul hpay hend).run
        exact absurd (Call.answer_of_error hrun) (hflow _)
      | ok t =>
        have hdraft := Drafts.prepayFees hp.terms hp.held hp.lease hp.clock hleft hdays hzero hmul hpay hend
        obtain ⟨store, log, hw, hrun⟩ := hdraft.served hp.serves hfit
        exact ⟨days, cost, _, _, hroom, hcost, hrun, .made hzero hfunds hend hw⟩
    · have hshort := Int64.not_le.mp hfunds
      obtain ⟨w, hrun, hlook⟩ := hp.prepay_short hleft hdays hzero hmul hshort
      exact ⟨days, cost, _, w, hroom, hcost, hrun, .short hzero hshort hlook⟩

end Prepaying

/-- What comes of asking for days, by the days that fit and what they cost. -/
structure SellsDays (s : Setting) (v : Visit) (terms : House) (h : Holdings) (now p : Int64) (requested days : UInt32)
    (cost : Int64) (made : Shown × Visit) : Prop where
  full : made.1.answer = .ok (.prepay (.capReached terms.maxPrepaidDays)) ↔ days = 0
  short : made.1.answer = .ok (.prepay (.insufficientFunds days cost)) ↔ days ≠ 0 ∧ v.purse < cost
  paid : made.1.answer = .ok (.prepay (.paid days cost)) ↔ days ≠ 0 ∧ cost ≤ v.purse
  /-- Store and purse are left alone by a refusal. -/
  refused : days = 0 ∨ v.purse < cost → Looked s v made.2
  charged : days ≠ 0 → cost ≤ v.purse → made.2.purse.toInt = v.purse.toInt - cost.toInt
  /-- The lease is paid ahead under the cap, and a day more would not have fit. -/
  stored : days ≠ 0 → cost ≤ v.purse → ∃ t : Int64,
    made.2.store.holdings v.ledger.player = .ok (some (h.extend v.ledger.house t)) ∧
      t.toInt = p.toInt + 86400 * days.toNat ∧ t.toInt - now.toInt ≤ terms.maxPrepaidDays.toNat * 86400 ∧
      (now ≤ p → days < requested → terms.maxPrepaidDays.toNat * 86400 < t.toInt + 86400 - now.toInt)

theorem Sale.stored {o : Trade.Prepay} {w : Visit} (hs : Sale s v terms h p days cost o w)
    (hzero : days ≠ 0) (hfunds : cost ≤ v.purse) :
    ∃ t : Int64, w.store.holdings v.ledger.player = .ok (some (h.extend v.ledger.house t)) ∧
      t.toInt = p.toInt + 86400 * days.toNat := by
  cases hs with
  | full h => exact absurd h hzero
  | short _ h => exact absurd hfunds (Int64.not_le.mpr h)
  | @made t store log _ _ ht hw =>
    refine ⟨t, ?_, checked_eq_ok.mp ht⟩
    obtain ⟨-, wall, -, hwrite⟩ := Setting.written_ok hw
    show store.holdings v.ledger.player = _
    rw [Store.holdings_write hwrite, if_pos rfl]

/-- Of the days that are asked for, just those that fit are sold, if they can be paid. -/
theorem prepay_sells_what_fits (hp : Prepaying s v terms h now p)
    (hflow : ∀ op, ((Call.prepayFees requested).made s v).1.answer ≠ .error (.overflow op))
    (hfit : ((Call.prepayFees requested).made s v).1.answer ≠ .error (.fault .recordTooLong)) :
    ∃ (days : UInt32) (cost : Int64), days.toNat = min requested.toNat (Trade.room terms.maxPrepaidDays now p) ∧
      cost.toInt = terms.dailyFee.toInt * days.toNat ∧
      SellsDays s v terms h now p requested days cost ((Call.prepayFees requested).made s v) := by
  obtain ⟨days, cost, o, w, hdays, hcost, hrun, hsale⟩ := hp.sale hflow hfit
  rw [Call.made_of_ok hrun]
  refine ⟨days, cost, hdays, hcost, ?_, ?_, ?_, ?_, ?_, ?_⟩
  · cases hsale with
    | full hzero => simp [hzero]
    | short hzero | made hzero => simp [hzero]
  · cases hsale with
    | full hzero => simp [hzero]
    | short hzero hless => simp [hzero, hless]
    | made hzero hfunds => simp [hfunds]
  · cases hsale with
    | full hzero => simp [hzero]
    | short hzero hless => simp [hless]
    | made hzero hfunds => simp [hzero, hfunds]
  · rintro hno
    cases hsale with
    | full _ hlook | short _ _ hlook => exact hlook
    | made hzero hfunds => exact absurd hno (not_or.mpr ⟨hzero, Int64.not_lt.mpr hfunds⟩)
  · intro hzero hfunds
    cases hsale with
    | full h => exact absurd h hzero
    | short _ h => exact absurd hfunds (Int64.not_le.mpr h)
    | made => exact Int64.toInt_sub_of_le _ _ (hp.cost_nonneg hcost) hfunds
  · intro hzero hfunds
    obtain ⟨t, hstored, ht⟩ := hsale.stored hzero hfunds
    have hpos : 0 < days.toNat := Nat.pos_of_ne_zero fun h => hzero (UInt32.toNat_inj.mp h)
    have hcap := Trade.room_fits (hdays ▸ Nat.min_le_right _ _) hpos
    refine ⟨t, hstored, ht, by omega, ?_⟩
    intro hcurrent hless
    -- fewer days than were asked for: all that there was room for
    have hless := UInt32.lt_iff_toNat_lt.mp hless
    have hfull := Trade.room_full terms.maxPrepaidDays hcurrent
    omega

end

/-- Ann has bought the house in Greyton, with ten days of fees, and has a million. -/
def annsLease : Visit := (Call.buyHouse.made (shippedWith {}) annAtGreyton).2.withPurse 1000000

theorem annsLease_prepaying :
    Prepaying (shippedWith {}) annsLease greyton ⟨[⟨"greyton", 1700864000⟩], none⟩ 1700000000 1700864000 :=
  { accepted := ⟨[greyton], everlink, by decide +kernel⟩
    terms := by decide +kernel
    held := by decide +kernel
    lease := by decide +kernel
    clock := rfl
    serves := ⟨by decide, rfl⟩ }

/-- Asked for 500 days, she gets the 110 that fit on top of the ten. -/
theorem ann_pays_as_far_ahead_as_she_may :
    let made := (Call.prepayFees 500).made (shippedWith {}) annsLease
    made.1.answer = .ok (.prepay (.paid 110 825000)) ∧ ∃ days cost,
      days.toNat = min (500 : UInt32).toNat (Trade.room greyton.maxPrepaidDays 1700000000 1700864000) ∧
        cost.toInt = greyton.dailyFee.toInt * days.toNat ∧
        SellsDays (shippedWith {}) annsLease greyton ⟨[⟨"greyton", 1700864000⟩], none⟩ 1700000000 1700864000 500 days cost
          made := by
  intro made
  have hanswer : made.1.answer = .ok (.prepay (.paid 110 825000)) := by decide +kernel
  refine ⟨hanswer, prepay_sells_what_fits annsLease_prepaying (fun op => ?_) ?_⟩
  · exact hanswer ▸ nofun
  · exact hanswer ▸ nofun

/-! ## In parts -/

/-- The same setting, with this date for its writes. -/
def Setting.dated (s : Setting) (wall : Instant) : Setting := { s with wall := some wall }

/-- The store after these holdings were written for the player, on this date. -/
def Store.Takes (store : Store) (wall : Instant) (player : String) (h : Holdings) (store' : Store) : Prop :=
  store.write wall player houseTag (HouseList.write h.leases) h.lastHouse = .ok store'

/-- What was left when so many days, maybe none, had been paid ahead on a lease that ended at `p`: it ends at `t`, in
    a record written on one of these dates, and they can go on. -/
structure PaidAhead (walls : List Instant) (v : Visit) (terms : House) (h : Holdings) (now p : Int64) (days : Nat)
    (t : Int64) (s : Setting) (w : Visit) : Prop where
  player : w.ledger.player = v.ledger.player
  house : w.ledger.house = v.ledger.house
  ends : t.toInt = p.toInt + 86400 * days
  purse : w.purse.toInt = v.purse.toInt - terms.dailyFee.toInt * days
  next : Prepaying s w terms (h.extend v.ledger.house t) now t
  store : days = 0 ∧ w.store = v.store ∨
    days ≠ 0 ∧ ∃ wall ∈ walls, v.store.Takes wall v.ledger.player (h.extend v.ledger.house t) w.store

section

variable {s : Setting} {v w : Visit} {terms : House} {h : Holdings} {now p : Int64} {requested days : UInt32} {cost : Int64}

theorem int64?_isSome_of_between (lo hi : Int64) {n : Int} (hlo : lo.toInt ≤ n) (hhi : n ≤ hi.toInt) :
    (int64? n).isSome := by
  have hmin : -9223372036854775808 ≤ lo.toInt := lo.minValue_le_toInt
  have hmax : hi.toInt ≤ 9223372036854775807 := hi.toInt_le
  exact int64?_isSome ⟨by omega, by omega⟩

/-- After a look nothing more is paid ahead. -/
theorem PaidAhead.looked (hp : Prepaying s v terms h now p) (hlook : Looked s v w) (walls : List Instant) :
    PaidAhead walls v terms h now p 0 p s w := by
  have hsame : h.extend v.ledger.house p = h := Holdings.extend_self hp.lease
  refine ⟨hlook.player, hlook.house, by simp, ?_, ?_, Or.inl ⟨rfl, hlook.store⟩⟩
  · rw [hlook.purse]
    simp
  · rw [hsame]
    exact ⟨hp.looked hlook, hp.serves⟩

theorem Sale.paidAhead {o : Trade.Prepay} {wall : Instant} (hs : Sale s v terms h p days cost o w)
    (hp : Prepaying s v terms h now p) (hwall : s.wall = some wall)
    (hcost : cost.toInt = terms.dailyFee.toInt * days.toNat) (hfunds : cost ≤ v.purse) :
    ∃ t, PaidAhead [wall] v terms h now p days.toNat t s w := by
  cases hs with
  | full hzero hlook =>
    subst hzero
    exact ⟨p, .looked hp hlook [wall]⟩
  | short _ hless => exact absurd hfunds (Int64.not_le.mpr hless)
  | @made t store log hzero _ ht hw =>
    obtain ⟨-, wall', hwall', hwrite⟩ := Setting.written_ok hw
    cases hwall.symm.trans hwall'
    have hpos : days.toNat ≠ 0 := fun h => hzero (UInt32.toNat_inj.mp h)
    refine ⟨t, rfl, rfl, checked_eq_ok.mp ht, ?_, ?_, Or.inr ⟨hpos, wall, List.mem_singleton_self wall, hwrite⟩⟩
    · rw [← hcost]
      exact Int64.toInt_sub_of_le _ _ (hp.cost_nonneg hcost) hfunds
    · exact ⟨⟨hp.accepted, hp.terms, s.held_copied v store _ log, Holdings.paidUntil?_extend hp.lease t, hp.clock⟩,
        hp.serves⟩

namespace Prepaying

theorem dated (hp : Prepaying s v terms h now p) (wall : Instant) : Prepaying (s.dated wall) v terms h now p :=
  ⟨⟨hp.accepted, hp.terms, hp.held, hp.lease, hp.clock⟩, hp.serves.1, rfl⟩

/-- With the time left, the fee and the new end of the lease in range, the call is not cut off. -/
theorem inRange (hp : Prepaying s v terms h now p) {n : Nat}
    (hn : n = min requested.toNat (Trade.room terms.maxPrepaidDays now p))
    (hleft : (int64? (p.toInt - now.toInt)).isSome) (hmul : (int64? (terms.dailyFee.toInt * n)).isSome)
    (hend : (int64? (p.toInt + daySeconds * n)).isSome) (op : Overflow) :
    ((Call.prepayFees requested).made s v).1.answer ≠ .error (.overflow op) := by
  refine hp.prepay_inRange (fun _ => not_overflow_of_isSome hleft) (fun remaining days hsub hdays _ => ?_) op
  obtain rfl : days.toNat = n := by rw [hdays, Trade.days_eq requested hsub, hn]
  exact ⟨fun _ => not_overflow_of_isSome hmul, fun _ => not_overflow_of_isSome hend⟩

end Prepaying

namespace PaidAhead

variable {walls walls' : List Instant} {s' : Setting} {u : Visit} {m n : Nat} {t t' : Int64}

/-- Days behind days: of two records the second is left. -/
theorem trans (hm : PaidAhead walls v terms h now p m t s u)
    (hn : PaidAhead walls' u terms (h.extend v.ledger.house t) now t n t' s' w) :
    PaidAhead (walls ++ walls') v terms h now p (m + n) t' s' w := by
  have hlast : (h.extend v.ledger.house t).extend u.ledger.house t' = h.extend v.ledger.house t' := by
    rw [hm.house, Holdings.extend_extend]
  have hends := hm.ends
  have hends' := hn.ends
  refine ⟨hn.player.trans hm.player, hn.house.trans hm.house, ?_, ?_, hlast ▸ hn.next, ?_⟩
  · push_cast
    omega
  · rw [hn.purse, hm.purse, Int.natCast_add, Int.mul_add, Int.sub_sub]
  have hstore := hn.store
  rw [hlast, hm.player] at hstore
  rcases hm.store with ⟨rfl, hsame⟩ | ⟨hne, wall, hwall, hfirst⟩
  · rw [hsame] at hstore
    rw [Nat.zero_add]
    exact hstore.imp_right fun ⟨hne, wall, hwall, htook⟩ => ⟨hne, wall, List.mem_append_right _ hwall, htook⟩
  · right
    rcases hstore with ⟨rfl, hsame⟩ | ⟨_, wall', hwall', hsecond⟩
    · have heq : t' = t := Int64.toInt_inj.mp (by omega)
      exact ⟨hne, wall, List.mem_append_left _ hwall, hsame ▸ heq ▸ hfirst⟩
    · exact ⟨by omega, wall', List.mem_append_right _ hwall', Store.write_write hfirst hsecond⟩

end PaidAhead

/-- Purses and records are the same, the player's record up to its date. -/
structure SameRecords (player : String) (v w : Visit) : Prop where
  purse : w.purse = v.purse
  texts : ∀ q, w.store.texts q = v.store.texts q
  others : ∀ key ≠ recordKey player houseTag, w.store.find? key = v.store.find? key

theorem PaidAhead.sameRecords {walls walls' : List Instant} {s' : Setting} {u : Visit} {n : Nat} {t t' : Int64}
    (hu : PaidAhead walls v terms h now p n t s u) (hw : PaidAhead walls' v terms h now p n t' s' w) :
    SameRecords v.ledger.player u w ∧ ((∃ wall, ∀ wall' ∈ walls ++ walls', wall' = wall) → w.store = u.store) := by
  have hsame : t' = t := Int64.toInt_inj.mp (hw.ends.trans hu.ends.symm)
  have hpurse : w.purse = u.purse := Int64.toInt_inj.mp (hw.purse.trans hu.purse.symm)
  subst hsame
  rcases hu.store with ⟨hzero, hu⟩ | ⟨hne, wall, hwall, hu⟩
  · rcases hw.store with ⟨-, hw⟩ | ⟨hne, -⟩
    · have hstore : w.store = u.store := hw.trans hu.symm
      exact ⟨⟨hpurse, fun q => by rw [hstore], fun key _ => by rw [hstore]⟩, fun _ => hstore⟩
    · exact absurd hzero hne
  · rcases hw.store with ⟨hzero, -⟩ | ⟨-, wall', hwall', hw⟩
    · exact absurd hzero hne
    · refine ⟨⟨hpurse, ?_, ?_⟩, ?_⟩
      · intro q
        rw [Store.texts_write hw, Store.texts_write hu]
      · intro key hkey
        rw [Store.find?_write_ne hw hkey, Store.find?_write_ne hu hkey]
      · rintro ⟨only, honly⟩
        cases honly wall (List.mem_append_left _ hwall)
        cases honly wall' (List.mem_append_right _ hwall')
        exact Except.ok.inj (hw.symm.trans hu)

namespace Prepaying

variable {a b : UInt32} {n m : Nat} {wall wall₁ wall₂ : Instant}

/-- Days that are asked for at once, if they fit and can be paid. -/
theorem atOnce (hp : Prepaying s v terms h now p) (hwall : s.wall = some wall)
    (hn : n = min requested.toNat (Trade.room terms.maxPrepaidDays now p))
    (hfunds : terms.dailyFee.toInt * n ≤ v.purse.toInt)
    (hflow : ∀ op, ((Call.prepayFees requested).made s v).1.answer ≠ .error (.overflow op))
    (hfit : ((Call.prepayFees requested).made s v).1.answer ≠ .error (.fault .recordTooLong)) :
    ∃ t, PaidAhead [wall] v terms h now p n t s ((Call.prepayFees requested).made s v).2 := by
  obtain ⟨days, cost, o, w, hdays, hcost, hrun, hsale⟩ := hp.sale hflow hfit
  rw [← hn] at hdays
  have hpayable : cost ≤ v.purse := by
    refine Int64.le_iff_toInt_le.mpr ?_
    rw [hcost, hdays]
    exact hfunds
  rw [Call.made_of_ok hrun]
  exact hdays ▸ hsale.paidAhead hp hwall hcost hpayable

/-- Days that are asked for at once and are in range, if they fit and can be paid. -/
theorem pays (hp : Prepaying s v terms h now p) (hwall : s.wall = some wall)
    (hn : n = min requested.toNat (Trade.room terms.maxPrepaidDays now p))
    (hleft : (int64? (p.toInt - now.toInt)).isSome)
    (hfunds : terms.dailyFee.toInt * n ≤ v.purse.toInt) (hend : (int64? (p.toInt + daySeconds * n)).isSome)
    (hfit : ((Call.prepayFees requested).made s v).1.answer ≠ .error (.fault .recordTooLong)) :
    ∃ t, PaidAhead [wall] v terms h now p n t s ((Call.prepayFees requested).made s v).2 := by
  have hmul : (int64? (terms.dailyFee.toInt * n)).isSome := by
    have hpos : 0 ≤ terms.dailyFee.toInt * n := Int.mul_nonneg hp.fee_nonneg (Int.natCast_nonneg n)
    exact int64?_isSome_of_between 0 v.purse hpos hfunds
  exact hp.atOnce hwall hn hfunds (hp.inRange hn hleft hmul hend) hfit

/-- The time left on a lease after days that fit. -/
theorem left_after {t : Int64} (hleft : (int64? (p.toInt - now.toInt)).isSome) (hcurrent : now ≤ p)
    (hm : m ≤ Trade.room terms.maxPrepaidDays now p) (ht : t.toInt = p.toInt + 86400 * m) :
    (int64? (t.toInt - now.toInt)).isSome := by
  by_cases hnone : m = 0
  · have hsame : t = p := Int64.toInt_inj.mp (by omega)
    rw [hsame]
    exact hleft
  · have hcap := terms.maxPrepaidDays.toNat_lt
    have hfit := Trade.room_fits hm (Nat.pos_of_ne_zero hnone)
    have hcurrent := Int64.le_iff_toInt_le.mp hcurrent
    exact int64?_isSome ⟨by omega, by omega⟩

/-- Days that are asked for in two parts, the second in the room that the first leaves. -/
theorem inParts (hp : Prepaying s v terms h now p) (hcurrent : now ≤ p)
    (hm : m = min a.toNat (Trade.room terms.maxPrepaidDays now p))
    (hn : n = min b.toNat (Trade.room terms.maxPrepaidDays now p - m))
    (hleft : (int64? (p.toInt - now.toInt)).isSome)
    (hfunds : terms.dailyFee.toInt * (m + n : Nat) ≤ v.purse.toInt) {last : Int64}
    (hlast : last.toInt = p.toInt + 86400 * (m + n : Nat))
    (hfits : ∀ shown ∈ (v.calls [(s.dated wall₁, .prepayFees a), (s.dated wall₂, .prepayFees b)]).1,
      shown.answer ≠ .error (.fault .recordTooLong)) :
    ∃ t, PaidAhead [wall₁, wall₂] v terms h now p (m + n) t (s.dated wall₂)
      (v.calls [(s.dated wall₁, .prepayFees a), (s.dated wall₂, .prepayFees b)]).2 := by
  have hm0 : 0 ≤ terms.dailyFee.toInt * m := Int.mul_nonneg hp.fee_nonneg (Int.natCast_nonneg m)
  have hn0 : 0 ≤ terms.dailyFee.toInt * n := Int.mul_nonneg hp.fee_nonneg (Int.natCast_nonneg n)
  rw [Int.natCast_add, Int.mul_add] at hfunds
  rw [Int.natCast_add] at hlast
  have hmend : (int64? (p.toInt + daySeconds * m)).isSome :=
    int64?_isSome_of_between p last (by unfold daySeconds; omega) (by unfold daySeconds; omega)
  obtain ⟨t, hone⟩ := (hp.dated wall₁).pays rfl hm hleft (by omega) hmend (hfits _ List.mem_cons_self)
  have hle : m ≤ Trade.room terms.maxPrepaidDays now p := hm ▸ Nat.min_le_right _ _
  have hroom : Trade.room terms.maxPrepaidDays now t = Trade.room terms.maxPrepaidDays now p - m :=
    Trade.room_after hcurrent hle hone.ends
  have hends := hone.ends
  have hpurse := hone.purse
  have hnend : (int64? (t.toInt + daySeconds * n)).isSome :=
    int64?_isSome_of_between p last (by unfold daySeconds; omega) (by unfold daySeconds; omega)
  have hsecond : ((Call.prepayFees b).made (s.dated wall₂) ((Call.prepayFees a).made (s.dated wall₁) v).2).1.answer
      ≠ .error (.fault .recordTooLong) :=
    hfits _ (by simp [Visit.calls])
  obtain ⟨t', htwo⟩ := (hone.next.dated wall₂).pays rfl (hroom ▸ hn) (left_after hleft hcurrent hle hends) (by omega)
    hnend hsecond
  exact ⟨t', hone.trans htwo⟩

end Prepaying

/-- On a lease that has not lapsed, days can be asked for at once or in two parts: the player ends with the same
    money and the same record. -/
theorem prepaid_in_parts (hp : Prepaying s v terms h now p) (hcurrent : now ≤ p) {a b : UInt32}
    (hsum : a.toNat + b.toNat < UInt32.size) (wall wall₁ wall₂ : Instant)
    (hfunds : terms.dailyFee.toInt * (min (a + b).toNat (Trade.room terms.maxPrepaidDays now p) : Nat) ≤ v.purse.toInt)
    (hflow : ∀ op, ((Call.prepayFees (a + b)).made (s.dated wall) v).1.answer ≠ .error (.overflow op))
    (hfit : ((Call.prepayFees (a + b)).made (s.dated wall) v).1.answer ≠ .error (.fault .recordTooLong))
    (hfits : ∀ shown ∈ (v.calls [(s.dated wall₁, .prepayFees a), (s.dated wall₂, .prepayFees b)]).1,
      shown.answer ≠ .error (.fault .recordTooLong)) :
    let once := ((Call.prepayFees (a + b)).made (s.dated wall) v).2
    let inParts := (v.calls [(s.dated wall₁, .prepayFees a), (s.dated wall₂, .prepayFees b)]).2
    SameRecords v.ledger.player once inParts ∧ (wall₁ = wall → wall₂ = wall → inParts.store = once.store) := by
  intro once inParts
  obtain ⟨remaining, hleft⟩ := (hp.dated wall).left hflow
  have hleft : (int64? (p.toInt - now.toInt)).isSome := by
    rw [int64?_eq_some.mpr (checked_eq_ok.mp hleft)]
    rfl
  obtain ⟨t, hwhole⟩ := (hp.dated wall).atOnce rfl rfl hfunds hflow hfit
  -- what fits of the second part is what the first has left of the whole
  obtain ⟨m, hm⟩ : ∃ m, m = min a.toNat (Trade.room terms.maxPrepaidDays now p) := ⟨_, rfl⟩
  obtain ⟨n, hn⟩ : ∃ n, n = min b.toNat (Trade.room terms.maxPrepaidDays now p - m) := ⟨_, rfl⟩
  have hadd : (a + b).toNat = a.toNat + b.toNat := by
    rw [UInt32.toNat_add, Nat.mod_eq_of_lt hsum]
  have hmn : min (a + b).toNat (Trade.room terms.maxPrepaidDays now p) = m + n := by omega
  rw [hmn] at hfunds hwhole
  obtain ⟨t', hparts⟩ := hp.inParts hcurrent hm hn hleft hfunds hwhole.ends hfits
  obtain ⟨hsame, hstore⟩ := hwhole.sameRecords hparts
  refine ⟨hsame, fun h₁ h₂ => hstore ⟨wall, ?_⟩⟩
  subst h₁ h₂
  simp

end

/-- Ann asks for 460 days, and gets 110, or for 60 and then for 400, and gets 60 and 50. -/
theorem ann_pays_ahead_in_parts :
    let s := (shippedWith {}).dated .epoch
    let once := (Call.prepayFees (60 + 400)).made s annsLease
    let parts := annsLease.calls [(s, .prepayFees 60), (s, .prepayFees 400)]
    once.1.answer = .ok (.prepay (.paid 110 825000)) ∧
      parts.1.map (·.answer) = [.ok (.prepay (.paid 60 450000)), .ok (.prepay (.paid 50 375000))] ∧
      SameRecords annsLease.ledger.player once.2 parts.2 := by
  intro s once parts
  have honce : once.1.answer = .ok (.prepay (.paid 110 825000)) := by decide +kernel
  have hparts : parts.1.map (·.answer) = [.ok (.prepay (.paid 60 450000)), .ok (.prepay (.paid 50 375000))] := by
    decide +kernel
  have hfits : ∀ answer ∈ parts.1.map (·.answer), answer ≠ .error (.fault .recordTooLong) := by
    rw [hparts]
    decide
  have hsame := prepaid_in_parts annsLease_prepaying (a := 60) (b := 400) (by decide) (by decide) .epoch .epoch .epoch
    (by decide +kernel) (fun op => honce ▸ nofun) (honce ▸ nofun)
    (fun shown hshown => hfits _ (List.mem_map_of_mem hshown))
  exact ⟨honce, hparts, hsame.1⟩

/-- Sixty days after her lease has lapsed it matters: two hundred days are the 120 of the cap when asked for at once,
    and 180 in two parts. -/
example :
    let s := { shippedWith {} with now := some 1706048000 }
    let v := annsLease.withPurse 2000000
    ((Call.prepayFees 200).made s v).1.answer = .ok (.prepay (.paid 120 900000)) ∧
      (v.calls [(s, .prepayFees 100), (s, .prepayFees 100)]).1.map (·.answer)
        = [.ok (.prepay (.paid 100 750000)), .ok (.prepay (.paid 80 600000))] := by
  decide +kernel

end HouseLease
