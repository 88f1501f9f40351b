/-
  HouseLease.Proofs.Trade.Unaffordable — prices beyond the purse.

  What the purse cannot pay is refused, and nothing changes (`Heeds`). For the exit check this holds at
  every price. Paying ahead works the price out as a number before it asks the purse: the refusal comes
  just if the fee for the days is such a number (`unaffordable_refused_iff`), and else the call is cut off,
  with nothing paid and nothing stored. A house at the highest fee there is, asked to be paid for two
  days ahead, is a case of it (`a_price_beyond_numbers_cuts_off`).
-/

import HouseLease.Proofs.Trade.Arrears

namespace HouseLease

/-- The call ends with an answer or a fault. If it is to charge so many days, and the purse does not hold their price,
    it answers with that price in the refusal and changes nothing. -/
structure Heeds (s : Setting) (v : Visit) (terms : House) (c : Call) (days : Nat) (refusal : Int64 → Answer) : Prop where
  ends : ∀ e, (c.made s v).1.answer = .error e → ∃ f, e = .fault f
  refuses : days ≠ 0 → v.purse.toInt < terms.dailyFee.toInt * days →
    ∃ cost : Int64, cost.toInt = terms.dailyFee.toInt * days ∧ (c.made s v).1.answer = .ok (refusal cost) ∧
      Looked s v (c.made s v).2

section

variable {s : Setting} {v : Visit} {terms : House} {h : Holdings} {now p : Int64} {c : Call}

/-- Where the clocks show a time, a call that does not overflow ends with an answer or a fault. -/
theorem Call.ends (hnow : s.now = some now) (hwall : s.wall.isSome)
    (hflow : ∀ op, (c.made s v).1.answer ≠ .error (.overflow op)) :
    ∀ e, (c.made s v).1.answer = .error e → ∃ f, e = .fault f := by
  intro e he
  cases Call.stops (Call.run_of_made he) with
  | fault f => exact ⟨f, rfl⟩
  | overflow op => exact absurd he (hflow op)
  | untimed hclock =>
    rcases hclock with hnone | hnone
    · cases hnow.symm.trans hnone
    · rw [hnone] at hwall
      cases hwall

namespace Leased

/-- The fee for a day is a number, so nothing can leave its range at the exit. -/
theorem exit_inCalendar (hl : Leased s v terms h now p) (hcal : s.InCalendar) (hp : Reachable p.toInt) (op : Overflow) :
    (Call.checkExitFees.made s v).1.answer ≠ .error (.overflow op) := by
  intro hcut
  obtain ⟨a, ha⟩ := Call.exists_aborts (Call.run_of_made hcut)
  cases ha with
  | @exitFee terms' _ _ _ _ _ _ _ _ hmul =>
    have hfee : checked .multiply (terms'.dailyFee.toInt * (1 : UInt32).toNat) = .ok terms'.dailyFee :=
      checked_eq_ok.mpr (Int.mul_one _).symm
    cases hfee.symm.trans hmul
  | exitEnd hnow hh hlease hlt _ _ _ ht =>
    obtain rfl := hl.same_end hh hlease
    exact absurd ht (hp.collected (hcal _ hnow) hlt).addDays_ne_error

theorem heeds_exit (hl : Leased s v terms h now p) (hcal : s.InCalendar) (hp : Reachable p.toInt) (hwall : s.wall.isSome) :
    Heeds s v terms .checkExitFees (if p < now then 1 else 0) fun cost => .feeCheck (.unpaid cost terms.unpaidFeePosition) where
  ends := Call.ends hl.clock hwall (hl.exit_inCalendar hcal hp)
  refuses := by
    intro hdays hshort
    by_cases hlapsed : p < now
    · rw [if_pos hlapsed] at hshort ⊢
      have hone : terms.dailyFee.toInt = terms.dailyFee.toInt * (1 : Nat) := (Int.mul_one _).symm
      rw [← hone] at hshort
      obtain ⟨w, hrun, hlook⟩ := hl.exit_unpaid hlapsed (Int64.lt_iff_toInt_lt.mpr hshort)
      rw [Call.made_of_ok hrun]
      exact ⟨terms.dailyFee, hone, rfl, hlook⟩
    · exact absurd (if_neg hlapsed) hdays

/-- The time left is known wherever a lease can end. -/
theorem left_of_reachable (hl : Leased s v terms h now p) (hcal : s.InCalendar) (hp : Reachable p.toInt) :
    ∃ remaining, checked .subtract (p.toInt - now.toInt) = .ok remaining := by
  cases hleft : checked .subtract (p.toInt - now.toInt) with
  | ok remaining => exact ⟨remaining, rfl⟩
  | error op => exact absurd hleft (hp.left_ne_error (hcal _ hl.clock))

variable {requested : UInt32} {remaining : Int64} {n : Nat}

/-- A fee that is no number cuts the call off, before anything is paid or stored. -/
theorem prepay_cut (hl : Leased s v terms h now p) (hleft : checked .subtract (p.toInt - now.toInt) = .ok remaining)
    (hn : n = min requested.toNat (Trade.room terms.maxPrepaidDays now p))
    (hnone : int64? (terms.dailyFee.toInt * n) = none) :
    ∃ w, (Call.prepayFees requested).run s v = .error (.overflow .multiply) w ∧ w.store = v.store ∧ w.purse = v.purse := by
  obtain ⟨days, hdays, hroom⟩ := Trade.exists_days terms.maxPrepaidDays requested hleft
  have hcount : days.toNat = n := hroom.trans hn.symm
  have hzero : days ≠ 0 := by
    rintro rfl
    rw [← hcount, show ((0 : UInt32).toNat : Int) = 0 from rfl, Int.mul_zero] at hnone
    cases hnone
  have hmul : checked .multiply (terms.dailyFee.toInt * days.toNat) = .error .multiply :=
    checked_eq_error.mpr ⟨rfl, hcount ▸ hnone⟩
  obtain ⟨w, hrun, hstore, hpurse⟩ := (Aborts.prepaidFee hl.terms hl.clock hl.held hl.lease hleft hdays hzero hmul).run
  exact ⟨w, hrun, hstore, hpurse.trans (Int64.sub_zero _)⟩

/-- Nothing else can leave its range. -/
theorem prepay_inCalendar (hl : Leased s v terms h now p) (hcal : s.InCalendar) (hp : Reachable p.toInt)
    (hn : n = min requested.toNat (Trade.room terms.maxPrepaidDays now p))
    (hfee : (int64? (terms.dailyFee.toInt * n)).isSome) (op : Overflow) :
    ((Call.prepayFees requested).made s v).1.answer ≠ .error (.overflow op) := by
  have hnow := hcal _ hl.clock
  refine hl.prepay_inRange (fun _ => hp.left_ne_error hnow) (fun remaining days hsub hdays hne => ?_) op
  have hle : days ≤ Trade.daysAllowed terms.maxPrepaidDays remaining := hdays ▸ Std.min_le_right
  obtain rfl : days.toNat = n := by rw [hdays, Trade.days_eq requested hsub, hn]
  exact ⟨fun _ => not_overflow_of_isSome hfee, fun _ => (hp.paid_ahead hnow hsub hle hne).addDays_ne_error⟩

theorem heeds_prepay (hl : Leased s v terms h now p) (hcal : s.InCalendar) (hp : Reachable p.toInt) (hwall : s.wall.isSome)
    (hn : n = min requested.toNat (Trade.room terms.maxPrepaidDays now p))
    (hfee : (int64? (terms.dailyFee.toInt * n)).isSome) :
    Heeds s v terms (.prepayFees requested) n fun cost => .prepay (.insufficientFunds (UInt32.ofNat n) cost) where
  ends := Call.ends hl.clock hwall (hl.prepay_inCalendar hcal hp hn hfee)
  refuses := by
    intro hzero hshort
    obtain ⟨remaining, hleft⟩ := hl.left_of_reachable hcal hp
    obtain ⟨cost, hcost⟩ := Option.isSome_iff_exists.mp hfee
    have hcost := int64?_eq_some.mp hcost
    obtain ⟨days, hdays, hroom⟩ := Trade.exists_days terms.maxPrepaidDays requested hleft
    obtain rfl : days.toNat = n := hroom.trans hn.symm
    have hne : days ≠ 0 := by
      rintro rfl
      exact hzero rfl
    have hmul : checked .multiply (terms.dailyFee.toInt * days.toNat) = .ok cost := checked_eq_ok.mpr hcost
    obtain ⟨w, hrun, hlook⟩ := hl.prepay_short hleft hdays hne hmul (Int64.lt_iff_toInt_lt.mpr (hcost ▸ hshort))
    rw [Call.made_of_ok hrun, UInt32.ofNat_toNat]
    exact ⟨cost, hcost, rfl, hlook⟩

end Leased

/-- What the purse cannot pay is refused at the exit, and ahead just if the price is a number; else paying ahead is cut
    off, and nothing has changed. -/
theorem unaffordable_refused_iff (hl : Leased s v terms h now p) (hcal : s.InCalendar) (hp : Reachable p.toInt)
    (hwall : s.wall.isSome) (requested : UInt32) :
    let n := min requested.toNat (Trade.room terms.maxPrepaidDays now p)
    let ahead := (Call.prepayFees requested).made s v
    (Heeds s v terms .checkExitFees (if p < now then 1 else 0) fun cost =>
        .feeCheck (.unpaid cost terms.unpaidFeePosition)) ∧
      ((Heeds s v terms (.prepayFees requested) n fun cost => .prepay (.insufficientFunds (UInt32.ofNat n) cost)) ↔
        (int64? (terms.dailyFee.toInt * n)).isSome) ∧
      (int64? (terms.dailyFee.toInt * n) = none →
        ahead.1.answer = .error (.overflow .multiply) ∧ ahead.2.store = v.store ∧ ahead.2.purse = v.purse) := by
  intro n ahead
  obtain ⟨remaining, hleft⟩ := hl.left_of_reachable hcal hp
  have hcut : int64? (terms.dailyFee.toInt * n) = none →
      ahead.1.answer = .error (.overflow .multiply) ∧ ahead.2.store = v.store ∧ ahead.2.purse = v.purse := by
    intro hnone
    have hn : n = min requested.toNat (Trade.room terms.maxPrepaidDays now p) := rfl
    obtain ⟨w, hrun, hstore, hpurse⟩ := hl.prepay_cut hleft hn hnone
    rw [show ahead = _ from Call.made_of_error hrun]
    exact ⟨rfl, hstore, hpurse⟩
  refine ⟨hl.heeds_exit hcal hp hwall, ⟨fun hheeds => ?_, hl.heeds_prepay hcal hp hwall rfl⟩, hcut⟩
  by_contra hno
  obtain ⟨f, hf⟩ := hheeds.ends _ (hcut (Option.not_isSome_iff_eq_none.mp hno)).1
  cases hf

end

/-- The shipped house, at the highest fee there is. -/
def palace : House := { greyton with id := "palace", dailyFee := Int64.maxValue }

def atPalace : Setting := { catalog := ⟨[palace], everlink⟩, now := some 1700000000 }

/-- Ann has bought the palace and has five coins left. -/
def annAtPalace : Visit :=
  (Call.buyHouse.made atPalace { store := .empty, ledger := { player := "Ann", house := "palace" }, purse := 2000000 }).2.withPurse 5

theorem annAtPalace_leased :
    Leased atPalace annAtPalace palace ⟨[⟨"palace", 1700864000⟩], none⟩ 1700000000 1700864000 :=
  ⟨⟨[palace], everlink, by decide +kernel⟩, by decide +kernel, by decide +kernel, by decide +kernel, rfl⟩

/-- A day is more than she can pay, and she is told so. Two are more as well, and the call is cut off. -/
theorem a_day_is_refused_two_are_not :
    (Heeds atPalace annAtPalace palace (.prepayFees 1) 1 fun cost => .prepay (.insufficientFunds 1 cost)) ∧
      ((Call.prepayFees 2).made atPalace annAtPalace).1.answer = .error (.overflow .multiply) := by
  have hreach : Reachable (1700864000 : Int64).toInt := by unfold Reachable; decide
  have hone := unaffordable_refused_iff annAtPalace_leased (by decide) hreach (by decide) 1
  have htwo := unaffordable_refused_iff annAtPalace_leased (by decide) hreach (by decide) 2
  exact ⟨hone.2.1.mpr (by decide +kernel), (htwo.2.2 (by decide +kernel)).1⟩

/-- Two days cost more than the five coins, but no price is worked out for the refusal. -/
theorem a_price_beyond_numbers_cuts_off :
    let made := (Call.prepayFees 2).made atPalace annAtPalace
    Leased atPalace annAtPalace palace ⟨[⟨"palace", 1700864000⟩], none⟩ 1700000000 1700864000 ∧
      atPalace.InCalendar ∧ earliestSecond ≤ (1700864000 : Int64).toInt ∧ (1700864000 : Int64).toInt ≤ latestSecond ∧
      annAtPalace.purse.toInt < palace.dailyFee.toInt * 2 ∧
      made.1.answer = .error (.overflow .multiply) := by
  exact ⟨annAtPalace_leased, by decide, by decide, by decide, by decide +kernel, by decide +kernel⟩

end HouseLease
