/-
  HouseLease.Proofs.World.Reach — timestamps never leave their range in service.

  A clock in service shows a second of the calendar. Leases are bought with at most 2³² - 1 days,
  paid ahead under a cap of at most as many, and collected for a day at the exit once they have run
  out. So no lease ever ends more than 2³² - 1 days after the calendar (`Drafts.inReach`), however
  the clocks of a run go back and forth and whichever copies are stale: far from where a timestamp
  ends. Then the time left and every end of a lease fit, and no refund is more than what was paid. A
  call can only be cut off by a fee for days (`Aborts.multiplies`), and a run
  comes to nothing else (`only_fees_overflow`).
-/

import HouseLease.Proofs.Visit.Aborts
import HouseLease.Proofs.World.Cap

namespace HouseLease

/-! ## Seconds in reach -/

/-- The clock, if it shows a time, shows a second of the calendar. -/
def Setting.InCalendar (s : Setting) : Prop :=
  ∀ now ∈ s.now, earliestSecond ≤ now.toInt ∧ now.toInt ≤ latestSecond

-- Named: instance search may come up with one that tries every second there is.
instance (s : Setting) : Decidable s.InCalendar := Option.decidableForallMem s.now

/-- From the calendar's first second to as many days after its last as a number of days can say. -/
def Reachable (n : Int) : Prop := earliestSecond ≤ n ∧ n ≤ latestSecond + daySeconds * 4294967295

theorem int64?_isSome {n : Int} (h : -9223372036854775808 ≤ n ∧ n ≤ 9223372036854775807) : (int64? n).isSome := by
  rw [Option.isSome_iff_ne_none, ne_eq, int64?_eq_none]
  have hmin : Int64.minValue.toInt = -9223372036854775808 := rfl
  have hmax : Int64.maxValue.toInt = 9223372036854775807 := rfl
  omega

theorem not_overflow_of_isSome {n : Int} {op op' : Overflow} (h : (int64? n).isSome) : checked op n ≠ .error op' := by
  intro he
  rw [(checked_eq_error.mp he).2] at h
  cases h

section

variable {now t : Int64} {days : UInt32}

theorem Reachable.addDays_ne_error {op : Overflow} (h : Reachable (t.toInt + daySeconds * days.toNat)) :
    addDays t days ≠ .error op := by
  refine not_overflow_of_isSome (int64?_isSome ?_)
  unfold Reachable earliestSecond latestSecond daySeconds at *
  omega

theorem Reachable.left_ne_error {op op' : Overflow} (h : Reachable t.toInt)
    (hnow : earliestSecond ≤ now.toInt ∧ now.toInt ≤ latestSecond) :
    checked op (t.toInt - now.toInt) ≠ .error op' := by
  refine not_overflow_of_isSome (int64?_isSome ?_)
  unfold Reachable earliestSecond latestSecond daySeconds at *
  omega

/-- Days from the calendar on, as many as there may be, stay in reach. -/
theorem reachable_prepaid (hnow : earliestSecond ≤ now.toInt ∧ now.toInt ≤ latestSecond) (days : UInt32) :
    Reachable (now.toInt + daySeconds * days.toNat) := by
  have hdays := days.toNat_lt
  unfold Reachable earliestSecond latestSecond daySeconds at *
  omega

/-- Days paid ahead under a cap stay in reach. -/
theorem Reachable.paid_ahead {cap : UInt32} {remaining : Int64} (h : Reachable t.toInt)
    (hnow : earliestSecond ≤ now.toInt ∧ now.toInt ≤ latestSecond)
    (hleft : checked .subtract (t.toInt - now.toInt) = .ok remaining) (hle : days ≤ Trade.daysAllowed cap remaining)
    (hne : days ≠ 0) : Reachable (t.toInt + daySeconds * days.toNat) := by
  have hfits := Trade.daysAllowed_fits hle hne
  have hremaining := checked_eq_ok.mp hleft
  have hcap := cap.toNat_lt
  unfold Reachable daySeconds at *
  omega

/-- A day collected on a lease that has run out stays in reach. -/
theorem Reachable.collected (h : Reachable t.toInt) (hnow : earliestSecond ≤ now.toInt ∧ now.toInt ≤ latestSecond)
    (hlt : t < now) : Reachable (t.toInt + daySeconds * (1 : UInt32).toNat) := by
  have hlapsed := Int64.lt_iff_toInt_lt.mp hlt
  have hday : (1 : UInt32).toNat = 1 := rfl
  unfold Reachable daySeconds at *
  omega

end

/-! ## Leases in reach -/

/-- Every lease of the list ends within reach. -/
def InReach (ls : List Lease) : Prop := ∀ l ∈ ls, Reachable l.paidUntil.toInt

theorem InReach.nil : InReach [] := List.forall_mem_nil _

section

variable {s : Setting} {v : Visit} {c : Call} {ls : List Lease} {house : String} {t : Int64}

theorem InReach.paidUntil {h : Holdings} (hr : InReach h.leases) (hp : h.paidUntil? house = some t) :
    Reachable t.toInt := by
  obtain ⟨l, hl, rfl⟩ := Option.map_eq_some_iff.mp hp
  exact hr l (List.mem_of_find?_eq_some hl)

theorem Drafts.inReach {d : Draft} {held : Option Holdings} (hd : Drafts s v c d) (hcal : s.InCalendar)
    (hc : c.keepsCap = true) (hh : s.held v = .ok held) (hr : InReach (leasesOf held)) :
    InReach d.holdings.leases := by
  cases hd with
  | payFees _ _ _ => cases hc
  | setLastHouse hh' | depart hh' =>
    cases hh.symm.trans hh'
    exact hr
  | purchase _ he _ hnow ht | buyHouse _ he _ _ hnow ht =>
    refine forall_mem_acquired (Setting.lists_enrolled hh he hr) ?_
    rw [checked_eq_ok.mp ht]
    exact reachable_prepaid (hcal _ hnow) _
  | prepayFees _ hh' hp hnow hsub hdays hne _ _ ht =>
    cases hh.symm.trans hh'
    refine forall_mem_extendFirst hr ?_
    rw [checked_eq_ok.mp ht]
    exact (hr.paidUntil hp).paid_ahead (hcal _ hnow) hsub (hdays ▸ Std.min_le_right) hne
  | checkExitFees hh' hp hnow hlt _ _ _ ht =>
    cases hh.symm.trans hh'
    refine forall_mem_extendFirst hr ?_
    rw [checked_eq_ok.mp ht]
    exact (hr.paidUntil hp).collected (hcal _ hnow) hlt

/-- A fee that is too much for a number, for some days at the house. -/
def House.FeeOverflows (terms : House) : Prop := ∃ days : UInt32, int64? (terms.dailyFee.toInt * days.toNat) = none

/-- With leases in reach only a fee at the bound house can leave its range. -/
theorem Aborts.multiplies {a : Abort} (ha : Aborts s v c a) (hcal : s.InCalendar) (hc : c.keepsCap = true)
    (hr : ∀ h, s.held v = .ok (some h) → InReach h.leases) :
    a.op = .multiply ∧ ∃ terms, s.catalog.find? v.ledger.house = some terms ∧ terms.FeeOverflows := by
  cases ha with
  | payFees _ _ _ => cases hc
  | secondsRemaining hnow hh hp hsub | daysRemaining hnow hh hp hsub | prepaidTime _ hnow hh hp hsub =>
    exact absurd hsub (((hr _ hh).paidUntil hp).left_ne_error (hcal _ hnow))
  | purchase _ _ _ hnow ht | buyHouse _ _ _ _ hnow ht =>
    exact absurd ht (reachable_prepaid (hcal _ hnow) _).addDays_ne_error
  | prepaidEnd _ hnow hh hp hsub hdays hne _ _ ht =>
    have hend := ((hr _ hh).paidUntil hp).paid_ahead (hcal _ hnow) hsub (hdays ▸ Std.min_le_right) hne
    exact absurd ht hend.addDays_ne_error
  | exitEnd hnow hh hp hlt _ _ _ ht =>
    exact absurd ht (((hr _ hh).paidUntil hp).collected (hcal _ hnow) hlt).addDays_ne_error
  | feeForDays hterms hmul | prepaidFee hterms _ _ _ _ _ _ hmul | exitFee _ _ _ _ hterms hmul =>
    exact ⟨rfl, _, hterms, _, (checked_eq_error.mp hmul).2⟩

end

/-! ## Sums worked out without a check -/

theorem seconds_of_days_fit (days : UInt32) : (int64? (daySeconds * days.toNat)).isSome := by
  have hdays := days.toNat_lt
  refine int64?_isSome ?_
  unfold daySeconds
  omega

namespace Trade

variable (cap : UInt32) (remaining : Int64)

/-- The time under the cap that is not paid ahead yet fits, however long ago the lease ran out. -/
theorem headroom_fits : (int64? (daySeconds * cap.toNat - max remaining.toInt 0)).isSome := by
  have hcap := cap.toNat_lt
  have hmax : remaining.toInt ≤ 9223372036854775807 := remaining.toInt_le
  refine int64?_isSome ?_
  unfold daySeconds
  omega

/-- It is never more days than can be asked for. -/
theorem daysAllowed_converts :
    uint32? (max ((daySeconds * cap.toNat - max remaining.toInt 0) / daySeconds) 0) = some (daysAllowed cap remaining) := by
  have hcap := cap.toNat_lt
  unfold daysAllowed
  cases hq : uint32? (max ((daySeconds * cap.toNat - max remaining.toInt 0) / daySeconds) 0) with
  | some days => rfl
  | none =>
    simp only [uint32?] at hq
    split at hq
    · split at hq
      · cases hq
      · rename_i h0 hlt
        unfold daySeconds UInt32.size at *
        omega
    · rename_i h0
      omega

end Trade

/-! ## Runs -/

/-- The steps in service: what keeps to the cap, and no refund out of turn. -/
def Step.inService : Step → Bool
  | .refund _ _ => false
  | step => step.keepsCap

/-- The step is a call on a ledger that is bound to a house with such fees. -/
def Step.FeeOverflows (s : Setting) (w : World) : Step → Prop
  | .call name _ _ =>
    ∃ l terms, w.ledgers.lookup name = some l ∧ s.catalog.find? l.house = some terms ∧ terms.FeeOverflows
  | _ => False

theorem Step.keepsCap_of_inService {step : Step} (h : step.inService = true) : step.keepsCap = true := by
  cases step with
  | refund _ _ => rfl
  | openLedger _ _ _ | openPurse _ _ | pay _ _ | balance _ | call _ _ _ | getRecord _ _ | createRecord _ _
  | putRecord _ _ _ _ => exact h

namespace World.Lists

variable {s : Setting} {w : World} {step : Step}

theorem after_inReach (hw : w.Lists InReach) (hcal : s.InCalendar) (hstep : step.inService = true) :
    (w.after s step).Lists InReach := by
  refine hw.after .nil (Step.not_bypasses (Step.keepsCap_of_inService hstep)) ?_
  rintro name purse c rfl v d held hd hh hr
  exact hd.inReach hcal hstep hh hr

theorem run_inReach {steps : List (Setting × Step)} (hw : w.Lists InReach)
    (hsteps : ∀ p ∈ steps, p.1.InCalendar ∧ p.2.inService = true) : (w.run steps).2.Lists InReach := by
  induction steps generalizing w with
  | nil => exact hw
  | cons p rest ih =>
    obtain ⟨s, step⟩ := p
    obtain ⟨⟨hcal, hstep⟩, hrest⟩ := List.forall_mem_cons.mp hsteps
    rw [World.run_cons]
    exact ih (hw.after_inReach hcal hstep) hrest

/-- Where all leases are in reach a step in service can only be cut off by a fee. -/
theorem step_multiplies {reply : Reply} {w' : World} {op : Overflow} (hw : w.Lists InReach) (hcal : s.InCalendar)
    (hstep : step.inService = true) (h : w.step s step = some (reply, w'))
    (hover : reply.answer = .error (.overflow op)) : op = .multiply ∧ step.FeeOverflows s w := by
  cases step with
  | openLedger _ _ _ | openPurse _ _ =>
    cases h
    cases hover
  | pay name amount =>
    cases hb : w.purses.lookup name with
    | none => simp [World.step, hb] at h
    | some b =>
      cases hpay : Purse.pay? b amount with
      | none =>
        simp only [World.step, hb, hpay, Option.bind_eq_bind, Option.bind_some] at h
        cases h
        cases hover
      | some b' =>
        simp only [World.step, hb, hpay, Option.bind_eq_bind, Option.bind_some] at h
        cases h
        cases hover
  | balance name =>
    cases hb : w.purses.lookup name with
    | none => simp [World.step, hb] at h
    | some b =>
      simp only [World.step, hb, Option.bind_eq_bind, Option.bind_some] at h
      cases h
      cases hover
  | call name purse c =>
    obtain ⟨l, b, hl, -, hanswer, -⟩ := World.call_eq_some h
    obtain ⟨a, ha, rfl, -, -⟩ := Call.aborted (Call.run_of_made (hanswer.symm.trans hover))
    obtain ⟨hop, terms, hterms, hfee⟩ := ha.multiplies hcal hstep fun held hh => (hw.visit hl b).held .nil hh
    exact ⟨hop, l, terms, hl, hterms, hfee⟩
  | refund _ _ | getRecord _ _ | createRecord _ _ | putRecord _ _ _ _ => cases hstep

end World.Lists

/-- Whatever players buy, pay ahead, are charged at exits and ask, on any number of ledgers, with any money and
    whatever failing, at clocks that may go back: every lease stored or copied ends in reach, and nothing but a fee for
    days ever leaves its range. What is worked out without a check fits as well: the seconds in days, the time under
    the cap and the days in it, and what a payment leaves in a purse. -/
theorem only_fees_overflow {purses : List (String × Int64)} {steps : List (Setting × Step)}
    (hsteps : ∀ p ∈ steps, p.1.InCalendar ∧ p.2.inService = true) :
    (World.run { purses } steps).2.Lists InReach ∧
      (∀ s step reply w op, s.InCalendar → step.inService = true →
        (World.run { purses } steps).2.step s step = some (reply, w) → reply.answer = .error (.overflow op) →
          op = .multiply ∧ step.FeeOverflows s (World.run { purses } steps).2) ∧
      (∀ days : UInt32, (int64? (daySeconds * days.toNat)).isSome) ∧
      (∀ (cap : UInt32) (remaining : Int64),
        (int64? (daySeconds * cap.toNat - max remaining.toInt 0)).isSome ∧
          uint32? (max ((daySeconds * cap.toNat - max remaining.toInt 0) / daySeconds) 0)
            = some (Trade.daysAllowed cap remaining)) ∧
      ∀ balance amount rest, Purse.pay? balance amount = some rest →
        int64? (balance.toInt - amount.toInt) = some rest := by
  have hend := (World.Lists.fresh InReach purses).run_inReach hsteps
  refine ⟨hend, ?_, seconds_of_days_fit, ?_, ?_⟩
  · intro s step reply w op hcal hstep h hover
    exact hend.step_multiplies hcal hstep h hover
  · intro cap remaining
    exact ⟨Trade.headroom_fits cap remaining, Trade.daysAllowed_converts cap remaining⟩
  · intro balance amount rest hpay
    exact int64?_eq_some.mpr (Purse.toInt_pay? hpay).2

/-- A house with as many days as a number of days can say, bought and paid ahead. -/
def estate : House :=
  { greyton with id := "estate", maxPrepaidDays := 4294967295, prepaidDaysOnPurchase := 4294967295 }

/-- Ann buys the estate in the calendar's last second, and goes back to the first to ask about it. -/
def longLease : List (Setting × Step) :=
  let last : Setting := { catalog := ⟨[estate], everlink⟩, now := some 8210266876799 }
  let first : Setting := { last with now := some (-8334601228800) }
  [(last, .openLedger "l" "Ann" "estate"), (last, .call "l" (some "purse") .buyHouse),
    (last, .call "l" (some "purse") (.prepayFees 1)), (first, .call "l" none .secondsRemaining),
    ({ first with outage := { put := true } }, .call "l" (some "purse") (.prepayFees 1)),
    (first, .call "l" (some "purse") .checkExitFees)]

theorem a_lease_ends_as_late_as_any :
    (∀ p ∈ longLease, p.1.InCalendar ∧ p.2.inService = true) ∧
      (World.run { purses := [("purse", 2000000)] } longLease).2.store.holdings "Ann"
        = .ok (some ⟨[⟨"estate", 379295441164799⟩], none⟩) ∧
      (379295441164799 : Int) = latestSecond + daySeconds * 4294967295 ∧
      (World.run { purses := [("purse", 2000000)] } longLease).2.Lists InReach := by
  have hsteps : ∀ p ∈ longLease, p.1.InCalendar ∧ p.2.inService = true := by decide +kernel
  exact ⟨hsteps, by decide +kernel, by decide, (only_fees_overflow hsteps).1⟩

end HouseLease
