/-
  HouseLease.Proofs.Trade.Arrears — what exit checks collect of lapsed fees.

  At a clock a lease is so many days in arrears, part of a day counting whole (`Trade.arrears`), and a
  balance pays so many of them (`Trade.funded`). A check finds the fees current, or the purse short of a
  day's fee, or takes the fee for one day, and then both numbers are one less (`Prepaying.exit`). So of any
  run of checks the first ones are paid, as many as there are days in arrears that the balance pays, and
  the others all find the fees current or all find the purse short (`exit_checks_collect_arrears`).
-/

import HouseLease.Proofs.Trade.Prepaying
import Mathlib.Data.ENat.Lattice

namespace HouseLease

/-! ## Days in arrears -/

namespace Trade

/-- The days of fees that are missing at `now`, for a lease that ended at `paidUntil`; part of a day counts whole. -/
def arrears (now paidUntil : Int64) : Nat := ((now.toInt - paidUntil.toInt + 86399) / 86400).toNat

/-- How many days at this fee the balance pays; any number of them, if there is no fee. -/
def funded (fee balance : Int64) : ℕ∞ := if fee = 0 then ⊤ else (balance.toInt / fee.toInt).toNat

variable {now t t' fee balance rest : Int64}

theorem arrears_eq_zero (hcurrent : now ≤ t) : arrears now t = 0 := by
  have hcurrent := Int64.le_iff_toInt_le.mp hcurrent
  unfold arrears
  omega

theorem arrears_pos (hlapsed : t < now) : 0 < arrears now t := by
  have hlapsed := Int64.lt_iff_toInt_lt.mp hlapsed
  unfold arrears
  omega

theorem arrears_day_paid (hlapsed : t < now) (ht : t'.toInt = t.toInt + 86400) : arrears now t = arrears now t' + 1 := by
  have hlapsed := Int64.lt_iff_toInt_lt.mp hlapsed
  unfold arrears
  omega

theorem funded_eq_zero (hzero : 0 ≤ balance) (hshort : balance < fee) : funded fee balance = 0 := by
  have hzero := Int64.le_iff_toInt_le.mp hzero
  have hshort := Int64.lt_iff_toInt_lt.mp hshort
  have hfee : fee ≠ 0 := by
    rintro rfl
    omega
  rw [funded, if_neg hfee, Int.ediv_eq_zero_of_lt hzero hshort]
  rfl

theorem funded_day_paid (hfee : 0 ≤ fee) (hfunds : fee ≤ balance) (hrest : rest.toInt = balance.toInt - fee.toInt) :
    funded fee balance = funded fee rest + 1 := by
  have hfee := Int64.le_iff_toInt_le.mp hfee
  have hfunds := Int64.le_iff_toInt_le.mp hfunds
  unfold funded
  by_cases hfree : fee = 0
  · rw [if_pos hfree, if_pos hfree]
    rfl
  · have hpos : 0 < fee.toInt := lt_of_le_of_ne hfee fun h => hfree (Int64.toInt_inj.mp h.symm)
    have hless : rest.toInt / fee.toInt = balance.toInt / fee.toInt - 1 := by
      rw [hrest, Int.sub_ediv_of_dvd _ (dvd_refl _), Int.ediv_self hpos.ne']
    have hone : 1 ≤ balance.toInt / fee.toInt := (Int.le_ediv_iff_mul_le hpos).mpr (by omega)
    rw [if_neg hfree, if_neg hfree, hless]
    norm_cast
    omega

end Trade

/-! ## One check -/

section

variable {s : Setting} {v : Visit} {terms : House} {h : Holdings} {now p : Int64}

namespace Leased

theorem exit_current (hl : Leased s v terms h now p) (hcurrent : now ≤ p) :
    ∃ w, Call.checkExitFees.run s v = .ok (.feeCheck .current) w ∧ Looked s v w := by
  obtain ⟨log, hask⟩ := Ledger.isFeeExpired_ok hl.clock hl.held hl.lease
  rw [decide_eq_false (Int64.not_lt.mpr hcurrent)] at hask
  exact ⟨_, by simp [Call.run, Trade.checkExitFees, hask], .consulted hl.held log⟩

theorem exit_unpaid (hl : Leased s v terms h now p) (hlapsed : p < now) (hshort : v.purse < terms.dailyFee) :
    ∃ w, Call.checkExitFees.run s v = .ok (.feeCheck (.unpaid terms.dailyFee terms.unpaidFeePosition)) w ∧
      Looked s v w := by
  obtain ⟨log, hask⟩ := Ledger.isFeeExpired_ok hl.clock hl.held hl.lease
  rw [decide_eq_true hlapsed] at hask
  have hfee : checked .multiply terms.dailyFee.toInt = .ok terms.dailyFee := checked_eq_ok.mpr rfl
  have hpay : Purse.pay? v.purse terms.dailyFee = none := by
    rw [Purse.pay?, if_pos (Or.inr hshort)]
  refine ⟨_, ?_, (Looked.consulted hl.held log).log (log ++ [⟨.warn, v.ledger.player ++ " cannot pay "
    ++ Text.numeral terms.dailyFee.toInt ++ " in lapsed fees on " ++ v.ledger.house ++ "; relocating to "
    ++ terms.unpaidFeePosition.text⟩])⟩
  simp [Call.run, Trade.checkExitFees, hask, Ledger.feeForDays, Setting.terms_apply, hl.terms, hfee, Trade.pay_apply, hpay]
  rfl

end Leased

/-- What an exit check comes to on a lease that ends at `p`. -/
inductive Exit (s : Setting) (v : Visit) (terms : House) (h : Holdings) (now p : Int64) (wall : Instant) :
    Trade.FeeCheck → Visit → Prop
  | current {w} : now ≤ p → Looked s v w → Exit s v terms h now p wall .current w
  | unpaid {w} :
      p < now → v.purse < terms.dailyFee → Looked s v w →
      Exit s v terms h now p wall (.unpaid terms.dailyFee terms.unpaidFeePosition) w
  | charged {t w} :
      p < now → terms.dailyFee ≤ v.purse → PaidAhead [wall] v terms h now p 1 t s w →
      Exit s v terms h now p wall (.charged terms.dailyFee) w

namespace Prepaying

/-- A day that is collected changes what a day that is sold does. -/
theorem exit_charged {wall : Instant} (hp : Prepaying s v terms h now p) (hwall : s.wall = some wall) (hlapsed : p < now)
    (hfunds : terms.dailyFee ≤ v.purse)
    (hflow : ∀ op, (Call.checkExitFees.made s v).1.answer ≠ .error (.overflow op))
    (hfit : (Call.checkExitFees.made s v).1.answer ≠ .error (.fault .recordTooLong)) :
    ∃ t w, Call.checkExitFees.run s v = .ok (.feeCheck (.charged terms.dailyFee)) w ∧
      PaidAhead [wall] v terms h now p 1 t s w := by
  have hcost : terms.dailyFee.toInt = terms.dailyFee.toInt * (1 : UInt32).toNat := (Int.mul_one _).symm
  have hfee : checked .multiply (terms.dailyFee.toInt * (1 : UInt32).toNat) = .ok terms.dailyFee := checked_eq_ok.mpr hcost
  have hpay : Purse.pay? v.purse terms.dailyFee = some (v.purse - terms.dailyFee) :=
    Purse.pay?_eq_some.mpr ⟨⟨hp.cost_nonneg hcost, hfunds⟩, rfl⟩
  cases hend : addDays p 1 with
  | error op =>
    obtain ⟨rfl, -⟩ := checked_eq_error.mp hend
    obtain ⟨w, hrun, -⟩ := (Aborts.exitEnd hp.clock hp.held hp.lease hlapsed hp.terms hfee hpay hend).run
    exact absurd (Call.answer_of_error hrun) (hflow _)
  | ok t =>
    have hdraft := Drafts.checkExitFees hp.held hp.lease hp.clock hlapsed hp.terms hfee hpay hend
    obtain ⟨store, log, hw, hrun⟩ := hdraft.served hp.serves hfit
    have hsale : Sale s v terms h p 1 terms.dailyFee (.paid 1 terms.dailyFee)
        ((v.copied store (h.extend v.ledger.house t) log).withPurse (v.purse - terms.dailyFee)) :=
      .made (by decide) hfunds hend hw
    obtain ⟨t, hpaid⟩ := hsale.paidAhead hp hwall hcost hfunds
    exact ⟨t, _, hrun, hpaid⟩

theorem exit {wall : Instant} (hp : Prepaying s v terms h now p) (hwall : s.wall = some wall)
    (hflow : ∀ op, (Call.checkExitFees.made s v).1.answer ≠ .error (.overflow op))
    (hfit : (Call.checkExitFees.made s v).1.answer ≠ .error (.fault .recordTooLong)) :
    ∃ o w, Call.checkExitFees.run s v = .ok (.feeCheck o) w ∧ Exit s v terms h now p wall o w := by
  by_cases hlapsed : p < now
  · by_cases hfunds : terms.dailyFee ≤ v.purse
    · obtain ⟨t, w, hrun, hpaid⟩ := hp.exit_charged hwall hlapsed hfunds hflow hfit
      exact ⟨_, w, hrun, .charged hlapsed hfunds hpaid⟩
    · have hshort := Int64.not_le.mp hfunds
      obtain ⟨w, hrun, hlook⟩ := hp.exit_unpaid hlapsed hshort
      exact ⟨_, w, hrun, .unpaid hlapsed hshort hlook⟩
  · have hcurrent := Int64.not_lt.mp hlapsed
    obtain ⟨w, hrun, hlook⟩ := hp.exit_current hcurrent
    exact ⟨_, w, hrun, .current hcurrent hlook⟩

end Prepaying

end

/-! ## Checks one after the other -/

/-- An exit check that is to be made. -/
structure ExitCheck where
  /-- Whether it is made on a new ledger. -/
  anew : Bool
  /-- The date for its write. -/
  wall : Instant
  deriving DecidableEq

/-- The visit that the check finds. -/
def ExitCheck.start (check : ExitCheck) (v : Visit) : Visit :=
  match check.anew with
  | true => v.renew
  | false => v

/-- Exit checks one after the other, at one clock: what they answer, and the visit that is left. -/
def Visit.exitChecks (s : Setting) (v : Visit) : List ExitCheck → List (Except Stop Answer) × Visit
  | [] => ([], v)
  | check :: rest =>
    let (shown, w) := Call.checkExitFees.made (s.dated check.wall) (check.start v)
    let (more, u) := w.exitChecks s rest
    (shown.answer :: more, u)

/-- What a check finds once nothing more is collected, by the days in arrears and the days that can be paid. -/
def Trade.settled (terms : House) (due : Nat) (payable : ℕ∞) : Trade.FeeCheck :=
  if due ≤ payable then .current else .unpaid terms.dailyFee terms.unpaidFeePosition

/-- So many of the checks collected a day, as many as were made, were missing and could be paid; the others found the
    same. -/
structure Collects (terms : House) (due : Nat) (payable : ℕ∞) (checks paid : Nat) (answers : List (Except Stop Answer)) :
    Prop where
  count : (paid : ℕ∞) = min (checks : ℕ∞) (min (due : ℕ∞) payable)
  told : answers = List.replicate paid (.ok (.feeCheck (.charged terms.dailyFee)))
    ++ List.replicate (checks - paid) (.ok (.feeCheck (Trade.settled terms due payable)))

namespace Collects

variable {terms : House} {due checks paid : Nat} {payable : ℕ∞} {answers : List (Except Stop Answer)}

/-- Where nothing is collected, nothing more is. -/
theorem idle (hrest : Collects terms due payable checks paid answers) (hdone : min (due : ℕ∞) payable = 0) :
    Collects terms due payable (checks + 1) paid (.ok (.feeCheck (Trade.settled terms due payable)) :: answers) := by
  have hcount := hrest.count
  rw [hdone, min_eq_right zero_le] at hcount
  have hpaid : paid = 0 := by exact_mod_cast hcount
  subst hpaid
  refine ⟨?_, ?_⟩
  · rw [hdone, min_eq_right zero_le]
    rfl
  · rw [hrest.told]
    rfl

/-- A day is collected, and for the other checks there is one less. -/
theorem charged (hrest : Collects terms due payable checks paid answers) :
    Collects terms (due + 1) (payable + 1) (checks + 1) (paid + 1)
      (.ok (.feeCheck (.charged terms.dailyFee)) :: answers) := by
  have hsettled : Trade.settled terms (due + 1) (payable + 1) = Trade.settled terms due payable := by
    simp only [Trade.settled, Nat.cast_add_one, ENat.add_le_add_iff_right ENat.one_ne_top]
  refine ⟨?_, ?_⟩
  · rw [Nat.cast_add_one, Nat.cast_add_one, Nat.cast_add_one, min_add_add_right, min_add_add_right, hrest.count]
  · rw [hsettled, hrest.told, Nat.add_sub_add_right]
    rfl

end Collects

section

variable {s : Setting} {v : Visit} {terms : House} {h : Holdings} {now p : Int64}

theorem ExitCheck.start_coherent (check : ExitCheck) (hv : v.Coherent) : (check.start v).Coherent := by
  obtain ⟨_ | _, wall⟩ := check
  · exact hv
  · rfl

/-- A new ledger shows the lease as well. -/
theorem ExitCheck.start_prepaying (check : ExitCheck) (hp : Prepaying s v terms h now p) (hv : v.Coherent) :
    Prepaying (s.dated check.wall) (check.start v) terms h now p := by
  obtain ⟨_ | _, wall⟩ := check
  · exact hp.dated wall
  · have hget : s.outage.get = false := by rw [hp.serves.1]
    have hstored : v.store.holdings v.ledger.player = .ok (some h) := hv.symm.trans (Setting.held_eq hp.held)
    have hnew : s.held v.renew = .ok (some h) := Setting.held_new hget rfl hstored
    exact ⟨⟨hp.accepted, hp.terms, hnew, hp.lease, hp.clock⟩, hp.serves.1, rfl⟩

theorem PaidAhead.of_start {walls : List Instant} {check : ExitCheck} {n : Nat} {t : Int64} {s' : Setting} {w : Visit}
    (hw : PaidAhead walls (check.start v) terms h now p n t s' w) : PaidAhead walls v terms h now p n t s' w := by
  obtain ⟨_ | _, wall⟩ := check
  · exact hw
  · exact ⟨hw.player, hw.house, hw.ends, hw.purse, hw.next, hw.store⟩

theorem ExitCheck.start_purse (check : ExitCheck) (v : Visit) : (check.start v).purse = v.purse := by
  obtain ⟨_ | _, wall⟩ := check <;> rfl

/-- How a run of checks goes on behind one that answered `o` and left `w`: `n` more days are paid, so that the lease
    ends at `t`, and the other checks collect what they collect from there. -/
structure GoesOn (wall : Instant) (s : Setting) (v : Visit) (terms : House) (h : Holdings) (now p : Int64)
    (o : Trade.FeeCheck) (w : Visit) (n : Nat) (t : Int64) : Prop where
  paid : PaidAhead [wall] v terms h now p n t s w
  solvent : 0 ≤ w.purse
  collects : ∀ checks paid answers,
    Collects terms (Trade.arrears now t) (Trade.funded terms.dailyFee w.purse) checks paid answers →
      Collects terms (Trade.arrears now p) (Trade.funded terms.dailyFee v.purse) (checks + 1) (n + paid)
        (.ok (.feeCheck o) :: answers)

/-- A check that only looks finds what all the checks behind it find. -/
theorem Looked.goesOn {w : Visit} {o : Trade.FeeCheck} (hlook : Looked s v w) (wall : Instant)
    (hp : Prepaying s v terms h now p) (hzero : 0 ≤ v.purse)
    (hdone : min (Trade.arrears now p : ℕ∞) (Trade.funded terms.dailyFee v.purse) = 0)
    (ho : Trade.settled terms (Trade.arrears now p) (Trade.funded terms.dailyFee v.purse) = o) :
    GoesOn wall s v terms h now p o w 0 p where
  paid := .looked hp hlook [wall]
  solvent := hlook.purse ▸ hzero
  collects := by
    intro checks paid answers hrest
    rw [hlook.purse] at hrest
    rw [Nat.zero_add, ← ho]
    exact hrest.idle hdone

theorem Exit.goesOn {wall : Instant} {o : Trade.FeeCheck} {w : Visit} (hexit : Exit s v terms h now p wall o w)
    (hp : Prepaying s v terms h now p) (hzero : 0 ≤ v.purse) : ∃ n t, GoesOn wall s v terms h now p o w n t := by
  cases hexit with
  | current hcurrent hlook =>
    have hdue : Trade.arrears now p = 0 := Trade.arrears_eq_zero hcurrent
    refine ⟨0, p, hlook.goesOn wall hp hzero ?_ ?_⟩
    · rw [hdue]
      exact min_eq_left zero_le
    · rw [hdue]
      exact if_pos zero_le
  | unpaid hlapsed hshort hlook =>
    have hpayable : Trade.funded terms.dailyFee v.purse = 0 := Trade.funded_eq_zero hzero hshort
    have hdue : (0 : ℕ∞) < Trade.arrears now p := by exact_mod_cast Trade.arrears_pos hlapsed
    refine ⟨0, p, hlook.goesOn wall hp hzero ?_ ?_⟩
    · rw [hpayable]
      exact min_eq_right zero_le
    · rw [hpayable]
      exact if_neg (not_le.mpr hdue)
  | @charged t _ hlapsed hfunds hpaid =>
    have hpurse := hpaid.purse
    have hdue : Trade.arrears now p = Trade.arrears now t + 1 := Trade.arrears_day_paid hlapsed hpaid.ends
    have hfee : 0 ≤ terms.dailyFee := Int64.le_iff_toInt_le.mpr hp.fee_nonneg
    have hpayable : Trade.funded terms.dailyFee v.purse = Trade.funded terms.dailyFee w.purse + 1 :=
      Trade.funded_day_paid hfee hfunds (by omega)
    have hfunds := Int64.le_iff_toInt_le.mp hfunds
    refine ⟨1, t, hpaid, Int64.le_iff_toInt_le.mpr ?_, fun checks paid answers hrest => ?_⟩
    · rw [hpurse]
      exact Int.sub_nonneg.mpr (by omega)
    · rw [hdue, hpayable, Nat.add_comm 1 paid]
      exact hrest.charged

/-- The checks collect a day after the other, as long as days are missing and can be paid. -/
theorem Prepaying.exitChecks (hp : Prepaying s v terms h now p) (hv : v.Coherent) (hzero : 0 ≤ v.purse)
    {checks : List ExitCheck} (hflow : ∀ a ∈ (v.exitChecks s checks).1, ∀ op, a ≠ .error (.overflow op))
    (hfit : ∀ a ∈ (v.exitChecks s checks).1, a ≠ .error (.fault .recordTooLong)) :
    ∃ paid t, PaidAhead (checks.map (·.wall)) v terms h now p paid t s (v.exitChecks s checks).2 ∧
      Collects terms (Trade.arrears now p) (Trade.funded terms.dailyFee v.purse) checks.length paid
        (v.exitChecks s checks).1 := by
  induction checks generalizing v h p with
  | nil => exact ⟨0, p, .looked hp (.refl s v) [], by simp, by simp [Visit.exitChecks]⟩
  | cons check rest ih =>
    have hstart := check.start_prepaying hp hv
    have hserves := hstart.serves
    have hfirst := hfit _ List.mem_cons_self
    have hcoherent := (check.start_coherent hv).made hserves .checkExitFees hfirst
    obtain ⟨o, w, hrun, hexit⟩ := hstart.exit rfl (hflow _ List.mem_cons_self) hfirst
    have hcalls : v.exitChecks s (check :: rest) = (.ok (.feeCheck o) :: (w.exitChecks s rest).1, (w.exitChecks s rest).2) := by
      simp only [Visit.exitChecks, Call.made_of_ok hrun]
    rw [Call.made_of_ok hrun] at hcoherent
    rw [hcalls] at hflow hfit ⊢
    obtain ⟨n, t, hone, hzero, hgoesOn⟩ := hexit.goesOn hstart (check.start_purse v ▸ hzero)
    have hnext : Prepaying s w terms (h.extend v.ledger.house t) now t := by
      have hnext := hone.of_start.next
      exact ⟨⟨hnext.accepted, hnext.terms, hnext.held, hnext.lease, hnext.clock⟩, hp.serves⟩
    obtain ⟨paid, t', hmore, hcollects⟩ := ih hnext hcoherent hzero (fun a ha => hflow a (List.mem_cons_of_mem _ ha))
      (fun a ha => hfit a (List.mem_cons_of_mem _ ha))
    exact ⟨n + paid, t', hone.of_start.trans hmore, check.start_purse v ▸ hgoesOn _ _ _ hcollects⟩

/-- What is left of a lease when so many of the checks have collected a day. -/
structure LeftByChecks (v : Visit) (terms : House) (h : Holdings) (now p : Int64) (checks paid : Nat)
    (made : List (Except Stop Answer) × Visit) : Prop where
  collects : Collects terms (Trade.arrears now p) (Trade.funded terms.dailyFee v.purse) checks paid made.1
  purse : made.2.purse.toInt = v.purse.toInt - terms.dailyFee.toInt * paid
  /-- In the record the lease ends as many days later, and nothing else is different. -/
  stored : ∃ (t : Int64) (leases : List Lease), t.toInt = p.toInt + 86400 * paid ∧
    made.2.store.holdings v.ledger.player = .ok (some ⟨leases, h.lastHouse⟩) ∧
      Moves v.ledger.house p t h.leases leases
  others : ∀ key ≠ recordKey v.ledger.player houseTag, made.2.store.find? key = v.store.find? key

theorem PaidAhead.holdings {walls : List Instant} {n : Nat} {t : Int64} {s' : Setting} {w : Visit}
    (hw : PaidAhead walls v terms h now p n t s' w) (hlease : h.paidUntil? v.ledger.house = some p)
    (hstored : v.store.holdings v.ledger.player = .ok (some h)) :
    w.store.holdings v.ledger.player = .ok (some (h.extend v.ledger.house t)) := by
  rcases hw.store with ⟨rfl, hstore⟩ | ⟨-, wall, -, htook⟩
  · have hends := hw.ends
    have hsame : t = p := Int64.toInt_inj.mp (by omega)
    rw [hstore, hsame, Holdings.extend_self hlease, hstored]
  · rw [Store.holdings_write htook, if_pos rfl]

theorem PaidAhead.others {walls : List Instant} {n : Nat} {t : Int64} {s' : Setting} {w : Visit}
    (hw : PaidAhead walls v terms h now p n t s' w) {key : Text.Bytes} (hkey : key ≠ recordKey v.ledger.player houseTag) :
    w.store.find? key = v.store.find? key := by
  rcases hw.store with ⟨-, hstore⟩ | ⟨-, wall, -, htook⟩
  · rw [hstore]
  · exact Store.find?_write_ne htook hkey

/-- Exit checks at one clock, on one ledger or on new ones, collect the days in arrears as far as they can be paid,
    and nothing else. -/
theorem exit_checks_collect_arrears (hp : Prepaying s v terms h now p) (hv : v.Coherent) (hzero : 0 ≤ v.purse)
    (checks : List ExitCheck) (hflow : ∀ a ∈ (v.exitChecks s checks).1, ∀ op, a ≠ .error (.overflow op))
    (hfit : ∀ a ∈ (v.exitChecks s checks).1, a ≠ .error (.fault .recordTooLong)) :
    ∃ paid, LeftByChecks v terms h now p checks.length paid (v.exitChecks s checks) := by
  obtain ⟨paid, t, hpaid, hcollects⟩ := hp.exitChecks hv hzero hflow hfit
  have hstored : v.store.holdings v.ledger.player = .ok (some h) := hv.symm.trans (Setting.held_eq hp.held)
  refine ⟨paid, hcollects, hpaid.purse, ?_, fun key hkey => hpaid.others hkey⟩
  exact ⟨t, _, hpaid.ends, hpaid.holdings hp.lease hstored, Holdings.moves_extend hp.lease t⟩

end

/-- Ann's lease ran out two days and a few hours ago. -/
def annInArrears : Setting := { shippedWith {} with now := some 1701064000 }

theorem annInArrears_prepaying (purse : Int64) :
    Prepaying annInArrears (annsLease.withPurse purse) greyton ⟨[⟨"greyton", 1700864000⟩], none⟩ 1701064000 1700864000 :=
  { annsLease_prepaying with clock := rfl }

/-- Three days are missing and she can pay two: the third check moves her out, and so does the fourth. -/
theorem ann_pays_two_days_of_three :
    let checks : List ExitCheck := [⟨false, .epoch⟩, ⟨true, .epoch⟩, ⟨false, .epoch⟩, ⟨true, .epoch⟩]
    let made := (annsLease.withPurse 20000).exitChecks annInArrears checks
    made.1 = [.ok (.feeCheck (.charged 7500)), .ok (.feeCheck (.charged 7500)),
        .ok (.feeCheck (.unpaid 7500 greyton.unpaidFeePosition)), .ok (.feeCheck (.unpaid 7500 greyton.unpaidFeePosition))] ∧
      Trade.arrears 1701064000 1700864000 = 3 ∧
      ∃ paid, LeftByChecks (annsLease.withPurse 20000) greyton ⟨[⟨"greyton", 1700864000⟩], none⟩ 1701064000 1700864000 4
        paid made := by
  intro checks made
  have hanswers : made.1 = [.ok (.feeCheck (.charged 7500)), .ok (.feeCheck (.charged 7500)),
      .ok (.feeCheck (.unpaid 7500 greyton.unpaidFeePosition)),
      .ok (.feeCheck (.unpaid 7500 greyton.unpaidFeePosition))] := by
    decide +kernel
  have hend : ∀ a ∈ made.1, (∀ op, a ≠ .error (.overflow op)) ∧ a ≠ .error (.fault .recordTooLong) := by
    rw [hanswers]
    simp
  refine ⟨hanswers, by decide, ?_⟩
  exact exit_checks_collect_arrears (annInArrears_prepaying 20000) (by unfold Visit.Coherent; decide +kernel) (by decide)
    checks (fun a ha => (hend a ha).1) (fun a ha => (hend a ha).2)

/-- With the money for it all three are paid. -/
example :
    let checks : List ExitCheck := [⟨false, .epoch⟩, ⟨true, .epoch⟩, ⟨false, .epoch⟩, ⟨true, .epoch⟩]
    let made := annsLease.exitChecks annInArrears checks
    made.1 = [.ok (.feeCheck (.charged 7500)), .ok (.feeCheck (.charged 7500)), .ok (.feeCheck (.charged 7500)),
        .ok (.feeCheck .current)] ∧
      made.2.store.holdings "Ann" = .ok (some ⟨[⟨"greyton", 1701123200⟩], none⟩) := by
  decide +kernel

end HouseLease
