/-
  HouseLease.Proofs.Visit.Aborts — calls cut off by a number that leaves its range.

  `Aborts` lists the places: the time left on a lease, a fee for days, the second a lease runs
  out in. Each rule says what the call has paid and stored by the time it gets there. A rule's
  call is cut off there (`Aborts.run`), and no call is cut off anywhere else (`Call.aborted`).

  The time left and the fee are worked out before money moves, the end of the lease only
  after it has. So an abort costs nothing unless it is the last kind, behind a payment or behind
  the new record of a player who had none (`aborts_cost_nothing_iff`). Ann buys a house when the
  clock stands at its last second: the price is gone (`a_price_is_lost_at_the_last_second`).
-/

import HouseLease.Proofs.Visit.Faults
import HouseLease.Proofs.Visit.Ranges

namespace HouseLease

/-! ## Places -/

/-- Where a call is cut off, and what it has done by then. -/
structure Abort where
  /-- The operation whose result leaves its range. -/
  op : Overflow
  /-- The store, with a record made for a player who had none. -/
  store : Store
  /-- What was taken from the purse. -/
  cost : Int64 := 0

/-- The places where a call's arithmetic can leave its range. -/
inductive Aborts (s : Setting) (v : Visit) : Call → Abort → Prop
  | secondsRemaining {h now t} :
      s.now = some now → s.held v = .ok (some h) → h.paidUntil? v.ledger.house = some t →
      checked .subtract (t.toInt - now.toInt) = .error .subtract →
      Aborts s v .secondsRemaining { op := .subtract, store := v.store }
  | daysRemaining {h now t} :
      s.now = some now → s.held v = .ok (some h) → h.paidUntil? v.ledger.house = some t →
      checked .subtract (t.toInt - now.toInt) = .error .subtract →
      Aborts s v .daysRemaining { op := .subtract, store := v.store }
  | feeForDays {terms days} :
      s.catalog.find? v.ledger.house = some terms →
      checked .multiply (terms.dailyFee.toInt * days.toNat) = .error .multiply →
      Aborts s v (.feeForDays days) { op := .multiply, store := v.store }
  | purchase {terms h store now} :
      s.catalog.find? v.ledger.house = some terms → s.enrolled v = .ok (h, store) →
      h.owns v.ledger.house = false → s.now = some now → addDays now terms.prepaidDaysOnPurchase = .error .add →
      Aborts s v .purchase { op := .add, store }
  | payFees {days h t} :
      s.held v = .ok (some h) → h.paidUntil? v.ledger.house = some t → addDays t days = .error .add →
      Aborts s v (.payFees days) { op := .add, store := v.store }
  | buyHouse {terms h store now purse} :
      s.catalog.find? v.ledger.house = some terms → s.enrolled v = .ok (h, store) →
      h.owns v.ledger.house = false → Purse.pay? v.purse terms.purchaseCost = some purse → s.now = some now →
      addDays now terms.prepaidDaysOnPurchase = .error .add →
      Aborts s v .buyHouse { op := .add, store, cost := terms.purchaseCost }
  | prepaidTime {requested terms h now t} :
      s.catalog.find? v.ledger.house = some terms → s.now = some now → s.held v = .ok (some h) →
      h.paidUntil? v.ledger.house = some t → checked .subtract (t.toInt - now.toInt) = .error .subtract →
      Aborts s v (.prepayFees requested) { op := .subtract, store := v.store }
  | prepaidFee {requested terms h now t remaining days} :
      s.catalog.find? v.ledger.house = some terms → s.now = some now → s.held v = .ok (some h) →
      h.paidUntil? v.ledger.house = some t → checked .subtract (t.toInt - now.toInt) = .ok remaining →
      days = min requested (Trade.daysAllowed terms.maxPrepaidDays remaining) → days ≠ 0 →
      checked .multiply (terms.dailyFee.toInt * days.toNat) = .error .multiply →
      Aborts s v (.prepayFees requested) { op := .multiply, store := v.store }
  | prepaidEnd {requested terms h now t remaining days cost purse} :
      s.catalog.find? v.ledger.house = some terms → s.now = some now → s.held v = .ok (some h) →
      h.paidUntil? v.ledger.house = some t → checked .subtract (t.toInt - now.toInt) = .ok remaining →
      days = min requested (Trade.daysAllowed terms.maxPrepaidDays remaining) → days ≠ 0 →
      checked .multiply (terms.dailyFee.toInt * days.toNat) = .ok cost → Purse.pay? v.purse cost = some purse →
      addDays t days = .error .add →
      Aborts s v (.prepayFees requested) { op := .add, store := v.store, cost }
  | exitFee {terms h now t} :
      s.now = some now → s.held v = .ok (some h) → h.paidUntil? v.ledger.house = some t → t < now →
      s.catalog.find? v.ledger.house = some terms →
      checked .multiply (terms.dailyFee.toInt * (1 : UInt32).toNat) = .error .multiply →
      Aborts s v .checkExitFees { op := .multiply, store := v.store }
  | exitEnd {terms h now t cost purse} :
      s.now = some now → s.held v = .ok (some h) → h.paidUntil? v.ledger.house = some t → t < now →
      s.catalog.find? v.ledger.house = some terms →
      checked .multiply (terms.dailyFee.toInt * (1 : UInt32).toNat) = .ok cost →
      Purse.pay? v.purse cost = some purse → addDays t 1 = .error .add →
      Aborts s v .checkExitFees { op := .add, store := v.store, cost }

/-! ## Nowhere else -/

theorem Call.purse_of_fault {s : Setting} {v w : Visit} {c : Call} {f : Fault} (h : c.run s v = .error (.fault f) w) :
    w.purse = v.purse := by
  rcases Call.fault_cases h with ⟨-, hlook⟩ | ⟨d, hd⟩ | ⟨-, -, reason, -, hst⟩
  · exact hlook.purse
  · obtain ⟨store, log, -, rfl⟩ := hd.fault h
    rfl
  · exact hst.purse

namespace Trade

open Act Ledger

variable {s : Setting} {v w : Visit} {op : Overflow} {days : UInt32}

theorem orRefund_purchase_overflow {u : Visit} {cost purse : Int64} (hpay : Purse.pay? v.purse cost = some purse)
    (h : orRefund cost (purchase s) (u.withPurse purse) = .error (.overflow op) w) :
    purchase s (u.withPurse purse) = .error (.overflow op) w := by
  refine orRefund_overflow hpay (fun f u' hf => ?_) h
  exact Call.purse_of_fault (c := .purchase) (by rw [Call.run, Act.map_apply, hf])

/-- The days paid for on a lease that was just looked up overflow in its new end. -/
theorem orRefund_payFees_overflow {h : Holdings} {t cost purse : Int64} {log : List LogLine}
    (hh : s.held v = .ok (some h)) (hp : h.paidUntil? v.ledger.house = some t)
    (hpay : Purse.pay? v.purse cost = some purse)
    (ho : orRefund cost (payFees s days) ((v.consulted (some h) log).withPurse purse) = .error (.overflow op) w) :
    addDays t days = .error .add := by
  have hf := orRefund_overflow hpay (fun f u hf => Call.purse_of_fault (c := .payFees days) (w := u)
    (by rw [Call.run, Act.map_apply, hf])) ho
  obtain ⟨h', t', hh', hp', ht⟩ := payFees_overflow hf
  cases (Looked.consulted hh log).held.trans hh |>.symm.trans hh'
  cases hp.symm.trans hp'
  exact ht

theorem buyHouse_overflow (h : buyHouse s v = .error (.overflow op) w) : ∃ a, Aborts s v .buyHouse a := by
  unfold buyHouse at h
  obtain ⟨terms, u, hread, h⟩ := overflow_past .terms h
  obtain ⟨hterms, rfl⟩ := Setting.terms_eq_ok hread
  obtain ⟨owned, u, hown, h⟩ := overflow_past hasHouse_inRange h
  obtain ⟨held, log, hh, -, rfl⟩ := hasHouse_eq_ok hown
  cases owned with
  | true => cases h
  | false =>
    obtain ⟨paid, u, hpaid, h⟩ := overflow_past pay_inRange h
    rcases pay_eq_ok hpaid with ⟨rfl, purse, hpay, rfl⟩ | ⟨rfl, rfl⟩
    · rcases bind_eq_error h with h | ⟨_, u, -, h⟩
      · obtain ⟨terms', hd, store, now, hterms', he, hnew, hnow, ht⟩ :=
          purchase_overflow (orRefund_purchase_overflow hpay h)
        cases hterms.symm.trans hterms'
        have he : s.enrolled v = .ok (hd, store) := (enrolled_of_looked (.consulted hh log)).symm.trans he
        exact ⟨_, .buyHouse hterms he hnew hpay hnow ht⟩
      · obtain ⟨t?, u, -, h⟩ := overflow_past paidUntil_inRange h
        cases t? <;> cases h
    · cases h

theorem prepayFees_overflow (h : prepayFees s days v = .error (.overflow op) w) :
    ∃ a, Aborts s v (.prepayFees days) a := by
  unfold prepayFees at h
  obtain ⟨terms, u, hread, h⟩ := overflow_past .terms h
  obtain ⟨hterms, rfl⟩ := Setting.terms_eq_ok hread
  rcases bind_eq_error h with h | ⟨remaining?, u, hleft, h⟩
  · obtain ⟨now, held, t, hnow, hh, hp, hsub⟩ := secondsRemaining_overflow h
    exact ⟨_, .prepaidTime hterms hnow hh hp hsub⟩
  · cases remaining? with
    | none => cases h
    | some remaining =>
      obtain ⟨now, held, t, log, hnow, hh, hp, hsub, rfl⟩ := secondsRemaining_eq_ok hleft
      simp only at h
      by_cases hdays : min days (daysAllowed terms.maxPrepaidDays remaining) = 0
      · rw [if_pos hdays] at h
        cases h
      · rw [if_neg hdays] at h
        rcases bind_eq_error h with h | ⟨cost, u, hfee, h⟩
        · obtain ⟨terms', hterms', hmul⟩ := feeForDays_overflow h
          cases hterms.symm.trans hterms'
          exact ⟨_, .prepaidFee hterms hnow hh hp hsub rfl hdays hmul⟩
        · obtain ⟨terms', hterms', hmul, rfl⟩ := feeForDays_eq_ok hfee
          cases hterms.symm.trans hterms'
          obtain ⟨paid, u, hpaid, h⟩ := overflow_past pay_inRange h
          rcases pay_eq_ok hpaid with ⟨rfl, purse, hpay, rfl⟩ | ⟨rfl, rfl⟩
          · rcases bind_eq_error h with h | ⟨_, u, -, h⟩
            · have ht := orRefund_payFees_overflow hh hp hpay h
              exact ⟨_, .prepaidEnd hterms hnow hh hp hsub rfl hdays hmul hpay ht⟩
            · cases h
          · cases h

theorem checkExitFees_overflow (h : checkExitFees s v = .error (.overflow op) w) :
    ∃ a, Aborts s v .checkExitFees a := by
  unfold checkExitFees at h
  obtain ⟨expired?, u, hexp, h⟩ := overflow_past isFeeExpired_inRange h
  rcases expired? with _ | _ | _
  · cases h
  · cases h
  · obtain ⟨now, held, t, log, hnow, hh, hp, hlt, rfl⟩ := isFeeExpired_eq_ok hexp
    rcases bind_eq_error h with h | ⟨cost, u, hfee, h⟩
    · obtain ⟨terms, hterms, hmul⟩ := feeForDays_overflow h
      exact ⟨_, .exitFee hnow hh hp hlt hterms hmul⟩
    · obtain ⟨terms, hterms, hmul, rfl⟩ := feeForDays_eq_ok hfee
      obtain ⟨_, _, ⟨⟩, h⟩ := overflow_past .player h
      obtain ⟨_, _, ⟨⟩, h⟩ := overflow_past .house h
      obtain ⟨paid, u, hpaid, h⟩ := overflow_past pay_inRange h
      rcases pay_eq_ok hpaid with ⟨rfl, purse, hpay, rfl⟩ | ⟨rfl, rfl⟩
      · rcases bind_eq_error h with h | ⟨_, u, -, h⟩
        · have ht := orRefund_payFees_overflow hh hp hpay h
          exact ⟨_, .exitEnd hnow hh hp hlt hterms hmul hpay ht⟩
        · cases h
      · obtain ⟨terms', u, -, h⟩ := overflow_past .terms h
        cases h

end Trade

namespace Hub

open Act Ledger

variable {s : Setting} {v : Visit}

theorem depart_inRange : InRange (depart s) v := by
  intro op w h
  rw [depart_apply] at h
  exact setLastHouse_inRange op w (map_eq_error.mp h)

theorem goBack_inRange : InRange (goBack s) v := by
  refine lastHouse_inRange.bind fun last? u _ => ?_
  cases last? with
  | none => exact .pure none
  | some last =>
    cases hlast : s.catalog.find? last with
    | none =>
      simp only [hlast]
      exact InRange.player.bind fun _ _ _ => .bind (.note _ _) fun _ _ _ => .pure none
    | some terms =>
      simp only [hlast]
      refine InRange.house.bind fun previous _ _ => .bind bind_inRange fun _ _ _ => hasHouse_inRange.bind fun held _ _ => ?_
      cases held with
      | true => exact .pure _
      | false => exact bind_inRange.bind fun _ _ _ => .pure _

end Hub

section

variable {s : Setting} {v w : Visit} {c : Call} {op : Overflow} {a : Abort}

open Act Ledger

/-- A call that overflows does so in one of the places. -/
theorem Call.exists_aborts (h : c.run s v = .error (.overflow op) w) : ∃ a, Aborts s v c a := by
  cases c with
  | player => exact absurd h (InRange.player.map _ op w)
  | house => exact absurd h (InRange.house.map _ op w)
  | bind id => cases h
  | terms => exact absurd h (InRange.terms.map _ op w)
  | hasHouse => exact absurd h (hasHouse_inRange.map _ op w)
  | isFeeExpired => exact absurd h (isFeeExpired_inRange.map _ op w)
  | paidUntil => exact absurd h (paidUntil_inRange.map _ op w)
  | expiryLabel => exact absurd h (expiryLabel_inRange.map _ op w)
  | leases => exact absurd h (leases_inRange.map _ op w)
  | lastHouse => exact absurd h (lastHouse_inRange.map _ op w)
  | setLastHouse value => exact absurd h (setLastHouse_inRange.map _ op w)
  | depart => exact absurd h (Hub.depart_inRange.map _ op w)
  | goBack => exact absurd h (Hub.goBack_inRange.map _ op w)
  | leave => exact absurd h ((InRange.terms.bind fun _ _ _ => .pure _).map _ op w)
  | secondsRemaining =>
    obtain ⟨now, held, t, hnow, hh, hp, hsub⟩ := secondsRemaining_overflow (map_eq_error.mp h)
    exact ⟨_, .secondsRemaining hnow hh hp hsub⟩
  | daysRemaining =>
    rcases bind_eq_error (map_eq_error.mp h) with h | ⟨_, _, -, h⟩
    · obtain ⟨now, held, t, hnow, hh, hp, hsub⟩ := secondsRemaining_overflow h
      exact ⟨_, .daysRemaining hnow hh hp hsub⟩
    · cases h
  | feeForDays days =>
    obtain ⟨terms, hterms, hmul⟩ := feeForDays_overflow (map_eq_error.mp h)
    exact ⟨_, .feeForDays hterms hmul⟩
  | purchase =>
    obtain ⟨terms, held, store, now, hterms, he, hnew, hnow, ht⟩ := purchase_overflow (map_eq_error.mp h)
    exact ⟨_, .purchase hterms he hnew hnow ht⟩
  | payFees days =>
    obtain ⟨held, t, hh, hp, ht⟩ := payFees_overflow (map_eq_error.mp h)
    exact ⟨_, .payFees hh hp ht⟩
  | buyHouse => exact Trade.buyHouse_overflow (map_eq_error.mp h)
  | prepayFees days => exact Trade.prepayFees_overflow (map_eq_error.mp h)
  | checkExitFees => exact Trade.checkExitFees_overflow (map_eq_error.mp h)

/-! ## In these places -/

namespace Ledger

variable {s : Setting} {v : Visit} {h : Holdings} {now t : Int64} {days : UInt32}

theorem secondsRemaining_aborts (hnow : s.now = some now) (hh : s.held v = .ok (some h))
    (hp : h.paidUntil? v.ledger.house = some t) (hsub : checked .subtract (t.toInt - now.toInt) = .error .subtract) :
    ∃ log, secondsRemaining s v = .error (.overflow .subtract) (v.consulted (some h) log) := by
  obtain ⟨log, hq⟩ := paidUntil_ok hh
  rw [Option.bind_some, hp] at hq
  exact ⟨log, by simp [secondsRemaining, hnow, hq, hsub]⟩

theorem secondsRemaining_ok {remaining : Int64} (hnow : s.now = some now) (hh : s.held v = .ok (some h))
    (hp : h.paidUntil? v.ledger.house = some t) (hsub : checked .subtract (t.toInt - now.toInt) = .ok remaining) :
    ∃ log, secondsRemaining s v = .ok (some remaining) (v.consulted (some h) log) := by
  obtain ⟨log, hq⟩ := paidUntil_ok hh
  rw [Option.bind_some, hp] at hq
  exact ⟨log, by simp [secondsRemaining, hnow, hq, hsub]⟩

theorem isFeeExpired_ok (hnow : s.now = some now) (hh : s.held v = .ok (some h))
    (hp : h.paidUntil? v.ledger.house = some t) :
    ∃ log, isFeeExpired s v = .ok (some (decide (t < now))) (v.consulted (some h) log) := by
  obtain ⟨log, hq⟩ := paidUntil_ok hh
  rw [Option.bind_some, hp] at hq
  exact ⟨log, by simp [isFeeExpired, hnow, hq]⟩

theorem payFees_aborts (hh : s.held v = .ok (some h)) (hp : h.paidUntil? v.ledger.house = some t)
    (ht : addDays t days = .error .add) :
    ∃ log, payFees s days v = .error (.overflow .add) (v.consulted (some h) log) := by
  obtain ⟨log, hc⟩ := consult_ok hh
  exact ⟨log, by simp [payFees, hc, hp, ht]⟩

theorem purchase_aborts {terms : House} {store : Store} (hterms : s.catalog.find? v.ledger.house = some terms)
    (he : s.enrolled v = .ok (h, store)) (hnew : h.owns v.ledger.house = false) (hnow : s.now = some now)
    (ht : addDays now terms.prepaidDaysOnPurchase = .error .add) :
    ∃ log, purchase s v = .error (.overflow .add) (v.copied store h log) := by
  obtain ⟨log, hen⟩ := enrol_ok he
  exact ⟨log, by simp [purchase, Setting.terms_apply, hterms, hen, hnew, hnow, ht]⟩

end Ledger

theorem Trade.orRefund_payFees_aborts {days : UInt32} {h : Holdings} {t : Int64} (hh : s.held v = .ok (some h))
    (hp : h.paidUntil? v.ledger.house = some t) (ht : addDays t days = .error .add) (cost purse : Int64)
    (log : List LogLine) :
    ∃ log', orRefund cost (payFees s days) ((v.consulted (some h) log).withPurse purse) =
      .error (.overflow .add) ((v.consulted (some h) log').withPurse purse) := by
  obtain ⟨log', hf⟩ := payFees_aborts (s := s) (v := (v.consulted (some h) log).withPurse purse)
    ((Looked.consulted hh log).held.trans hh) hp ht
  exact ⟨log', orRefund_abort (fun f => Stop.noConfusion) hf⟩

/-- A call that comes to one of the places is cut off there. -/
theorem Aborts.run (ha : Aborts s v c a) :
    ∃ w, c.run s v = .error (.overflow a.op) w ∧ w.store = a.store ∧ w.purse = v.purse - a.cost := by
  have hfree : v.purse = v.purse - 0 := by rw [Int64.sub_zero]
  cases ha with
  | @secondsRemaining h now t hnow hh hp hsub =>
    obtain ⟨log, hr⟩ := secondsRemaining_aborts hnow hh hp hsub
    exact ⟨v.consulted (some h) log, by simp [Call.run, hr], rfl, hfree⟩
  | @daysRemaining h now t hnow hh hp hsub =>
    obtain ⟨log, hr⟩ := secondsRemaining_aborts hnow hh hp hsub
    exact ⟨v.consulted (some h) log, by simp [Call.run, Ledger.daysRemaining, hr], rfl, hfree⟩
  | feeForDays hterms hmul =>
    exact ⟨v, by simp [Call.run, Ledger.feeForDays, Setting.terms_apply, hterms, hmul], rfl, hfree⟩
  | @purchase terms h store now hterms he hnew hnow ht =>
    obtain ⟨log, hr⟩ := purchase_aborts hterms he hnew hnow ht
    exact ⟨v.copied store h log, by simp [Call.run, hr], rfl, hfree⟩
  | @payFees days h t hh hp ht =>
    obtain ⟨log, hr⟩ := payFees_aborts hh hp ht
    exact ⟨v.consulted (some h) log, by simp [Call.run, hr], rfl, hfree⟩
  | @buyHouse terms h store now purse hterms he hnew hpay hnow ht =>
    obtain ⟨held, hh, hheld⟩ := held_of_enrolled he
    obtain ⟨log, hq⟩ := paidUntil_ok hh
    have hnone : h.paidUntil? v.ledger.house = none := by simpa [Holdings.owns] using hnew
    rw [hheld, hnone] at hq
    obtain ⟨log', hr⟩ := purchase_aborts (s := s) (v := (v.consulted held log).withPurse purse) hterms
      ((enrolled_of_looked (.consulted hh log)).trans he) hnew hnow ht
    have hcut : Trade.orRefund terms.purchaseCost (Ledger.purchase s) ((v.consulted held log).withPurse purse) = _ :=
      Trade.orRefund_abort (fun f => Stop.noConfusion) hr
    refine ⟨(v.copied store h log').withPurse purse, ?_, rfl, (Purse.pay?_eq_some.mp hpay).2.symm⟩
    simp [Call.run, Trade.buyHouse, Setting.terms_apply, hterms, Ledger.hasHouse, hq, Trade.pay_apply, hpay, hcut]
  | @prepaidTime requested terms h now t hterms hnow hh hp hsub =>
    obtain ⟨log, hr⟩ := secondsRemaining_aborts hnow hh hp hsub
    refine ⟨v.consulted (some h) log, ?_, rfl, hfree⟩
    simp [Call.run, Trade.prepayFees, Setting.terms_apply, hterms, hr]
  | @prepaidFee requested terms h now t remaining days hterms hnow hh hp hsub hdays hne hmul =>
    obtain ⟨log, hr⟩ := secondsRemaining_ok hnow hh hp hsub
    subst hdays
    refine ⟨v.consulted (some h) log, ?_, rfl, hfree⟩
    simp [Call.run, Trade.prepayFees, Setting.terms_apply, hterms, hr, if_neg hne, Ledger.feeForDays, hmul]
  | @prepaidEnd requested terms h now t remaining days cost purse hterms hnow hh hp hsub hdays hne hmul hpay ht =>
    obtain ⟨log, hr⟩ := secondsRemaining_ok hnow hh hp hsub
    obtain ⟨log', hcut⟩ := Trade.orRefund_payFees_aborts hh hp ht cost purse log
    subst hdays
    refine ⟨(v.consulted (some h) log').withPurse purse, ?_, rfl, (Purse.pay?_eq_some.mp hpay).2.symm⟩
    simp [Call.run, Trade.prepayFees, Setting.terms_apply, hterms, hr, if_neg hne, Ledger.feeForDays, hmul,
      Trade.pay_apply, hpay, hcut]
  | @exitFee terms h now t hnow hh hp hlt hterms hmul =>
    obtain ⟨log, hr⟩ := isFeeExpired_ok hnow hh hp
    rw [decide_eq_true hlt] at hr
    refine ⟨v.consulted (some h) log, ?_, rfl, hfree⟩
    simp only [Call.run, Act.map_apply, Trade.checkExitFees, Act.bind_apply, hr, Ledger.feeForDays, Setting.terms_apply,
      Visit.consulted_house, hterms, Act.ofOverflow_apply, hmul]
  | @exitEnd terms h now t cost purse hnow hh hp hlt hterms hmul hpay ht =>
    obtain ⟨log, hr⟩ := isFeeExpired_ok hnow hh hp
    rw [decide_eq_true hlt] at hr
    obtain ⟨log', hcut⟩ := Trade.orRefund_payFees_aborts hh hp ht cost purse log
    refine ⟨(v.consulted (some h) log').withPurse purse, ?_, rfl, (Purse.pay?_eq_some.mp hpay).2.symm⟩
    simp only [Call.run, Act.map_apply, Trade.checkExitFees, Act.bind_apply, hr, Ledger.feeForDays, Setting.terms_apply,
      Visit.consulted_house, hterms, Act.ofOverflow_apply, hmul, Act.player_apply, Act.house_apply, Trade.pay_apply,
      Visit.consulted_purse, hpay, if_true, hcut]

/-- Where an overflow cut a call off, what was stored by then and what was paid. -/
theorem Call.aborted (h : c.run s v = .error (.overflow op) w) :
    ∃ a, Aborts s v c a ∧ a.op = op ∧ w.store = a.store ∧ w.purse = v.purse - a.cost := by
  obtain ⟨a, ha⟩ := Call.exists_aborts h
  obtain ⟨w', hrun, hstore, hpurse⟩ := ha.run
  cases h.symm.trans hrun
  exact ⟨a, ha, rfl, hstore, hpurse⟩

/-! ## What an abort costs -/

/-- The time left and the fees are worked out before anything is paid or stored. -/
theorem Aborts.free (ha : Aborts s v c a) (hop : a.op ≠ .add) : a.cost = 0 ∧ a.store = v.store := by
  cases ha with
  | secondsRemaining | daysRemaining | feeForDays | prepaidTime | prepaidFee | exitFee => exact ⟨rfl, rfl⟩
  | purchase | payFees | buyHouse | prepaidEnd | exitEnd => exact absurd rfl hop

theorem Purse.unspent_iff {balance cost : Int64} : balance - cost = balance ↔ cost = 0 := by
  have h := Int64.sub_right_inj (a := cost) (b := 0) balance
  rwa [Int64.sub_zero] at h

/-- Overflows cost a call's player nothing just if, where the end of its lease leaves the range, nothing
    has been paid and no record made by then. -/
theorem aborts_cost_nothing_iff (s : Setting) (v : Visit) (c : Call) :
    (∀ op w, c.run s v = .error (.overflow op) w → w.purse = v.purse ∧ w.store = v.store) ↔
      ∀ a, Aborts s v c a → a.op = .add → a.cost = 0 ∧ a.store = v.store := by
  constructor
  · intro hkept a ha _
    obtain ⟨w, hrun, hstore, hpurse⟩ := ha.run
    obtain ⟨hp, hs⟩ := hkept _ _ hrun
    exact ⟨Purse.unspent_iff.mp (hpurse.symm.trans hp), hstore.symm.trans hs⟩
  · intro hfree op w hrun
    obtain ⟨a, ha, -, hstore, hpurse⟩ := Call.aborted hrun
    have hnothing : a.cost = 0 ∧ a.store = v.store := by
      by_cases hop : a.op = .add
      · exact hfree a ha hop
      · exact ha.free hop
    exact ⟨hpurse.trans (Purse.unspent_iff.mpr hnothing.1), hstore.trans hnothing.2⟩

end

/-- Ann buys the house in the clock's last second. The lease would end after it: the purchase is cut off
    with the price paid and a record made, and Ann has no house. -/
theorem a_price_is_lost_at_the_last_second :
    let s : Setting := { catalog := .shipped, now := some Int64.maxValue }
    let bought := Call.buyHouse.made s annAtGreyton
    annAtGreyton.purse = 2000000 ∧ bought.1 = ⟨.error (.overflow .add), 500000, "greyton"⟩ ∧
      annAtGreyton.store.holdings "Ann" = .ok none ∧ bought.2.store.holdings "Ann" = .ok (some .empty) := by
  decide +kernel

end HouseLease
