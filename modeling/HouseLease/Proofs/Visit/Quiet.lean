/-
  HouseLease.Proofs.Visit.Quiet — calls that come to no draft.

  Such a call answers after a look, or stops after one (`Call.quiet_of_no_draft`). An abort
  (overflow, no time) can cut it off behind the new record of a player who had none, or behind
  a debit. A fault finds store and purse as they were, unless it is that of a new record that
  could not be flushed: it is in the store then (`Call.Strands`).
-/

import HouseLease.Proofs.Visit.Drafts

namespace HouseLease

/-! ## How such a call ends -/

/-- How a call stops without a draft: after a look, or cut off by an abort, behind the new
    record of a player who had none or a debit. -/
inductive Halts (s : Setting) (v : Visit) : Stop → Visit → Prop
  | looked {e w} : s.Stops e → Looked s v w → Halts s v e w
  | abort {e w} :
      s.Stops e → (∀ f, e ≠ .fault f) → w.ledger.player = v.ledger.player → w.ledger.house = v.ledger.house →
      (Looked s v (w.withPurse v.purse) ∨
        ∃ h, s.enrolled v = .ok (h, w.store) ∧ w.ledger.copy = .present h) → Halts s v e w

/-- The visit with its ledger bound to another house. -/
def Visit.rebind (v : Visit) (house : String) : Visit := { v with ledger := { v.ledger with house } }

theorem Ledger.bind_apply (house : String) (v : Visit) : bind house v = .ok () (v.rebind house) := rfl

/-- The end of a call without a draft, of whose answer `P` can be said. -/
inductive Quiet {α : Type} (P : α → Prop) (s : Setting) (v : Visit) : EStateM.Result Stop Visit α → Prop
  | ok {a w} : P a → Looked s v w → Quiet P s v (.ok a w)
  | rebound {a w house} : P a → Looked s v w → Quiet P s v (.ok a (w.rebind house))
  | error {e w} : Halts s v e w → Quiet P s v (.error e w)

theorem Looks.quiet {α : Type} {P : α → Prop} {s : Setting} {v : Visit} {r : EStateM.Result Stop Visit α}
    (hp : ∀ a, P a) (h : Looks s v r) : Quiet P s v r := by
  cases h with
  | ok h => exact .ok (hp _) h
  | error he h => exact .error (.looked he h)

theorem Quiet.map {α β : Type} {P : β → Prop} {s : Setting} {v : Visit} {x : Act α} (g : α → β)
    (hx : Quiet (fun a => P (g a)) s v (x v)) : Quiet P s v ((g <$> x) v) := by
  rw [Act.map_apply]
  generalize x v = r at hx
  cases hx with
  | ok hp h => exact .ok hp h
  | rebound hp h => exact .rebound hp h
  | error h => exact .error h

theorem Quiet.weaken {α : Type} {P Q : α → Prop} {s : Setting} {v : Visit} {r : EStateM.Result Stop Visit α}
    (hr : Quiet P s v r) (h : ∀ a, P a → Q a) : Quiet Q s v r := by
  cases hr with
  | ok hp hl => exact .ok (h _ hp) hl
  | rebound hp hl => exact .rebound (h _ hp) hl
  | error hh => exact .error hh

/-- The answers that report a change. A departure does not say whether it was remembered. -/
def Call.reports : Call → Answer → Bool
  | .purchase, .flag b | .payFees _, .flag b | .setLastHouse _, .flag b => b
  | .buyHouse, .purchase (.bought _ _) => true
  | .prepayFees _, .prepay (.paid _ _) => true
  | .checkExitFees, .feeCheck (.charged _) => true
  | _, _ => false

namespace Looked

variable {s : Setting} {v : Visit}

theorem copied {h : Holdings} (hh : s.held v = .ok (some h)) (log : List LogLine) :
    Looked s v (v.copied v.store h log) :=
  .consulted hh log

theorem refunded {u w : Visit} {purse : Int64} (hu : Looked s v u) (hw : Looked s (u.withPurse purse) w)
    (log : List LogLine) : Looked s v ((w.withLog log).withPurse v.purse) := by
  refine ⟨hw.store.trans hu.store, rfl, hw.player.trans hu.player, hw.house.trans hu.house, ?_⟩
  rcases hw.copy with hc | ⟨held, hh, hc⟩
  · rcases hu.copy with hc' | ⟨held, hh, hc'⟩
    · exact Or.inl (hc.trans hc')
    · exact Or.inr ⟨held, hh, hc.trans hc'⟩
  · exact Or.inr ⟨held, hu.held ▸ hh, hc⟩

end Looked

namespace Ledger

variable {s : Setting} {v : Visit}

theorem enrolled_of_owns {h : Holdings} {store : Store} {house : String} (he : s.enrolled v = .ok (h, store))
    (hown : h.owns house = true) : s.held v = .ok (some h) ∧ store = v.store := by
  rcases Setting.enrolled_cases he with hh | ⟨-, rfl, -⟩
  · exact hh
  · cases hown

/-- Without a draft a purchase answers `false`, the house being held, or stops, or makes a record that cannot be
    flushed. -/
theorem purchase_no_draft (hn : ∀ d, ¬ Drafts s v .purchase d) :
    (∃ w h, purchase s v = .ok false w ∧ Looked s v w ∧ s.held v = .ok (some h) ∧ h.owns v.ledger.house = true) ∨
      (∃ e w, purchase s v = .error e w ∧ Halts s v e w) ∨
        ∃ reason w, purchase s v = .error (.fault (.storeUnflushed reason)) w ∧ Stranded s v w reason := by
  cases hterms : s.catalog.find? v.ledger.house with
  | none =>
    exact Or.inr (Or.inl ⟨.fault (.unknownHouse v.ledger.house), v, by simp [purchase, Setting.terms_apply, hterms],
      .looked (.fault _) (.refl s v)⟩)
  | some terms =>
    cases he : s.enrolled v with
    | error e =>
      right
      obtain ⟨w, hw, ⟨hstops, hl⟩ | ⟨reason, rfl, hst⟩⟩ := enrol_error he
      · exact Or.inl ⟨e, w, by simp [purchase, Setting.terms_apply, hterms, hw], .looked hstops hl⟩
      · exact Or.inr ⟨reason, w, by simp [purchase, Setting.terms_apply, hterms, hw], hst⟩
    | ok p =>
      obtain ⟨h, store⟩ := p
      obtain ⟨log, hw⟩ := enrol_ok he
      by_cases hown : h.owns v.ledger.house = true
      · obtain ⟨hh, rfl⟩ := enrolled_of_owns he hown
        refine Or.inl ⟨v.copied v.store h (log ++ [⟨.warn, v.ledger.player ++ " already owns " ++ v.ledger.house
          ++ "; purchase ignored"⟩]), h, ?_, Looked.copied hh _, hh, hown⟩
        simp [purchase, Setting.terms_apply, hterms, hw, hown]
        rfl
      · refine Or.inr (Or.inl ?_)
        cases hnow : s.now with
        | none =>
          refine ⟨.noTime, v.copied store h log, ?_, .abort (.untimed (Or.inl hnow)) (fun f => Stop.noConfusion) rfl rfl
            (Or.inr ⟨h, he, rfl⟩)⟩
          simp [purchase, Setting.terms_apply, hterms, hw, hown, hnow]
        | some now =>
          cases ht : addDays now terms.prepaidDaysOnPurchase with
          | ok t => exact absurd (.purchase hterms he (by simpa using hown) hnow ht) (hn _)
          | error op =>
            refine ⟨.overflow op, v.copied store h log, ?_, .abort (.overflow op) (fun f => Stop.noConfusion) rfl rfl
              (Or.inr ⟨h, he, rfl⟩)⟩
            simp [purchase, Setting.terms_apply, hterms, hw, hown, hnow, ht]

/-- Without a draft a payment answers `false`, the house not being held, or stops. -/
theorem payFees_no_draft {days : UInt32} (hn : ∀ d, ¬ Drafts s v (.payFees days) d) :
    (∃ w held, payFees s days v = .ok false w ∧ Looked s v w ∧ s.held v = .ok held ∧
      held.bind (·.paidUntil? v.ledger.house) = none) ∨ ∃ e w, payFees s days v = .error e w ∧ Halts s v e w := by
  cases hh : s.held v with
  | error f => exact Or.inr ⟨.fault f, v, by simp [payFees, consult_error hh], .looked (.fault f) (.refl s v)⟩
  | ok held =>
    obtain ⟨log, hc⟩ := consult_ok hh
    cases hp : held.bind (·.paidUntil? v.ledger.house) with
    | none =>
      refine Or.inl ⟨_, held, ?_, (Looked.consulted hh log).log (log ++ [⟨.debug, v.ledger.player ++ " does not own "
        ++ v.ledger.house ++ "; fee payment skipped"⟩]), rfl, hp⟩
      simp [payFees, hc, hp]
      rfl
    | some t =>
      obtain ⟨h, rfl, hp'⟩ := Option.bind_eq_some_iff.mp hp
      cases ht : addDays t days with
      | ok t' => exact absurd (.payFees hh hp' ht) (hn _)
      | error op =>
        exact Or.inr ⟨.overflow op, v.consulted (some h) log, by simp [payFees, hc, hp', ht],
          .looked (.overflow op) (.consulted hh log)⟩

theorem setLastHouse_no_draft {value : String} (hn : ∀ d, ¬ Drafts s v (.setLastHouse value) d) :
    Quiet (fun b => b = false) s v (setLastHouse s value v) := by
  cases hh : s.held v with
  | error f =>
    rw [setLastHouse, Act.bind_apply, consult_error hh]
    exact .error (.looked (.fault f) (.refl s v))
  | ok held =>
    cases held with
    | some h => exact absurd (.setLastHouse hh) (hn _)
    | none =>
      obtain ⟨log, hc⟩ := consult_ok hh
      rw [setLastHouse, Act.bind_apply, hc]
      simp only [Act.bind_apply, Act.player_apply, Act.note_apply, Act.pure_apply]
      exact .ok rfl ((Looked.consulted hh log).log _)

end Ledger

namespace Trade

variable {s : Setting} {v : Visit}

/-- A change that is paid for and stops without a draft. -/
theorem orRefund_halts {α : Type} {act : Act α} {u w : Visit} {cost purse : Int64} {e : Stop} (hu : Looked s v u)
    (hpay : Purse.pay? v.purse cost = some purse) (hact : act (u.withPurse purse) = .error e w)
    (hh : Halts s (u.withPurse purse) e w) :
    ∃ w', orRefund cost act (u.withPurse purse) = .error e w' ∧ Halts s v e w' := by
  have henrolled : s.enrolled (u.withPurse purse) = s.enrolled v :=
    (s.enrolled_withPurse u purse).trans (Ledger.enrolled_of_looked hu)
  by_cases he : ∃ f, e = .fault f
  · obtain ⟨f, rfl⟩ := he
    cases hh with
    | looked he hl =>
      have hback : Purse.refund w.purse cost = .ok v.purse := by
        rw [hl.purse]
        exact Purse.refund_pay? hpay
      obtain ⟨log, hr⟩ := orRefund_fault hact hback
      exact ⟨_, hr, .looked he (Looked.refunded hu hl log)⟩
    | abort _ hne => exact absurd rfl (hne f)
  · have hne : ∀ f, e ≠ .fault f := fun f h => he ⟨f, h⟩
    refine ⟨w, orRefund_abort hne hact, ?_⟩
    cases hh with
    | looked he hl =>
      exact .abort he hne (hl.player.trans hu.player) (hl.house.trans hu.house) (Or.inl (Looked.refunded hu hl w.log))
    | abort he _ hp hho hs =>
      refine .abort he hne (hp.trans hu.player) (hho.trans hu.house) ?_
      rcases hs with hl | ⟨h, hen, hc⟩
      · exact Or.inl (Looked.refunded hu hl w.log)
      · exact Or.inr ⟨h, henrolled ▸ hen, hc⟩

/-- A purchase that is paid for and strands a record: the money is given back. -/
theorem orRefund_stranded {u w : Visit} {cost purse : Int64} {reason : String} (hu : Looked s v u)
    (hpay : Purse.pay? v.purse cost = some purse)
    (hact : Ledger.purchase s (u.withPurse purse) = .error (.fault (.storeUnflushed reason)) w)
    (hst : Stranded s (u.withPurse purse) w reason) :
    ∃ w', orRefund cost (Ledger.purchase s) (u.withPurse purse) = .error (.fault (.storeUnflushed reason)) w' ∧
      Stranded s v w' reason := by
  have hback : Purse.refund w.purse cost = .ok v.purse := by
    rw [hst.purse]
    exact Purse.refund_pay? hpay
  obtain ⟨log, hr⟩ := orRefund_fault hact hback
  obtain ⟨r, hc⟩ := hst.created
  have hc : s.created v = .ok (r, w.store) := by
    rw [← hc]
    simp only [Setting.created, Visit.withPurse_store, Visit.withPurse_ledger, hu.store, hu.player]
  exact ⟨_, hr, hu.held.symm.trans hst.held, ⟨r, hc⟩, hst.unflushed, rfl, hst.player.trans hu.player,
    hst.house.trans hu.house, hst.copy⟩

theorem buyHouse_no_draft (hn : ∀ d, ¬ Drafts s v .buyHouse d) :
    Quiet (fun o => Call.buyHouse.reports (.purchase o) = false) s v (buyHouse s v) ∨
      ∃ reason w, buyHouse s v = .error (.fault (.storeUnflushed reason)) w ∧ Stranded s v w reason := by
  cases hterms : s.catalog.find? v.ledger.house with
  | none =>
    simp only [buyHouse, Act.bind_apply, Setting.terms_apply, hterms]
    exact Or.inl (.error (.looked (.fault _) (.refl s v)))
  | some terms =>
    simp only [buyHouse, Act.bind_apply, Setting.terms_apply, hterms, Ledger.hasHouse]
    cases hh : s.held v with
    | error f =>
      rw [Ledger.paidUntil_error hh]
      exact Or.inl (.error (.looked (.fault _) (.refl s v)))
    | ok held =>
      obtain ⟨log, hq⟩ := Ledger.paidUntil_ok hh
      have hlook : Looked s v (v.consulted held log) := .consulted hh log
      simp only [hq, Act.pure_apply]
      cases hp : held.bind (·.paidUntil? v.ledger.house) with
      | some t => exact Or.inl (.ok rfl hlook)
      | none =>
        simp only [Option.isSome_none, Bool.false_eq_true, if_false, Act.bind_apply, pay_apply, Visit.consulted_purse]
        cases hpay : Purse.pay? v.purse terms.purchaseCost with
        | none => exact Or.inl (.ok rfl hlook)
        | some purse =>
          simp only [Bool.not_true, Bool.false_eq_true, if_false, Act.bind_apply]
          have hdraft : ∀ d, ¬ Drafts s ((v.consulted held log).withPurse purse) .purchase d := by
            intro d hd
            cases hd with
            | purchase hterms' he hnew hnow ht =>
              cases hterms.symm.trans hterms'
              exact hn _ (.buyHouse hterms ((Ledger.enrolled_of_looked hlook).symm.trans he) hnew hpay hnow ht)
          rcases Ledger.purchase_no_draft hdraft with
            ⟨w, h, -, -, hh', hown⟩ | ⟨e, w, hw, hhalts⟩ | ⟨reason, w, hw, hst⟩
          · -- the house would have been found before it was paid for
            rw [Setting.held_withPurse, hlook.held, hh] at hh'
            cases hh'
            rw [Holdings.owns, Visit.withPurse_ledger, Visit.consulted_house,
              show h.paidUntil? v.ledger.house = none from hp] at hown
            cases hown
          · obtain ⟨w', hr, hhalts'⟩ := orRefund_halts hlook hpay hw hhalts
            rw [hr]
            exact Or.inl (.error hhalts')
          · obtain ⟨w', hr, hst'⟩ := orRefund_stranded hlook hpay hw hst
            rw [hr]
            exact Or.inr ⟨reason, w', rfl, hst'⟩

/-- Paying for days of fees on a lease that cannot be extended by them. -/
theorem orRefund_payFees_halts {days : UInt32} {h : Holdings} {u : Visit} {t cost purse : Int64} (hu : Looked s v u)
    (hh : s.held v = .ok (some h)) (hp : h.paidUntil? v.ledger.house = some t)
    (hn : ∀ t', addDays t days ≠ .ok t') (hpay : Purse.pay? v.purse cost = some purse) :
    ∃ e w, orRefund cost (Ledger.payFees s days) (u.withPurse purse) = .error e w ∧ Halts s v e w := by
  have hheld : s.held (u.withPurse purse) = .ok (some h) := hu.held.trans hh
  have hlease : h.paidUntil? (u.withPurse purse).ledger.house = some t := by
    rw [Visit.withPurse_ledger, hu.house, hp]
  have hdraft : ∀ d, ¬ Drafts s (u.withPurse purse) (.payFees days) d := by
    intro d hd
    cases hd with
    | payFees hh' hp' ht =>
      cases hheld.symm.trans hh'
      cases hlease.symm.trans hp'
      exact hn _ ht
  rcases Ledger.payFees_no_draft hdraft with ⟨w, held, -, -, hh', hnone⟩ | ⟨e, w, hw, hhalts⟩
  · cases hheld.symm.trans hh'
    cases hlease.symm.trans hnone
  · obtain ⟨w', hr, hhalts'⟩ := orRefund_halts hu hpay hw hhalts
    exact ⟨e, w', hr, hhalts'⟩

theorem prepayFees_no_draft {requested : UInt32} (hn : ∀ d, ¬ Drafts s v (.prepayFees requested) d) :
    Quiet (fun o => (Call.prepayFees requested).reports (.prepay o) = false) s v (prepayFees s requested v) := by
  cases hterms : s.catalog.find? v.ledger.house with
  | none =>
    simp only [prepayFees, Act.bind_apply, Setting.terms_apply, hterms]
    exact .error (.looked (.fault _) (.refl s v))
  | some terms =>
    simp only [prepayFees, Act.bind_apply, Setting.terms_apply, hterms, Ledger.secondsRemaining, Act.ofClock_apply]
    cases hnow : s.now with
    | none => exact .error (.looked (.untimed (Or.inl hnow)) (.refl s v))
    | some now =>
      cases hh : s.held v with
      | error f =>
        simp only [Ledger.paidUntil_error hh]
        exact .error (.looked (.fault _) (.refl s v))
      | ok held =>
        obtain ⟨log, hq⟩ := Ledger.paidUntil_ok hh
        have hlook : Looked s v (v.consulted held log) := .consulted hh log
        simp only [hq]
        cases hp : held.bind (·.paidUntil? v.ledger.house) with
        | none => exact .ok rfl hlook
        | some t =>
          obtain ⟨h, rfl, hp'⟩ := Option.bind_eq_some_iff.mp hp
          simp only [Act.bind_apply, Act.ofOverflow_apply]
          cases hsub : checked .subtract (t.toInt - now.toInt) with
          | error op => exact .error (.looked (.overflow op) hlook)
          | ok remaining =>
            simp only [Act.pure_apply]
            by_cases hdays : min requested (daysAllowed terms.maxPrepaidDays remaining) = 0
            · rw [if_pos hdays]
              exact .ok rfl hlook
            · simp only [if_neg hdays, Act.bind_apply, Ledger.feeForDays, Setting.terms_apply, Visit.consulted_house,
                hterms, Act.ofOverflow_apply]
              cases hmul : checked .multiply (terms.dailyFee.toInt
                  * (min requested (daysAllowed terms.maxPrepaidDays remaining)).toNat) with
              | error op => exact .error (.looked (.overflow op) hlook)
              | ok cost =>
                simp only [pay_apply, Visit.consulted_purse]
                cases hpay : Purse.pay? v.purse cost with
                | none => exact .ok rfl hlook
                | some purse =>
                  obtain ⟨e, w, hr, hhalts⟩ := orRefund_payFees_halts hlook hh hp'
                    (fun t' ht => hn _ (.prepayFees hterms hh hp' hnow hsub rfl hdays hmul hpay ht)) hpay
                  simp only [Bool.not_true, Bool.false_eq_true, if_false, Act.bind_apply, hr]
                  exact .error hhalts

theorem checkExitFees_no_draft (hn : ∀ d, ¬ Drafts s v .checkExitFees d) :
    Quiet (fun o => Call.checkExitFees.reports (.feeCheck o) = false) s v (checkExitFees s v) := by
  simp only [checkExitFees, Ledger.isFeeExpired, Act.bind_apply, Act.ofClock_apply]
  cases hnow : s.now with
  | none => exact .error (.looked (.untimed (Or.inl hnow)) (.refl s v))
  | some now =>
    cases hh : s.held v with
    | error f =>
      simp only [Ledger.paidUntil_error hh]
      exact .error (.looked (.fault _) (.refl s v))
    | ok held =>
      obtain ⟨log, hq⟩ := Ledger.paidUntil_ok hh
      have hlook : Looked s v (v.consulted held log) := .consulted hh log
      simp only [hq, Act.pure_apply]
      cases hp : held.bind (·.paidUntil? v.ledger.house) with
      | none => exact .ok rfl hlook
      | some t =>
        obtain ⟨h, rfl, hp'⟩ := Option.bind_eq_some_iff.mp hp
        by_cases hlt : t < now
        · simp only [Option.map_some, hlt, decide_true, Act.bind_apply, Ledger.feeForDays, Setting.terms_apply,
            Visit.consulted_house]
          cases hterms : s.catalog.find? v.ledger.house with
          | none => exact .error (.looked (.fault _) hlook)
          | some terms =>
            simp only [Act.ofOverflow_apply]
            cases hmul : checked .multiply (terms.dailyFee.toInt * (1 : UInt32).toNat) with
            | error op => exact .error (.looked (.overflow op) hlook)
            | ok cost =>
              simp only [Act.player_apply, Act.house_apply, pay_apply, Visit.consulted_purse]
              cases hpay : Purse.pay? v.purse cost with
              | none =>
                simp only [Bool.false_eq_true, if_false, Act.bind_apply, Setting.terms_apply, Visit.consulted_house,
                  hterms, Act.note_apply, Act.pure_apply]
                exact .ok rfl (hlook.log _)
              | some purse =>
                obtain ⟨e, w, hr, hhalts⟩ := orRefund_payFees_halts hlook hh hp'
                  (fun t' ht => hn _ (.checkExitFees hh hp' hnow hlt hterms hmul hpay ht)) hpay
                simp only [if_true, Act.bind_apply, hr]
                exact .error hhalts
        · simp only [Option.map_some, hlt, decide_false, Act.pure_apply]
          exact .ok rfl hlook

end Trade

namespace Hub

variable {s : Setting} {v : Visit}

theorem depart_no_draft (hn : ∀ d, ¬ Drafts s v .depart d) : Quiet (fun _ => True) s v (depart s v) := by
  have hdraft : ∀ d, ¬ Drafts s v (.setLastHouse v.ledger.house) d := by
    intro d hd
    cases hd with
    | setLastHouse hh => exact hn _ (.depart hh)
  rw [depart_apply]
  exact .map _ ((Ledger.setLastHouse_no_draft hdraft).weaken fun _ _ => trivial)

/-- The catalog has the house last left, on these terms, and the player still holds it. -/
structure LeadsBack (c : Catalog) (h : Holdings) (last : String) (terms : House) : Prop where
  left : h.lastHouse = some last
  listed : c.find? last = some terms
  owned : h.owns last = true

theorem goBack_fault {f : Fault} (hh : s.held v = .error f) : goBack s v = .error (.fault f) v := by
  simp only [goBack, Act.bind_apply, Ledger.lastHouse_error hh]

theorem goBack_opens {h : Holdings} {last : String} {terms : House} (hh : s.held v = .ok (some h))
    (hback : LeadsBack s.catalog h last terms) :
    ∃ log, goBack s v = .ok (some terms.fromHubPortal) ((v.consulted (some h) log).rebind last) := by
  obtain ⟨log, hlast⟩ := Ledger.lastHouse_ok hh
  rw [Option.bind_some, hback.left] at hlast
  have hbound : s.held ((v.consulted (some h) log).rebind last) = .ok (some h) := s.held_of_copy rfl
  obtain ⟨log', hpaid⟩ := Ledger.paidUntil_ok hbound
  rw [Option.bind_some] at hpaid
  have howned : (h.paidUntil? ((v.consulted (some h) log).rebind last).ledger.house).isSome = true := hback.owned
  refine ⟨log', ?_⟩
  simp only [goBack, Act.bind_apply, hlast, hback.listed, Act.house_apply, Ledger.bind_apply, Ledger.hasHouse, hpaid,
    Act.pure_apply, howned, if_true]
  rfl

/-- If the ledger was bound to the house last left in between, it is bound again to the one before. -/
theorem goBack_stays {held : Option Holdings} (hh : s.held v = .ok held)
    (hno : ∀ h last terms, held = some h → ¬ LeadsBack s.catalog h last terms) :
    ∃ log, goBack s v = .ok none (v.consulted held log) := by
  obtain ⟨log, hq⟩ := Ledger.lastHouse_ok hh
  simp only [goBack, Act.bind_apply, hq]
  cases hlast : held.bind (·.lastHouse) with
  | none => exact ⟨log, rfl⟩
  | some last =>
    obtain ⟨h, rfl, hlast⟩ := Option.bind_eq_some_iff.mp hlast
    cases hterms : s.catalog.find? last with
    | none =>
      simp only [hterms, Act.bind_apply, Act.player_apply, Act.note_apply, Act.pure_apply]
      exact ⟨_, rfl⟩
    | some terms =>
      have hbound : s.held ((v.consulted (some h) log).rebind last) = .ok (some h) := s.held_of_copy rfl
      obtain ⟨log', hpaid⟩ := Ledger.paidUntil_ok hbound
      rw [Option.bind_some] at hpaid
      have howned : ¬ (h.paidUntil? ((v.consulted (some h) log).rebind last).ledger.house).isSome = true :=
        fun howned => hno h last terms rfl ⟨hlast, hterms, howned⟩
      refine ⟨log', ?_⟩
      simp only [hterms, Act.bind_apply, Act.house_apply, Visit.consulted_house, Ledger.bind_apply, Ledger.hasHouse,
        hpaid, Act.pure_apply, howned]
      rfl

theorem leadsBack_cases (s : Setting) (v : Visit) :
    (∃ f, s.held v = .error f) ∨
      (∃ h last terms, s.held v = .ok (some h) ∧ LeadsBack s.catalog h last terms) ∨
        ∃ held, s.held v = .ok held ∧ ∀ h last terms, held = some h → ¬ LeadsBack s.catalog h last terms := by
  cases hh : s.held v with
  | error f => exact Or.inl ⟨f, rfl⟩
  | ok held =>
    right
    by_cases hback : ∃ h last terms, held = some h ∧ LeadsBack s.catalog h last terms
    · obtain ⟨h, last, terms, rfl, hback⟩ := hback
      exact Or.inl ⟨h, last, terms, rfl, hback⟩
    · exact Or.inr ⟨held, rfl, fun h last terms hheld hleads => hback ⟨h, last, terms, hheld, hleads⟩⟩

/-- Going back only looks, if it can, and may bind the ledger to another house. -/
theorem goBack_ends (s : Setting) (v : Visit) :
    (∃ f, goBack s v = .error (.fault f) v) ∨
      ∃ a u w, goBack s v = .ok a w ∧ Looked s v u ∧ (w = u ∨ ∃ house, w = u.rebind house) := by
  rcases leadsBack_cases s v with ⟨f, hh⟩ | ⟨h, last, terms, hh, hback⟩ | ⟨held, hh, hno⟩
  · exact Or.inl ⟨f, goBack_fault hh⟩
  · obtain ⟨log, hopens⟩ := goBack_opens hh hback
    exact Or.inr ⟨_, _, _, hopens, .consulted hh log, Or.inr ⟨last, rfl⟩⟩
  · obtain ⟨log, hstays⟩ := goBack_stays hh hno
    exact Or.inr ⟨none, _, _, hstays, .consulted hh log, Or.inl rfl⟩

/-- Going back rebinds the ledger or leaves it bound as it was. -/
theorem goBack_quiet (s : Setting) (v : Visit) : Quiet (fun _ => True) s v (goBack s v) := by
  rcases goBack_ends s v with ⟨f, hstop⟩ | ⟨a, u, w, hend, hlook, rfl | ⟨house, rfl⟩⟩
  · exact hstop ▸ .error (.looked (.fault f) (.refl s v))
  · exact hend ▸ .ok trivial hlook
  · exact hend ▸ .rebound trivial hlook

theorem goBack_still (s : Setting) : (goBack s).Still := by
  intro v
  rcases goBack_ends s v with ⟨f, hstop⟩ | ⟨a, u, w, hend, hlook, rfl | ⟨house, rfl⟩⟩
  · rw [hstop]
    rfl
  · rw [hend]
    exact hlook.store
  · rw [hend]
    exact hlook.store

end Hub

/-- The call was buying a house when the record made for it could not be flushed. -/
def Call.Strands (c : Call) (s : Setting) (v : Visit) : Prop :=
  (c = .purchase ∨ c = .buyHouse) ∧
    ∃ reason w, c.run s v = .error (.fault (.storeUnflushed reason)) w ∧ Stranded s v w reason

/-- A call that comes to no draft reports no change and leaves store and purse alone, aborts and stranded records
    apart. -/
theorem Call.quiet_of_no_draft {s : Setting} {v : Visit} {c : Call} (hn : ∀ d, ¬ Drafts s v c d) :
    Quiet (fun a => c.reports a = false) s v (c.run s v) ∨ c.Strands s v := by
  by_cases hasks : c.asks = true
  · exact Or.inl ((c.looks_of_asks hasks s v).quiet fun a => by cases c <;> first | rfl | cases hasks)
  · cases c with
    | bind house => exact Or.inl (.rebound rfl (.refl s v))
    | goBack => exact Or.inl (.map _ ((Hub.goBack_quiet s v).weaken fun _ _ => rfl))
    | depart => exact Or.inl (.map _ ((Hub.depart_no_draft hn).weaken fun _ _ => rfl))
    | setLastHouse value => exact Or.inl (.map _ (Ledger.setLastHouse_no_draft hn))
    | buyHouse =>
      rcases Trade.buyHouse_no_draft hn with hquiet | ⟨reason, w, hw, hst⟩
      · exact Or.inl (.map _ hquiet)
      · exact Or.inr ⟨Or.inr rfl, reason, w, by rw [Call.run, Act.map_apply, hw], hst⟩
    | prepayFees days => exact Or.inl (.map _ (Trade.prepayFees_no_draft hn))
    | checkExitFees => exact Or.inl (.map _ (Trade.checkExitFees_no_draft hn))
    | purchase =>
      rcases Ledger.purchase_no_draft hn with ⟨w, h, hw, hl, -⟩ | ⟨e, w, hw, hhalts⟩ | ⟨reason, w, hw, hst⟩
      · exact Or.inl (.map _ (hw ▸ .ok rfl hl))
      · exact Or.inl (.map _ (hw ▸ .error hhalts))
      · exact Or.inr ⟨Or.inl rfl, reason, w, by rw [Call.run, Act.map_apply, hw], hst⟩
    | payFees days =>
      rcases Ledger.payFees_no_draft hn with ⟨w, held, hw, hl, -⟩ | ⟨e, w, hw, hhalts⟩
      · exact Or.inl (.map _ (hw ▸ .ok rfl hl))
      · exact Or.inl (.map _ (hw ▸ .error hhalts))
    | player | house | terms | hasHouse | isFeeExpired | paidUntil | secondsRemaining | daysRemaining | expiryLabel
    | leases | lastHouse | feeForDays _ | leave => exact absurd rfl hasks

/-- How any call ends: from its draft, or without one. -/
theorem Call.drafts_or_quiet (s : Setting) (v : Visit) (c : Call) :
    (∃ d log, Drafts s v c d ∧ c.run s v = d.close s v log) ∨
      ((∀ d, ¬ Drafts s v c d) ∧ (Quiet (fun a => c.reports a = false) s v (c.run s v) ∨ c.Strands s v)) := by
  by_cases hd : ∃ d, Drafts s v c d
  · obtain ⟨d, hd⟩ := hd
    obtain ⟨log, hrun⟩ := hd.run
    exact Or.inl ⟨d, log, hd, hrun⟩
  · have hn : ∀ d, ¬ Drafts s v c d := fun d h => hd ⟨d, h⟩
    exact Or.inr ⟨hn, Call.quiet_of_no_draft hn⟩

/-- A call is stopped by a fault, by a number out of its range, or for want of time. -/
theorem Call.stops {s : Setting} {v w : Visit} {c : Call} {e : Stop} (h : c.run s v = .error e w) : s.Stops e := by
  rcases c.drafts_or_quiet s v with ⟨d, log, -, hrun⟩ | ⟨-, hquiet | ⟨-, reason, u, hrun, -⟩⟩
  · rw [h] at hrun
    unfold Draft.close at hrun
    rcases hw : s.wrote d.store v.ledger.player d.holdings with ⟨_ | e', store⟩
    · rw [hw] at hrun
      cases hrun
    · have hstops := Setting.wrote_stops hw
      rw [hw] at hrun
      cases e' <;> cases hrun <;> exact hstops
  · rw [h] at hquiet
    cases hquiet with
    | error hhalts =>
      cases hhalts with
      | looked hstops _ | abort hstops _ _ _ _ => exact hstops
  · cases h.symm.trans hrun
    exact .fault _

/-! ## Reports -/

section

variable {s : Setting} {v w : Visit} {c : Call} {d : Draft}

/-- A draft says in its answer that it was written, a departure's apart. -/
theorem Drafts.reports (hd : Drafts s v c d) (hc : c ≠ .depart) : c.reports d.answer = true := by
  cases hd with
  | depart _ => exact absurd rfl hc
  | purchase _ _ _ _ _ | payFees _ _ _ | setLastHouse _ | buyHouse _ _ _ _ _ _ | prepayFees _ _ _ _ _ _ _ _ _ _
  | checkExitFees _ _ _ _ _ _ _ _ => rfl

theorem Draft.close_eq_ok {log : List LogLine} {a : Answer} (h : d.close s v log = .ok a w) :
    ∃ store, s.wrote d.store v.ledger.player d.holdings = (none, store) ∧ a = d.answer ∧
      w = (v.copied store d.holdings log).withPurse (v.purse - d.cost) := by
  unfold Draft.close at h
  rcases hw : s.wrote d.store v.ledger.player d.holdings with ⟨_ | e, store⟩
  · rw [hw] at h
    cases h
    exact ⟨store, rfl, rfl, rfl⟩
  · rw [hw] at h
    cases e <;> cases h

/-- A call that reports a change has written its draft. -/
theorem Call.reported {a : Answer} (h : c.run s v = .ok a w) (hreports : c.reports a = true) :
    ∃ d store log, Drafts s v c d ∧ s.wrote d.store v.ledger.player d.holdings = (none, store) ∧ a = d.answer ∧
      w = (v.copied store d.holdings log).withPurse (v.purse - d.cost) := by
  rcases c.drafts_or_quiet s v with ⟨d, log, hd, hrun⟩ | ⟨-, hquiet | ⟨-, _, _, hrun, -⟩⟩
  · obtain ⟨store, hw, ha, hleft⟩ := Draft.close_eq_ok (hrun.symm.trans h)
    exact ⟨d, store, log, hd, hw, ha, hleft⟩
  · rw [h] at hquiet
    cases hquiet with
    | ok hsilent _ | rebound hsilent _ => cases hreports.symm.trans hsilent
  · cases h.symm.trans hrun

/-- A call that reports none, and is no departure, leaves the store alone. -/
theorem Call.unreported {a : Answer} (h : c.run s v = .ok a w) (hc : c ≠ .depart) (hreports : c.reports a = false) :
    w.store = v.store := by
  rcases c.drafts_or_quiet s v with ⟨d, log, hd, hrun⟩ | ⟨-, hquiet | ⟨-, _, _, hrun, -⟩⟩
  · obtain ⟨store, -, rfl, -⟩ := Draft.close_eq_ok (hrun.symm.trans h)
    cases (hd.reports hc).symm.trans hreports
  · rw [h] at hquiet
    cases hquiet with
    | ok _ hlook | rebound _ hlook => exact hlook.store
  · cases h.symm.trans hrun

end

end HouseLease
