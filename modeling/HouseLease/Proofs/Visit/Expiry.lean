/-
  HouseLease.Proofs.Visit.Expiry — the questions about an expiry agree.

  Whether the house is held, until when its fees are paid, whether they have run out, the seconds left
  and the whole days left: what five questions tell of one lease is an `Expiry`, and `Expiry.At` says how its
  parts hang together at a time. The rest is arithmetic: days are rounded down, so they are negative just
  when seconds are (`Expiry.At.of_left`), never grow with the clock (`Expiry.At.later`) and grow by the days
  paid for (`Expiry.At.paid`).

  What is told depends on what the ledger shows and on the time alone (`told_until`), so all of it holds of
  any two ledgers that show the same (`expiry_questions_agree`).
-/

import HouseLease.Proofs.Visit.Targets

namespace HouseLease

/-! ## What is told of a lease -/

/-- What the questions tell of a lease, all asked at one time. -/
structure Expiry where
  paidUntil : Int64
  expired : Bool
  seconds : Int64
  days : Int

/-- The lease is told of at `now`. -/
structure Expiry.At (e : Expiry) (now : Int64) : Prop where
  seconds : e.seconds.toInt = e.paidUntil.toInt - now.toInt
  days : e.days * 86400 ≤ e.seconds.toInt ∧ e.seconds.toInt < (e.days + 1) * 86400
  expired : e.expired = true ↔ e.seconds < 0
  lapsed : e.seconds < 0 ↔ e.days < 0

namespace Expiry.At

variable {e e' : Expiry} {now now' t left : Int64}

theorem of_left (hleft : left.toInt = t.toInt - now.toInt) :
    Expiry.At ⟨t, decide (t < now), left, left.toInt / daySeconds⟩ now where
  seconds := hleft
  days := by simp only [daySeconds]; omega
  expired := by
    simp only [decide_eq_true_eq, Int64.lt_iff_toInt_lt, Int64.toInt_zero]
    omega
  lapsed := by
    simp only [Int64.lt_iff_toInt_lt, Int64.toInt_zero, daySeconds]
    omega

theorem later (h : e.At now) (h' : e'.At now') (hend : e'.paidUntil = e.paidUntil) (hle : now ≤ now') :
    e'.days ≤ e.days ∧ (e.expired = true → e'.expired = true) := by
  have hseconds := h.seconds
  have hseconds' := h'.seconds
  have hdays := h.days
  have hdays' := h'.days
  have hle := Int64.le_iff_toInt_le.mp hle
  rw [hend] at hseconds'
  refine ⟨by omega, ?_⟩
  rw [h.expired, h'.expired, Int64.lt_iff_toInt_lt, Int64.lt_iff_toInt_lt, Int64.toInt_zero]
  omega

theorem paid {days : UInt32} (h : e.At now) (h' : e'.At now)
    (hend : e'.paidUntil.toInt = e.paidUntil.toInt + daySeconds * days.toNat) :
    e'.seconds.toInt = e.seconds.toInt + 86400 * days.toNat ∧ e'.days = e.days + days.toNat := by
  have hseconds := h.seconds
  have hseconds' := h'.seconds
  have hdays := h.days
  have hdays' := h'.days
  rw [daySeconds] at hend
  omega

end Expiry.At

/-! ## Asking -/

/-- So much is told in answer to the five questions, nothing of a house that is not held. -/
structure Answers (s : Setting) (v : Visit) (e : Option Expiry) : Prop where
  hasHouse : (Call.hasHouse.made s v).1.answer = .ok (.flag e.isSome)
  paidUntil : (Call.paidUntil.made s v).1.answer = .ok (.number? (e.map (·.paidUntil)))
  isFeeExpired : (Call.isFeeExpired.made s v).1.answer = .ok (.flag? (e.map (·.expired)))
  secondsRemaining : (Call.secondsRemaining.made s v).1.answer = .ok (.number? (e.map (·.seconds)))
  daysRemaining : (Call.daysRemaining.made s v).1.answer = .ok (.days? (e.map (·.days)))

/-- The time left, if there is any, is in range. -/
def Setting.Fits (s : Setting) (v : Visit) : Prop :=
  ∀ op, (Call.secondsRemaining.made s v).1.answer ≠ .error (.overflow op)

section

variable {s : Setting} {v : Visit} {held : Option Holdings} {now : Int64}

theorem Answers.unleased (hh : s.held v = .ok held) (hnow : s.now = some now)
    (hnone : held.bind (·.paidUntil? v.ledger.house) = none) : Answers s v none := by
  obtain ⟨log, hask⟩ := Ledger.paidUntil_ok hh
  rw [hnone] at hask
  constructor <;> simp [Call.made, Call.run, Ledger.hasHouse, Ledger.isFeeExpired, Ledger.secondsRemaining,
    Ledger.daysRemaining, hask, hnow]

theorem Answers.leased {t left : Int64} (hh : s.held v = .ok held) (hnow : s.now = some now)
    (hsome : held.bind (·.paidUntil? v.ledger.house) = some t) (hleft : left.toInt = t.toInt - now.toInt) :
    Answers s v (some ⟨t, decide (t < now), left, left.toInt / daySeconds⟩) := by
  obtain ⟨log, hask⟩ := Ledger.paidUntil_ok hh
  rw [hsome] at hask
  have hsub : checked .subtract (t.toInt - now.toInt) = .ok left := checked_eq_ok.mpr hleft
  constructor <;> simp [Call.made, Call.run, Ledger.hasHouse, Ledger.isFeeExpired, Ledger.secondsRemaining,
    Ledger.daysRemaining, hask, hnow, hsub]

/-- A lease whose time left is in range has seconds left. -/
theorem Setting.Fits.exists_left {t : Int64} (hfits : s.Fits v) (hh : s.held v = .ok held) (hnow : s.now = some now)
    (hsome : held.bind (·.paidUntil? v.ledger.house) = some t) : ∃ left : Int64, left.toInt = t.toInt - now.toInt := by
  obtain ⟨log, hask⟩ := Ledger.paidUntil_ok hh
  rw [hsome] at hask
  cases hsub : checked .subtract (t.toInt - now.toInt) with
  | ok left => exact ⟨left, checked_eq_ok.mp hsub⟩
  | error op =>
    refine absurd ?_ (hfits op)
    simp [Call.made, Call.run, Ledger.secondsRemaining, hask, hnow, hsub]

/-- The questions answer from the lease that the ledger shows, as of now. -/
theorem told_until {t : Int64} (hh : s.held v = .ok held) (hnow : s.now = some now) (hfits : s.Fits v)
    (hsome : held.bind (·.paidUntil? v.ledger.house) = some t) :
    ∃ e, Answers s v (some e) ∧ e.At now ∧ e.paidUntil = t := by
  obtain ⟨left, hleft⟩ := hfits.exists_left hh hnow hsome
  exact ⟨_, .leased hh hnow hsome hleft, .of_left hleft, rfl⟩

/-- The ledger shows a lease on a house that is not denied. -/
theorem exists_paidUntil (hh : s.held v = .ok held) (hnow : s.now = some now)
    (hne : (Call.hasHouse.made s v).1.answer ≠ .ok (.flag false)) :
    ∃ t, held.bind (·.paidUntil? v.ledger.house) = some t := by
  refine Option.ne_none_iff_exists'.mp fun hnone => ?_
  exact hne (Answers.unleased hh hnow hnone).hasHouse

/-- What a payment that succeeded has made of the lease, on the ledger that paid and on a new one. -/
theorem Call.paid_until {days : UInt32} {w : Visit} (h : ((Call.payFees days).made s v).1.answer = .ok (.flag true))
    (hw : w = ((Call.payFees days).made s v).2 ∨
      w = ((Call.payFees days).made s v).2.renew ∧ s.outage.get = false) :
    ∃ (holdings holdings' : Holdings) (t t' : Int64), s.held v = .ok (some holdings) ∧
      holdings.paidUntil? v.ledger.house = some t ∧ s.held w = .ok (some holdings') ∧
      holdings'.paidUntil? w.ledger.house = some t' ∧ t'.toInt = t.toInt + daySeconds * days.toNat := by
  obtain ⟨d, hd, hputs, hheld, hhouse⟩ := Call.puts h rfl
  cases hd with
  | @payFees _ holdings t t' hh hp ht =>
    have hlease := Holdings.paidUntil?_extend hp t'
    rw [← hhouse] at hlease
    refine ⟨holdings, holdings.extend v.ledger.house t', t, t', hh, hp, ?_⟩
    rcases hw with rfl | ⟨rfl, hget⟩
    · exact ⟨hheld, hhouse ▸ hlease, checked_eq_ok.mp ht⟩
    · have hstored := hputs.record
      rw [← Call.player_made (.payFees days) s v] at hstored
      exact ⟨Setting.held_new hget rfl hstored, hhouse ▸ hlease, checked_eq_ok.mp ht⟩

/-- How the questions agree at `now` with each other, with what they answer later, and with a payment. -/
structure QuestionsAgree (s : Setting) (v : Visit) (held : Option Holdings) (now : Int64) : Prop where
  unleased : (Call.hasHouse.made s v).1.answer = .ok (.flag false) ↔
    (Call.paidUntil.made s v).1.answer = .ok (.number? none) ∧
      (Call.isFeeExpired.made s v).1.answer = .ok (.flag? none) ∧
      (Call.secondsRemaining.made s v).1.answer = .ok (.number? none) ∧
      (Call.daysRemaining.made s v).1.answer = .ok (.days? none)
  leased : (Call.hasHouse.made s v).1.answer ≠ .ok (.flag false) → ∃ e, Answers s v (some e) ∧ e.At now
  /-- Whichever ledger is asked later, as long as it shows the same for the same house. -/
  later : (Call.hasHouse.made s v).1.answer ≠ .ok (.flag false) → ∀ {s' : Setting} {v' : Visit} {now' : Int64},
    s'.held v' = .ok held → v'.ledger.house = v.ledger.house → s'.now = some now' → now ≤ now' → s'.Fits v' →
    ∃ e e', Answers s v (some e) ∧ Answers s' v' (some e') ∧ e'.days ≤ e.days ∧ (e.expired = true → e'.expired = true)
  /-- The ledger that paid is asked afterwards, or a new one. -/
  paid : ∀ days, ((Call.payFees days).made s v).1.answer = .ok (.flag true) →
    ∀ w, w = ((Call.payFees days).made s v).2 ∨ w = ((Call.payFees days).made s v).2.renew ∧ s.outage.get = false →
    s.Fits w → ∃ e e', Answers s v (some e) ∧ Answers s w (some e') ∧
      e'.seconds.toInt = e.seconds.toInt + 86400 * days.toNat ∧ e'.days = e.days + days.toNat

/-- The questions about the bound house are answered from what the ledger shows, and so agree, whatever that is and
    whatever the clock shows, as long as the time left is in range. -/
theorem expiry_questions_agree (hh : s.held v = .ok held) (hnow : s.now = some now) (hfits : s.Fits v) :
    QuestionsAgree s v held now where
  unleased := by
    cases hlease : held.bind (·.paidUntil? v.ledger.house) with
    | none =>
      have ha := Answers.unleased hh hnow hlease
      exact ⟨fun _ => ⟨ha.paidUntil, ha.isFeeExpired, ha.secondsRemaining, ha.daysRemaining⟩, fun _ => ha.hasHouse⟩
    | some t =>
      obtain ⟨e, ha, -⟩ := told_until hh hnow hfits hlease
      constructor
      · intro hno
        cases ha.hasHouse.symm.trans hno
      · rintro ⟨hno, -⟩
        cases ha.paidUntil.symm.trans hno
  leased := by
    intro hne
    obtain ⟨t, hlease⟩ := exists_paidUntil hh hnow hne
    obtain ⟨e, ha, hat, -⟩ := told_until hh hnow hfits hlease
    exact ⟨e, ha, hat⟩
  later := by
    intro hne s' v' now' hh' hhouse hnow' hle hfits'
    obtain ⟨t, hlease⟩ := exists_paidUntil hh hnow hne
    obtain ⟨e, ha, hat, rfl⟩ := told_until hh hnow hfits hlease
    obtain ⟨e', ha', hat', hend⟩ := told_until hh' hnow' hfits' (hhouse ▸ hlease)
    exact ⟨e, e', ha, ha', hat.later hat' hend hle⟩
  paid := by
    intro days hpaid w hw hfits'
    obtain ⟨holdings, holdings', t, t', hh, hp, hh', hp', ht⟩ := Call.paid_until hpaid hw
    obtain ⟨e, ha, hat, rfl⟩ := told_until hh hnow hfits hp
    obtain ⟨e', ha', hat', rfl⟩ := told_until hh' hnow hfits' hp'
    exact ⟨e, e', ha, ha', hat.paid hat' ht⟩

end

/-- In the second in which her fees run out Ann has no days left, and one if she pays for it. -/
theorem ann_pays_in_the_last_second :
    let s := { shippedWith {} with now := some 1700864000 }
    let v : Visit := { annAtGreyton with ledger.copy := .present ⟨[⟨"greyton", 1700864000⟩], none⟩ }
    let w := ((Call.payFees 1).made s v).2
    (∃ e, Answers s v (some e) ∧ e.At 1700864000) ∧
      ∃ e e', Answers s v (some e) ∧ Answers s w.renew (some e') ∧
        e'.seconds.toInt = e.seconds.toInt + 86400 * 1 ∧ e'.days = e.days + 1 := by
  intro s v w
  have hleft : (Call.secondsRemaining.made s v).1.answer = .ok (.number? (some 0)) := by decide +kernel
  have hleft' : (Call.secondsRemaining.made s w.renew).1.answer = .ok (.number? (some 86400)) := by decide +kernel
  have hagree := expiry_questions_agree (s := s) (v := v) rfl rfl fun op => hleft ▸ nofun
  exact ⟨hagree.leased (by decide +kernel),
    hagree.paid 1 (by decide +kernel) w.renew (Or.inr ⟨rfl, rfl⟩) fun op => hleft' ▸ nofun⟩

end HouseLease
