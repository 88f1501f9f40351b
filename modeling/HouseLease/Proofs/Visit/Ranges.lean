/-
  HouseLease.Proofs.Visit.Ranges — where a call's numbers stay in range.

  `InRange` says that nothing in a call overflows. It passes from the parts of a call to the whole, and
  what only reads, writes or pays has it. So an overflow lies behind those parts
  (`overflow_past`), in the time left (`secondsRemaining_overflow`), a fee (`feeForDays_overflow`)
  or the end of a lease (`purchase_overflow`, `payFees_overflow`); giving money back adds none
  (`orRefund_overflow`). The `_eq_ok` lemmas say what a part has read when it answers.
-/

import HouseLease.Proofs.Visit.Drafts

namespace HouseLease

/-! ## Calls that stay in range -/

namespace Act

variable {α β : Type} {x : Act α} {f : α → Act β} {v w : Visit} {op : Overflow}

/-- Nothing in `x` leaves its range, called at `v`. -/
def InRange (x : Act α) (v : Visit) : Prop := ∀ op w, x v ≠ .error (.overflow op) w

/-- An overflow in `x` and then `f` came after `x`, if `x` stays in range. -/
theorem overflow_past (hx : InRange x v) (h : (x >>= f) v = .error (.overflow op) w) :
    ∃ a u, x v = .ok a u ∧ f a u = .error (.overflow op) w := by
  rw [bind_apply] at h
  cases hr : x v with
  | ok a u => exact ⟨a, u, rfl, by simpa only [hr] using h⟩
  | error e u =>
    simp only [hr] at h
    cases h
    exact absurd hr (hx op w)

theorem bind_eq_ok {b : β} (h : (x >>= f) v = .ok b w) : ∃ a u, x v = .ok a u ∧ f a u = .ok b w := by
  rw [bind_apply] at h
  cases hr : x v with
  | ok a u => exact ⟨a, u, rfl, by simpa only [hr] using h⟩
  | error e u => simp only [hr] at h; cases h

theorem bind_eq_error {e : Stop} (h : (x >>= f) v = .error e w) :
    x v = .error e w ∨ ∃ a u, x v = .ok a u ∧ f a u = .error e w := by
  rw [bind_apply] at h
  cases hr : x v with
  | ok a u => exact Or.inr ⟨a, u, rfl, by simpa only [hr] using h⟩
  | error e u =>
    simp only [hr] at h
    cases h
    exact Or.inl rfl

theorem ofOverflow_overflow {r : Except Overflow α} (h : ofOverflow r v = .error (.overflow op) w) :
    r = .error op := by
  cases r with
  | ok a => cases h
  | error op' => cases h; rfl

theorem ofChecked_overflow {n : Int} {op' : Overflow} (h : ofOverflow (checked op' n) v = .error (.overflow op) w) :
    checked op' n = .error op' := by
  have hfail := ofOverflow_overflow h
  obtain ⟨rfl, -⟩ := checked_eq_error.mp hfail
  exact hfail

namespace InRange

theorem pure (a : α) : InRange (Pure.pure a : Act α) v := nofun

theorem throw (fault : Fault) : InRange (MonadExcept.throw (.fault fault) : Act α) v := nofun

theorem bind (hx : InRange x v) (hf : ∀ a w, x v = .ok a w → InRange (f a) w) : InRange (x >>= f) v := by
  intro op w h
  obtain ⟨a, u, ha, h⟩ := overflow_past hx h
  exact hf a u ha op w h

theorem map (g : α → β) (hx : InRange x v) : InRange (g <$> x) v := fun op w h => hx op w (map_eq_error.mp h)

theorem ofClock (clock : Option α) : InRange (Act.ofClock clock) v := by
  intro op w h
  rw [ofClock_apply] at h
  cases clock <;> cases h

theorem player : InRange Act.player v := nofun

theorem house : InRange Act.house v := nofun

theorem note (level : Level) (text : String) : InRange (Act.note level text) v := nofun

theorem terms {s : Setting} : InRange s.terms v := by
  intro op w h
  rw [Setting.terms_apply] at h
  split at h <;> cases h

end InRange

end Act

/-! ## What a call has read -/

theorem Setting.terms_eq_ok {s : Setting} {v w : Visit} {terms : House} (h : s.terms v = .ok terms w) :
    s.catalog.find? v.ledger.house = some terms ∧ v = w := by
  rw [Setting.terms_apply] at h
  split at h
  · cases h
    exact ⟨‹_›, rfl⟩
  · cases h

theorem Setting.terms_fault {s : Setting} {v w : Visit} {f : Fault} (h : s.terms v = .error (.fault f) w) :
    f = .unknownHouse v.ledger.house := by
  rw [Setting.terms_apply] at h
  split at h
  · cases h
  · cases h
    rfl

theorem Act.ofClock_eq_ok {α : Type} {clock : Option α} {a : α} {v w : Visit} (h : ofClock clock v = .ok a w) :
    clock = some a ∧ v = w := by
  cases clock with
  | none => cases h
  | some b => cases h; exact ⟨rfl, rfl⟩

theorem Act.ofOverflow_eq_ok {α : Type} {r : Except Overflow α} {a : α} {v w : Visit}
    (h : ofOverflow r v = .ok a w) : r = .ok a ∧ v = w := by
  cases r with
  | error op => cases h
  | ok b => cases h; exact ⟨rfl, rfl⟩

namespace Ledger

open Act

variable {s : Setting} {v w : Visit} {op : Overflow} {days : UInt32}

theorem consult_inRange : InRange (consult s) v := by
  intro op w h
  cases hh : s.held v with
  | ok held =>
    obtain ⟨log, hc⟩ := consult_ok hh
    rw [hc] at h
    cases h
  | error f =>
    rw [consult_error hh] at h
    cases h

theorem consult_eq_ok {held : Option Holdings} (h : consult s v = .ok held w) :
    s.held v = .ok held ∧ ∃ log, w = v.consulted held log := by
  cases hh : s.held v with
  | ok held' =>
    obtain ⟨log, hc⟩ := consult_ok hh
    rw [hc] at h
    cases h
    exact ⟨rfl, log, rfl⟩
  | error f =>
    rw [consult_error hh] at h
    cases h

theorem paidUntil_inRange : InRange (paidUntil s) v :=
  consult_inRange.bind fun _ _ _ => .bind .house fun _ _ _ => .pure _

/-- What the lease said, and the holdings it was read in. -/
theorem paidUntil_eq_ok {t? : Option Int64} (h : paidUntil s v = .ok t? w) :
    ∃ held log, s.held v = .ok held ∧ held.bind (·.paidUntil? v.ledger.house) = t? ∧ w = v.consulted held log := by
  cases hh : s.held v with
  | ok held =>
    obtain ⟨log, hq⟩ := paidUntil_ok hh
    rw [hq] at h
    cases h
    exact ⟨held, log, rfl, rfl, rfl⟩
  | error f =>
    rw [paidUntil_error hh] at h
    cases h

theorem secondsRemaining_eq_ok {remaining : Int64} (h : secondsRemaining s v = .ok (some remaining) w) :
    ∃ now held t log, s.now = some now ∧ s.held v = .ok (some held) ∧ held.paidUntil? v.ledger.house = some t ∧
      checked .subtract (t.toInt - now.toInt) = .ok remaining ∧ w = v.consulted (some held) log := by
  unfold secondsRemaining at h
  obtain ⟨now, u, hclock, h⟩ := bind_eq_ok h
  obtain ⟨hnow, rfl⟩ := ofClock_eq_ok hclock
  obtain ⟨t?, u, hq, h⟩ := bind_eq_ok h
  obtain ⟨held, log, hh, hp, rfl⟩ := paidUntil_eq_ok hq
  cases t? with
  | none => cases h
  | some t =>
    obtain ⟨held, rfl, hp⟩ := Option.bind_eq_some_iff.mp hp
    obtain ⟨_, _, hleft, h⟩ := bind_eq_ok h
    obtain ⟨hsub, rfl⟩ := ofOverflow_eq_ok hleft
    cases h
    exact ⟨now, held, t, log, hnow, hh, hp, hsub, rfl⟩

theorem hasHouse_inRange : InRange (hasHouse s) v := paidUntil_inRange.bind fun _ _ _ => .pure _

theorem hasHouse_eq_ok {b : Bool} (h : hasHouse s v = .ok b w) :
    ∃ held log, s.held v = .ok held ∧ (held.bind (·.paidUntil? v.ledger.house)).isSome = b ∧
      w = v.consulted held log := by
  obtain ⟨t?, u, hq, h⟩ := bind_eq_ok h
  obtain ⟨held, log, hh, rfl, rfl⟩ := paidUntil_eq_ok hq
  cases h
  exact ⟨held, log, hh, rfl, rfl⟩

theorem lastHouse_inRange : InRange (lastHouse s) v := consult_inRange.bind fun _ _ _ => .pure _

theorem leases_inRange : InRange (leases s) v := consult_inRange.bind fun _ _ _ => .pure _

theorem bind_inRange {house : String} : InRange (Ledger.bind house) v := nofun

theorem expiryLabel_inRange : InRange (expiryLabel s) v := by
  refine paidUntil_inRange.bind fun t? u _ => ?_
  cases t? with
  | none => exact .pure none
  | some t =>
    cases hlabel : HouseLease.expiryLabel t with
    | some label =>
      simp only [hlabel]
      exact .pure (some label)
    | none =>
      simp only [hlabel]
      exact .throw _

theorem isFeeExpired_inRange : InRange (isFeeExpired s) v :=
  InRange.bind (.ofClock _) fun _ _ _ => paidUntil_inRange.bind fun _ _ _ => .pure _

theorem isFeeExpired_eq_ok (h : isFeeExpired s v = .ok (some true) w) :
    ∃ now held t log, s.now = some now ∧ s.held v = .ok (some held) ∧ held.paidUntil? v.ledger.house = some t ∧
      t < now ∧ w = v.consulted (some held) log := by
  obtain ⟨now, u, hclock, h⟩ := bind_eq_ok h
  obtain ⟨hnow, rfl⟩ := ofClock_eq_ok hclock
  obtain ⟨t?, u, hq, h⟩ := bind_eq_ok h
  obtain ⟨held, log, hh, hp, rfl⟩ := paidUntil_eq_ok hq
  cases t? with
  | none => cases h
  | some t =>
    obtain ⟨held, rfl, hp⟩ := Option.bind_eq_some_iff.mp hp
    rw [Option.map_some] at h
    by_cases hlt : t < now
    · rw [decide_eq_true hlt] at h
      cases h
      exact ⟨now, held, t, log, hnow, hh, hp, hlt, rfl⟩
    · rw [decide_eq_false hlt] at h
      cases h

/-- The time left can leave the range only where the player has a lease. -/
theorem secondsRemaining_overflow (h : secondsRemaining s v = .error (.overflow op) w) :
    ∃ now held t, s.now = some now ∧ s.held v = .ok (some held) ∧ held.paidUntil? v.ledger.house = some t ∧
      checked .subtract (t.toInt - now.toInt) = .error .subtract := by
  unfold secondsRemaining at h
  obtain ⟨now, u, hclock, h⟩ := overflow_past (.ofClock _) h
  obtain ⟨hnow, rfl⟩ := ofClock_eq_ok hclock
  obtain ⟨t?, u, hq, h⟩ := overflow_past paidUntil_inRange h
  obtain ⟨held, log, hh, hp, rfl⟩ := paidUntil_eq_ok hq
  cases t? with
  | none => cases h
  | some t =>
    obtain ⟨held, rfl, hp⟩ := Option.bind_eq_some_iff.mp hp
    rcases bind_eq_error h with h | ⟨_, _, -, h⟩
    · exact ⟨now, held, t, hnow, hh, hp, ofChecked_overflow h⟩
    · cases h

theorem feeForDays_eq_ok {cost : Int64} (h : feeForDays s days v = .ok cost w) :
    ∃ terms, s.catalog.find? v.ledger.house = some terms ∧
      checked .multiply (terms.dailyFee.toInt * days.toNat) = .ok cost ∧ v = w := by
  unfold feeForDays at h
  obtain ⟨terms, u, hread, h⟩ := bind_eq_ok h
  obtain ⟨hterms, rfl⟩ := Setting.terms_eq_ok hread
  obtain ⟨hmul, rfl⟩ := ofOverflow_eq_ok h
  exact ⟨terms, hterms, hmul, rfl⟩

theorem feeForDays_overflow (h : feeForDays s days v = .error (.overflow op) w) :
    ∃ terms, s.catalog.find? v.ledger.house = some terms ∧
      checked .multiply (terms.dailyFee.toInt * days.toNat) = .error .multiply := by
  unfold feeForDays at h
  obtain ⟨terms, u, hread, h⟩ := overflow_past .terms h
  obtain ⟨hterms, rfl⟩ := Setting.terms_eq_ok hread
  exact ⟨terms, hterms, ofChecked_overflow h⟩

end Ledger

/-! ## What a call has written -/

section

variable {s : Setting} {op : Overflow}

theorem Setting.created_ne_overflow {v : Visit} : s.created v ≠ .error (.overflow op) := by
  intro h
  cases created_error h

theorem Setting.written_ne_overflow {store : Store} {player : String} {h : Holdings} :
    s.written store player h ≠ .error (.overflow op) := by
  intro hw
  cases written_error hw

theorem Setting.wrote_ne_overflow {store store' : Store} {player : String} {h : Holdings} :
    s.wrote store player h ≠ (some (.overflow op), store') := by
  intro hw
  rcases wrote_some hw with ⟨hfailed, -⟩ | ⟨_, -, he, -⟩
  · exact written_ne_overflow hfailed
  · cases he

end

namespace Ledger

open Act

variable {s : Setting} {v w : Visit} {op : Overflow} {days : UInt32}

theorem enrol_inRange : InRange (enrol s) v := by
  intro op w h
  cases he : s.enrolled v with
  | ok p =>
    obtain ⟨log, hen⟩ := enrol_ok he
    rw [hen] at h
    cases h
  | error e =>
    obtain ⟨u, hen, -⟩ := enrol_error he
    rw [hen] at h
    cases h
    rcases Setting.enrolled_error he with ⟨_, -, hfault⟩ | ⟨-, hc⟩ | ⟨_, _, _, -, -, -, hfault⟩
    · cases hfault
    · exact Setting.created_ne_overflow hc
    · cases hfault

theorem enrol_eq_ok {held : Holdings} (h : enrol s v = .ok held w) :
    ∃ store log, s.enrolled v = .ok (held, store) ∧ w = v.copied store held log := by
  cases he : s.enrolled v with
  | ok p =>
    obtain ⟨log, hen⟩ := enrol_ok he
    rw [hen] at h
    cases h
    exact ⟨p.2, log, rfl, rfl⟩
  | error e =>
    obtain ⟨u, hen, -⟩ := enrol_error he
    rw [hen] at h
    cases h

theorem commit_inRange {h : Holdings} : InRange (commit s h) v := by
  intro op w hc
  rw [commit_apply] at hc
  rcases hw : s.wrote v.store v.ledger.player h with ⟨_ | e, store⟩
  · rw [hw] at hc
    cases hc
  · rw [hw] at hc
    cases hc
    exact Setting.wrote_ne_overflow hw

theorem setLastHouse_inRange {value : String} : InRange (setLastHouse s value) v := by
  refine consult_inRange.bind fun held u _ => ?_
  cases held with
  | some held => exact commit_inRange.bind fun _ _ _ => .pure _
  | none => exact InRange.player.bind fun _ _ _ => .bind (.note _ _) fun _ _ _ => .pure _

/-- A purchase can only overflow in the end of its lease, with its record at hand. -/
theorem purchase_overflow (h : purchase s v = .error (.overflow op) w) :
    ∃ terms held store now, s.catalog.find? v.ledger.house = some terms ∧ s.enrolled v = .ok (held, store) ∧
      held.owns v.ledger.house = false ∧ s.now = some now ∧ addDays now terms.prepaidDaysOnPurchase = .error .add := by
  unfold purchase at h
  obtain ⟨terms, u, hread, h⟩ := overflow_past .terms h
  obtain ⟨hterms, rfl⟩ := Setting.terms_eq_ok hread
  obtain ⟨held, u, hen, h⟩ := overflow_past enrol_inRange h
  obtain ⟨store, log, he, rfl⟩ := enrol_eq_ok hen
  obtain ⟨_, _, ⟨⟩, h⟩ := overflow_past .player h
  obtain ⟨_, _, ⟨⟩, h⟩ := overflow_past .house h
  by_cases hown : held.owns v.ledger.house = true
  · rw [Visit.copied_house, if_pos hown] at h
    cases h
  · rw [Visit.copied_house, if_neg hown] at h
    obtain ⟨now, u, hclock, h⟩ := overflow_past (.ofClock _) h
    obtain ⟨hnow, rfl⟩ := ofClock_eq_ok hclock
    rcases bind_eq_error h with h | ⟨t, u, -, h⟩
    · exact ⟨terms, held, store, now, hterms, he, by simpa using hown, hnow, ofChecked_overflow h⟩
    · obtain ⟨_, _, -, h⟩ := overflow_past commit_inRange h
      cases h

theorem payFees_overflow (h : payFees s days v = .error (.overflow op) w) :
    ∃ held t, s.held v = .ok (some held) ∧ held.paidUntil? v.ledger.house = some t ∧
      addDays t days = .error .add := by
  unfold payFees at h
  obtain ⟨held, u, hc, h⟩ := overflow_past consult_inRange h
  obtain ⟨hh, log, rfl⟩ := consult_eq_ok hc
  obtain ⟨_, _, ⟨⟩, h⟩ := overflow_past .player h
  obtain ⟨_, _, ⟨⟩, h⟩ := overflow_past .house h
  rw [Visit.consulted_house] at h
  cases hp : held.bind (·.paidUntil? v.ledger.house) with
  | none =>
    rw [hp] at h
    cases held <;> cases h
  | some t =>
    rw [hp] at h
    obtain ⟨held, rfl, hp⟩ := Option.bind_eq_some_iff.mp hp
    rcases bind_eq_error h with h | ⟨t', u, -, h⟩
    · exact ⟨held, t, hh, hp, ofChecked_overflow h⟩
    · obtain ⟨_, _, -, h⟩ := overflow_past commit_inRange h
      cases h

end Ledger

/-! ## Changes that are paid for -/

namespace Trade

open Act

variable {s : Setting} {v w : Visit} {op : Overflow} {days : UInt32}

theorem pay_inRange {amount : Int64} : InRange (pay amount) v := by
  intro op w h
  rw [pay_apply] at h
  split at h <;> cases h

theorem pay_eq_ok {amount : Int64} {paid : Bool} (h : pay amount v = .ok paid w) :
    (paid = true ∧ ∃ purse, Purse.pay? v.purse amount = some purse ∧ w = v.withPurse purse) ∨
      (paid = false ∧ v = w) := by
  rw [pay_apply] at h
  split at h
  · rename_i purse hpay
    cases h
    exact Or.inl ⟨rfl, purse, hpay, rfl⟩
  · cases h
    exact Or.inr ⟨rfl, rfl⟩

/-- Giving back what was paid stays in range, as long as `act` has left the purse alone. -/
theorem orRefund_overflow {α : Type} {act : Act α} {balance cost : Int64}
    (hpay : Purse.pay? balance cost = some v.purse)
    (hpurse : ∀ f u, act v = .error (.fault f) u → u.purse = v.purse)
    (h : orRefund cost act v = .error (.overflow op) w) : act v = .error (.overflow op) w := by
  cases hact : act v with
  | ok a u =>
    rw [orRefund_ok hact] at h
    cases h
  | error e u =>
    cases e with
    | fault f =>
      have hback : Purse.refund u.purse cost = .ok balance := by
        rw [hpurse f u hact]
        exact Purse.refund_pay? hpay
      obtain ⟨log, hr⟩ := orRefund_fault hact hback
      rw [hr] at h
      cases h
    | overflow op' =>
      rw [orRefund_abort (fun f => Stop.noConfusion) hact] at h
      cases h
      rfl
    | noTime =>
      rw [orRefund_abort (fun f => Stop.noConfusion) hact] at h
      cases h

end Trade

end HouseLease
