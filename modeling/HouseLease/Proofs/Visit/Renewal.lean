/-
  HouseLease.Proofs.Visit.Renewal — a ledger's copy cannot be seen.

  A ledger is coherent while it shows what the store says of its player. A call that does not
  report a failed write leaves a coherent ledger coherent (`Coherent.made`), aborts included: an
  abort stops before anything is written, or right behind a new record that the copy has too. A
  new ledger is coherent, so putting a new one in place of an old one changes nothing that can
  be seen (`renewed_calls_agree`).
-/

import HouseLease.Proofs.Visit.Likeness

namespace HouseLease

/-- Every call of the store succeeds, flushes included, and it has a date for its writes. -/
def Setting.Serves (s : Setting) : Prop := s.outage = {} ∧ s.wall.isSome = true

namespace Visit

/-- The ledger shows what the store says. -/
def Coherent (v : Visit) : Prop := v.held = v.store.holdings v.ledger.player

/-- A new ledger in place of the visit's, for the same player and house. -/
def renew (v : Visit) : Visit := { v with ledger := { player := v.ledger.player, house := v.ledger.house } }

/-- The same calls, each on a new ledger bound where the one before it was left. -/
def renewedCalls (v : Visit) : List (Setting × Call) → List Shown × Visit
  | [] => ([], v)
  | (s, c) :: rest =>
    let (shown, w) := c.made s v.renew
    let (more, u) := w.renewedCalls rest
    (shown :: more, u)

theorem Coherent.shows_renew {v w : Visit} (hv : v.Coherent) (hstore : w.store = v.store)
    (hplayer : w.ledger.player = v.ledger.player) (hhouse : w.ledger.house = v.ledger.house)
    (hpurse : w.purse = v.purse) : Shows v w.renew := by
  refine ⟨hstore, hplayer, hhouse, hpurse, ?_⟩
  show w.store.holdings w.ledger.player = v.held
  rw [hstore, hplayer]
  exact hv.symm

end Visit

namespace Setting

variable {s : Setting}

/-- A write in a setting that serves says just what was written, unless the record is too long. -/
theorem Serves.wrote (hs : s.Serves) (store : Store) (player : String) (h : Holdings) :
    s.wrote store player h = (some (.fault .recordTooLong), store) ∨
      ∃ store', s.wrote store player h = (none, store') ∧ store'.holdings player = .ok (some h) := by
  obtain ⟨hout, hwall⟩ := hs
  obtain ⟨wall, hwall⟩ := Option.isSome_iff_exists.mp hwall
  have hput : s.outage.put = false := by rw [hout]
  have hflush : s.outage.putFlush = none := by rw [hout]
  cases hw : s.written store player h with
  | ok store' =>
    obtain ⟨-, wall, -, hwrite⟩ := written_ok hw
    exact Or.inr ⟨store', wrote_eq_none.mpr ⟨hw, hflush⟩, (Store.holdings_write hwrite _).trans (if_pos rfl)⟩
  | error e =>
    cases written_error hw with
    | offline hdown => cases hput.symm.trans hdown
    | untimed hnone => cases hwall.symm.trans hnone
    | tooLong => exact Or.inl (wrote_of_error hw)

/-- Whatever the player held, the store says so once there is a record. -/
theorem holdings_enrolled {v : Visit} {h : Holdings} {store : Store} (hv : v.Coherent)
    (he : s.enrolled v = .ok (h, store)) : store.holdings v.ledger.player = .ok (some h) := by
  rcases Setting.enrolled_cases he with ⟨hh, rfl⟩ | ⟨-, rfl, r, hc⟩
  · rw [← hv, Setting.held_eq hh]
  · obtain ⟨-, wall, -, hw⟩ := Setting.created_ok hc
    rw [Store.holdings_create hw, if_pos rfl]

end Setting

namespace Visit.Coherent

variable {s : Setting} {v w : Visit}

theorem looked (hv : v.Coherent) (h : Looked s v w) : w.Coherent := by
  unfold Visit.Coherent
  rw [h.held_eq, h.store, h.player]
  exact hv

theorem halts {e : Stop} (hv : v.Coherent) (h : Halts s v e w) : w.Coherent := by
  cases h with
  | looked _ hl => exact hv.looked hl
  | abort _ _ hplayer _ hs =>
    rcases hs with hl | ⟨h, he, hc⟩
    · have hw : (w.withPurse v.purse).Coherent := hv.looked hl
      exact hw
    · show w.held = w.store.holdings w.ledger.player
      rw [hplayer, Setting.holdings_enrolled hv he, Visit.held, hc]

/-- A call keeps its ledger coherent, as long as no write fails. -/
theorem made (hs : s.Serves) (hv : v.Coherent) (c : Call)
    (hput : (c.made s v).1.answer ≠ .error (.fault .recordTooLong)) : (c.made s v).2.Coherent := by
  unfold Call.made at hput ⊢
  rcases Call.drafts_or_quiet s v c with ⟨d, log, hd, hrun⟩ | ⟨-, hq | ⟨-, reason, w, -, hst⟩⟩
  · rw [hrun] at hput ⊢
    unfold Draft.close at hput ⊢
    rcases hs.wrote d.store v.ledger.player d.holdings with hw | ⟨store, hw, hheld⟩
    · rw [hw] at hput
      exact absurd rfl hput
    · rw [hw]
      exact hheld.symm
  · generalize c.run s v = r at hq
    cases hq with
    | ok _ h => exact hv.looked h
    | @rebound _ w house _ h =>
      have hw : w.Coherent := hv.looked h
      exact hw
    | error h => exact hv.halts h
  · cases (congrArg Outage.createFlush hs.1).symm.trans hst.unflushed

end Visit.Coherent

/-! ## Runs on new ledgers -/

/-- Runs from visits that differ in their copies alone, one of them coherent, the other on new ledgers. -/
theorem renewedCalls_of_coherent {calls : List (Setting × Call)} (hs : ∀ p ∈ calls, p.1.Serves) {v w : Visit}
    (hv : v.Coherent) (hput : ∀ shown ∈ (v.calls calls).1, shown.answer ≠ .error (.fault .recordTooLong))
    (hstore : w.store = v.store) (hplayer : w.ledger.player = v.ledger.player)
    (hhouse : w.ledger.house = v.ledger.house) (hpurse : w.purse = v.purse) :
    (w.renewedCalls calls).1 = (v.calls calls).1 ∧ (w.renewedCalls calls).2.store = (v.calls calls).2.store := by
  induction calls generalizing v w with
  | nil => exact ⟨rfl, hstore⟩
  | cons p rest ih =>
    obtain ⟨s, c⟩ := p
    have hserves : s.Serves := hs (s, c) (by simp)
    have hget : s.outage.get = false := by rw [hserves.1]
    -- the new ledger cannot be told from the old one by this call, nor by the next
    obtain ⟨hshown, hnext⟩ := (hv.shows_renew hstore hplayer hhouse hpurse).made hget c
    have hv' : (c.made s v).2.Coherent := hv.made hserves c (hput _ (by simp [Visit.calls]))
    obtain ⟨hmore, hend⟩ := ih (fun q hq => hs q (by simp [hq])) hv'
      (fun shown hm => hput shown (by simp [Visit.calls, hm])) hnext.store hnext.player hnext.house hnext.purse
    exact ⟨List.cons_eq_cons.mpr ⟨hshown, hmore⟩, hend⟩

/-- Calls on one ledger that keeps its copy, and the same calls each on a new ledger, answer and stop
    the same, leave the same balance and the same bound house after each, and the same store. -/
theorem renewed_calls_agree {v : Visit} {calls : List (Setting × Call)} (hnew : v.ledger.copy = .unread)
    (hs : ∀ p ∈ calls, p.1.Serves)
    (hput : ∀ shown ∈ (v.calls calls).1, shown.answer ≠ .error (.fault .recordTooLong)) :
    (v.renewedCalls calls).1 = (v.calls calls).1 ∧ (v.renewedCalls calls).2.store = (v.calls calls).2.store := by
  refine renewedCalls_of_coherent hs ?_ hput rfl rfl rfl rfl
  show v.held = v.store.holdings v.ledger.player
  rw [Visit.held, hnew]

/-- The house is bought, its fees lapse and are collected at the exit, and the hub leads back to it. -/
def aSeason : List (Setting × Call) :=
  let later := { shippedWith {} with now := some 1701000000 }
  [(shippedWith {}, .buyHouse), (later, .checkExitFees), (later, .depart), (later, .bind "elsewhere"), (later, .goBack),
    (later, .payFees 3), (later, .paidUntil)]

theorem a_season_on_new_ledgers :
    (annAtGreyton.renewedCalls aSeason).1 = (annAtGreyton.calls aSeason).1 ∧
      (annAtGreyton.renewedCalls aSeason).2.store = (annAtGreyton.calls aSeason).2.store :=
  renewed_calls_agree rfl (by unfold Setting.Serves; decide) (by decide +kernel)

end HouseLease
