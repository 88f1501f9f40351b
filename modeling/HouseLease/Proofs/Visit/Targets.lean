/-
  HouseLease.Proofs.Visit.Targets — a change touches what it is about.

  Every change writes the whole record anew. On a new ledger, and whatever the record holds, what comes
  back from it is what was there but for the one thing the call is about (`changes_hit_their_target`): a
  purchase adds its lease behind the others, a payment moves the first lease on the house, which is the one
  that the questions read (`AnswersFrom`), and a departure replaces the house last left.
-/

import HouseLease.Proofs.Visit.Aborts
import HouseLease.Proofs.Visit.Amending
import HouseLease.Proofs.Visit.Renewal

namespace HouseLease

/-- `w` has these holdings in the player's record, and else the store of `v`. -/
structure Puts (v : Visit) (h : Holdings) (w : Visit) : Prop where
  record : w.store.holdings v.ledger.player = .ok (some h)
  others : ∀ key ≠ recordKey v.ledger.player houseTag, w.store.find? key = v.store.find? key

/-- The questions about the fees answer from a lease that ends at `t`. -/
structure AnswersFrom (s : Setting) (v : Visit) (t : Int64) : Prop where
  paidUntil : (Call.paidUntil.made s v).1.answer = .ok (.number? (some t))
  isFeeExpired : ∀ now, s.now = some now → (Call.isFeeExpired.made s v).1.answer = .ok (.flag? (some (t < now)))
  daysRemaining : ∀ now, s.now = some now → (int64? (t.toInt - now.toInt)).isSome →
    (Call.daysRemaining.made s v).1.answer = .ok (.days? (some ((t.toInt - now.toInt) / 86400)))

section

variable {s : Setting} {v w : Visit} {c : Call} {d : Draft} {h : Holdings} {t : Int64}

theorem AnswersFrom.of_held (hh : s.held v = .ok (some h)) (hp : h.paidUntil? v.ledger.house = some t) :
    AnswersFrom s v t where
  paidUntil := by
    obtain ⟨log, hask⟩ := Ledger.paidUntil_ok hh
    rw [Option.bind_some, hp] at hask
    simp [Call.made, Call.run, hask]
  isFeeExpired := by
    intro now hnow
    obtain ⟨log, hask⟩ := Ledger.isFeeExpired_ok hnow hh hp
    simp [Call.made, Call.run, hask]
  daysRemaining := by
    intro now hnow hleft
    obtain ⟨left, hleft⟩ := Option.isSome_iff_exists.mp hleft
    have hleft := int64?_eq_some.mp hleft
    obtain ⟨log, hask⟩ := Ledger.secondsRemaining_ok hnow hh hp (checked_eq_ok.mpr hleft)
    simp [Call.made, Call.run, Ledger.daysRemaining, hask, hleft, daySeconds]

/-- A draft that is written is the player's record. -/
theorem Drafts.puts (hd : Drafts s v c d) (hw : s.written d.store v.ledger.player d.holdings = .ok w.store) :
    Puts v d.holdings w := by
  obtain ⟨-, wall, -, hwrite⟩ := Setting.written_ok hw
  refine ⟨?_, ?_⟩
  · rw [Store.holdings_write hwrite, if_pos rfl]
  · intro key hkey
    rw [Store.find?_write_ne hwrite hkey, hd.find?_store hkey]

/-- A call that reports a change has put its draft into the record, and its ledger shows it. -/
theorem Call.puts {a : Answer} (h : (c.made s v).1.answer = .ok a) (hreports : c.reports a = true) :
    ∃ d, Drafts s v c d ∧ Puts v d.holdings (c.made s v).2 ∧ s.held (c.made s v).2 = .ok (some d.holdings) ∧
      (c.made s v).2.ledger.house = v.ledger.house := by
  obtain ⟨d, store, log, hd, hw, -, hleft⟩ := Call.reported (Call.run_of_answered h) hreports
  rw [hleft]
  exact ⟨d, hd, hd.puts (Setting.wrote_eq_none.mp hw).1, s.held_copied v store d.holdings log, rfl⟩

/-- What a change on a new ledger leaves of the record, where the player held what is held, if there was a record. -/
structure HitsTarget (s : Setting) (v : Visit) (held : Option Holdings) : Prop where
  purchase : (Call.purchase.made s v).1.answer = .ok (.flag true) → ∃ terms now t,
    s.catalog.find? v.ledger.house = some terms ∧ s.now = some now ∧
      t.toInt = now.toInt + terms.prepaidDaysOnPurchase.toNat * 86400 ∧
      Puts v ⟨leasesOf held ++ [⟨v.ledger.house, t⟩], held.bind (·.lastHouse)⟩ (Call.purchase.made s v).2
  /-- The lease that is moved is the one that the questions read, before and after it. -/
  payFees : ∀ days, ((Call.payFees days).made s v).1.answer = .ok (.flag true) → ∃ (t t' : Int64) (leases : List Lease),
    t'.toInt = t.toInt + 86400 * days.toNat ∧ Moves v.ledger.house t t' (leasesOf held) leases ∧
      Puts v ⟨leases, held.bind (·.lastHouse)⟩ ((Call.payFees days).made s v).2 ∧
      AnswersFrom s v t ∧ AnswersFrom s ((Call.payFees days).made s v).2 t' ∧
      AnswersFrom s ((Call.payFees days).made s v).2.renew t'
  setLastHouse : ∀ value, ((Call.setLastHouse value).made s v).1.answer = .ok (.flag true) →
    Puts v ⟨leasesOf held, some value⟩ ((Call.setLastHouse value).made s v).2
  /-- A player without a record leaves for the hub without one. -/
  depart : ∀ hub, (Call.depart.made s v).1.answer = .ok (.point hub) →
    held.isSome ∧ Puts v ⟨leasesOf held, some v.ledger.house⟩ (Call.depart.made s v).2 ∨
      held = none ∧ (Call.depart.made s v).2.store = v.store

section

variable {held held' : Option Holdings} (hnew : v.ledger.copy = .unread)
include hnew

/-- A new ledger shows what is loaded. -/
theorem Setting.held_loaded (hload : v.store.holdings v.ledger.player = .ok held) (hh : s.held v = .ok held') :
    held' = held := by
  have hshown := Setting.held_eq hh
  unfold Visit.held at hshown
  rw [hnew] at hshown
  exact Except.ok.inj (hshown.symm.trans hload)

theorem Setting.enrolled_loaded {store : Store} (hload : v.store.holdings v.ledger.player = .ok held)
    (he : s.enrolled v = .ok (h, store)) : h = ⟨leasesOf held, held.bind (·.lastHouse)⟩ := by
  rcases Setting.enrolled_cases he with ⟨hh, -⟩ | ⟨hh, rfl, -⟩
  · cases Setting.held_loaded hnew hload hh
    rfl
  · cases Setting.held_loaded hnew hload hh
    rfl

/-- It shows something only if the store answers. -/
theorem Setting.get_of_held (hh : s.held v = .ok held) : s.outage.get = false := by
  unfold Setting.held at hh
  split at hh
  · cases hh
  · rename_i hup
    simpa [hnew] using hup

end

theorem Hub.depart_error {f : Fault} (hh : s.held v = .error f) : Call.depart.run s v = .error (.fault f) v := by
  simp [Call.run, Hub.depart_apply, Ledger.setLastHouse, Ledger.consult_error hh]

/-- A departure that is answered is remembered, if there is a record to remember it in. -/
theorem Call.depart_answered {hub : Point} (hanswer : (Call.depart.made s v).1.answer = .ok (.point hub)) :
    (∃ h, s.held v = .ok (some h) ∧ Puts v (h.leave (some v.ledger.house)) (Call.depart.made s v).2) ∨
      s.held v = .ok none ∧ (Call.depart.made s v).2.store = v.store := by
  have hrun := Call.run_of_answered hanswer
  rcases Call.drafts_or_quiet s v .depart with ⟨d, log, hd, hclose⟩ | ⟨hn, hquiet | ⟨hbuying, -⟩⟩
  · obtain ⟨store, hw, -, hleft⟩ := Draft.close_eq_ok (hclose.symm.trans hrun)
    have hputs : Puts v d.holdings (Call.depart.made s v).2 := hd.puts (hleft ▸ (Setting.wrote_eq_none.mp hw).1)
    cases hd with
    | depart hh => exact Or.inl ⟨_, hh, hputs⟩
  · cases hh : s.held v with
    | error f => cases hrun.symm.trans (Hub.depart_error hh)
    | ok held =>
      cases held with
      | some h => exact absurd (.depart hh) (hn _)
      | none =>
        rw [hrun] at hquiet
        generalize (Call.depart.made s v).2 = w at hquiet ⊢
        cases hquiet with
        | ok _ hlook | rebound _ hlook => exact Or.inr ⟨rfl, hlook.store⟩
  · rcases hbuying with hbuying | hbuying <;> cases hbuying

/-- A change that is reported, on a new ledger for a record that loads or for a player without one, is written into
    the record and leaves all else in it, and all other records, as they were. -/
theorem changes_hit_their_target {held : Option Holdings} (hnew : v.ledger.copy = .unread)
    (hload : v.store.holdings v.ledger.player = .ok held) : HitsTarget s v held where
  purchase := by
    intro hanswer
    obtain ⟨d, hd, hputs, -⟩ := Call.puts hanswer rfl
    cases hd with
    | @purchase terms h store now t hterms he _ hnow ht =>
      cases Setting.enrolled_loaded hnew hload he
      refine ⟨terms, now, t, hterms, hnow, ?_, hputs⟩
      rw [checked_eq_ok.mp ht, daySeconds, Int.mul_comm]
  payFees := by
    intro days hanswer
    obtain ⟨d, hd, hputs, hheld, hhouse⟩ := Call.puts hanswer rfl
    cases hd with
    | @payFees _ h t t' hh hp ht =>
      cases Setting.held_loaded hnew hload hh
      have hlease : (h.extend v.ledger.house t').paidUntil? ((Call.payFees days).made s v).2.ledger.house = some t' := by
        rw [hhouse]
        exact Holdings.paidUntil?_extend hp t'
      have hstored := hputs.record
      rw [← Call.player_made (.payFees days) s v] at hstored
      have hrenewed : s.held ((Call.payFees days).made s v).2.renew = .ok (some (h.extend v.ledger.house t')) :=
        Setting.held_new (Setting.get_of_held hnew hh) rfl hstored
      exact ⟨t, t', _, checked_eq_ok.mp ht, Holdings.moves_extend hp t', hputs, .of_held hh hp, .of_held hheld hlease,
        .of_held hrenewed hlease⟩
  setLastHouse := by
    intro value hanswer
    obtain ⟨d, hd, hputs, -⟩ := Call.puts hanswer rfl
    cases hd with
    | setLastHouse hh =>
      cases Setting.held_loaded hnew hload hh
      exact hputs
  depart := by
    intro hub hanswer
    rcases Call.depart_answered hanswer with ⟨h, hh, hputs⟩ | ⟨hh, hstore⟩
    · cases Setting.held_loaded hnew hload hh
      exact Or.inl ⟨rfl, hputs⟩
    · exact Or.inr ⟨(Setting.held_loaded hnew hload hh).symm, hstore⟩

end

/-- A house that the catalog does not have, and the shipped one twice. -/
def annsHoldings : Holdings :=
  ⟨[⟨"atlantis", 5⟩, ⟨"greyton", 1700000000⟩, ⟨"greyton", 1800000000⟩], some "atlantis"⟩

def annsAttic : Store :=
  match (shippedWith {}).written .empty "Ann" annsHoldings with
  | .ok store => store
  | .error _ => .empty

/-- Three days are paid for, on the first lease on the house. -/
theorem ann_pays_for_the_first_lease :
    let v : Visit := { annAtGreyton with store := annsAttic }
    let paid := (Call.payFees 3).made (shippedWith {}) v
    (paid.1.answer = .ok (.flag true) ∧ paid.2.store.holdings "Ann" = .ok (some
        ⟨[⟨"atlantis", 5⟩, ⟨"greyton", 1700259200⟩, ⟨"greyton", 1800000000⟩], some "atlantis"⟩)) ∧
      HitsTarget (shippedWith {}) v (some annsHoldings) := by
  intro v paid
  exact ⟨by decide +kernel, changes_hit_their_target rfl (by decide +kernel)⟩

end HouseLease
