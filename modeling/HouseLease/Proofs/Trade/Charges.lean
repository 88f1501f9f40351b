/-
  HouseLease.Proofs.Trade.Charges — the purse pays for what the store has taken, and for nothing else.

  A trade debits the purse first and looks at no answer of the change behind it, only at its faults. So
  it has to be that a debit is always followed by a change or a fault: the house that was missing before
  the debit is still missing when it is bought (`purchase_after_debit`), and the lease that was there is
  still there when its fees are paid (`payFees_after_debit`), whatever the ledger's copy is worth. Then
  an answer that charges comes from a draft that was written, at the draft's cost (`Call.charged`), a
  fault gives the money back, and a house just bought is never missed (`buyHouse_fault`). `FairTrades`
  has all of it for one visit, and it holds at every visit (`trades_are_fair`): no matter what catalog
  the setting has, what the store holds and which of its calls fail.
-/

import HouseLease.Proofs.Visit.Aborts
import HouseLease.Proofs.Visit.Refusals

namespace HouseLease

/-! ## Charges -/

/-- The calls that move money. -/
def Call.trades : Call → Bool
  | .buyHouse | .checkExitFees | .prepayFees _ => true
  | _ => false

/-- What an answer says was charged. -/
def Answer.charge : Answer → Int64
  | .purchase (.bought cost _) => cost
  | .feeCheck (.charged cost) => cost
  | .prepay (.paid _ cost) => cost
  | _ => 0

section

variable {s : Setting} {v w : Visit} {c : Call} {d : Draft} {a : Answer}

theorem Drafts.charge (hd : Drafts s v c d) : d.answer.charge = d.cost := by
  cases hd <;> rfl

/-- A trade comes to its draft only with the cost in the purse. -/
theorem Drafts.payable (hd : Drafts s v c d) (hc : c.trades = true) :
    ∃ purse, Purse.pay? v.purse d.cost = some purse := by
  cases hd with
  | buyHouse _ _ _ hpay | prepayFees _ _ _ _ _ _ _ _ hpay | checkExitFees _ _ _ _ _ _ hpay => exact ⟨_, hpay⟩
  | purchase | payFees | setLastHouse | depart => cases hc

theorem Call.charge_of_unreported (hc : c.trades = true) (h : c.run s v = .ok a w) (ha : c.reports a = false) :
    a.charge = 0 := by
  cases c with
  | buyHouse =>
    obtain ⟨o, -, rfl⟩ := Act.map_eq_ok.mp h
    cases o with
    | bought cost t => cases ha
    | alreadyOwned | insufficientFunds cost => rfl
  | checkExitFees =>
    obtain ⟨o, -, rfl⟩ := Act.map_eq_ok.mp h
    cases o with
    | charged cost => cases ha
    | notOwned | current | unpaid cost tile => rfl
  | prepayFees days =>
    obtain ⟨o, -, rfl⟩ := Act.map_eq_ok.mp h
    cases o with
    | paid days cost => cases ha
    | notOwned | capReached cap | insufficientFunds days cost => rfl
  | player | house | bind _ | terms | hasHouse | isFeeExpired | paidUntil | secondsRemaining | daysRemaining
  | expiryLabel | leases | lastHouse | feeForDays _ | purchase | payFees _ | setLastHouse _ | depart | goBack
  | leave => cases hc

/-- The purse loses what the answer says, without going below what it cannot pay. -/
theorem Call.charged (hc : c.trades = true) (h : c.run s v = .ok a w) :
    0 ≤ a.charge.toInt ∧ w.purse.toInt = v.purse.toInt - a.charge.toInt := by
  rcases c.drafts_or_quiet s v with ⟨d, log, hd, hrun⟩ | ⟨-, hquiet | ⟨-, _, _, hrun, -⟩⟩
  · obtain ⟨store, -, rfl, rfl⟩ := Draft.close_eq_ok (hrun.symm.trans h)
    obtain ⟨purse, hpay⟩ := hd.payable hc
    obtain ⟨hpos, hleft⟩ := Purse.toInt_pay? hpay
    rw [hd.charge]
    rw [← (Purse.pay?_eq_some.mp hpay).2] at hleft
    exact ⟨hpos, hleft⟩
  · rw [h] at hquiet
    cases hquiet with
    | ok hsilent hlook =>
      rw [Call.charge_of_unreported hc h hsilent, hlook.purse]
      exact ⟨Int.le_refl 0, (Int.sub_zero _).symm⟩
    | @rebound _ u house hsilent hlook =>
      rw [Call.charge_of_unreported hc h hsilent]
      have hpurse : (u.rebind house).purse = v.purse := hlook.purse
      rw [hpurse]
      exact ⟨Int.le_refl 0, (Int.sub_zero _).symm⟩
  · cases h.symm.trans hrun

end

/-! ## Records -/

/-- Between `v` and `w` the store has taken a record in which the fees for the bound house run out at `t`. It was
    put where the player's record was, or where one was created just before, and flushed. -/
def Recorded (s : Setting) (v w : Visit) (t : Int64) : Prop :=
  ∃ before wall, ∃ h : Holdings, s.outage.put = false ∧ s.outage.putFlush = none ∧ s.wall = some wall ∧
    (before = v.store ∨ ∃ r, v.store.create wall v.ledger.player houseTag = .ok (r, before)) ∧
    before.write wall v.ledger.player houseTag (HouseList.write h.leases) h.lastHouse = .ok w.store ∧
    h.paidUntil? v.ledger.house = some t

/-- What the ledger answers to when the fees for the bound house run out. -/
def Visit.toldUntil (v : Visit) (s : Setting) : Except Stop Answer := (Call.paidUntil.made s v).1.answer

section

variable {s : Setting} {v : Visit}

theorem Visit.toldUntil_held {held : Option Holdings} (hh : s.held v = .ok held) :
    v.toldUntil s = .ok (.number? (held.bind (·.paidUntil? v.ledger.house))) := by
  obtain ⟨log, hq⟩ := Ledger.paidUntil_ok hh
  simp [Visit.toldUntil, Call.made, Call.run, hq]

theorem Drafts.recorded {c : Call} {d : Draft} {store : Store} {t purse : Int64} {log : List LogLine}
    (hd : Drafts s v c d) (hw : s.wrote d.store v.ledger.player d.holdings = (none, store))
    (ht : d.holdings.paidUntil? v.ledger.house = some t) :
    Recorded s v ((v.copied store d.holdings log).withPurse purse) t := by
  obtain ⟨hw, hflush⟩ := Setting.wrote_eq_none.mp hw
  obtain ⟨hput, wall, hwall, hwrite⟩ := Setting.written_ok hw
  refine ⟨d.store, wall, d.holdings, hput, hflush, hwall, ?_, hwrite, ht⟩
  rcases hd.source with ⟨-, -, hstore⟩ | ⟨-, -, ⟨r, hcreated⟩, -⟩
  · exact Or.inl hstore
  · obtain ⟨-, wall', hwall', hcreate⟩ := Setting.created_ok hcreated
    cases hwall.symm.trans hwall'
    exact Or.inr ⟨r, hcreate⟩

end

/-! ## Behind a debit -/

namespace Trade

open Act Ledger

variable {s : Setting} {v u u' w : Visit} {cost : Int64}

theorem debited (h : pay cost u = .ok true u') : ∃ purse, u' = u.withPurse purse := by
  rcases pay_eq_ok h with ⟨-, purse, -, rfl⟩ | ⟨hfalse, -⟩
  · exact ⟨purse, rfl⟩
  · cases hfalse

/-- A house that the ledger did not show before it was paid for is not held when it is bought. -/
theorem purchase_after_debit {b : Bool} (hask : hasHouse s v = .ok false u) (hpay : pay cost u = .ok true u')
    (h : purchase s u' = .ok b w) :
    b = true ∧ ∃ held, s.held w = .ok (some held) ∧ (held.paidUntil? w.ledger.house).isSome = true := by
  obtain ⟨held, log, hh, hnone, rfl⟩ := hasHouse_eq_ok hask
  obtain ⟨purse, rfl⟩ := debited hpay
  have hrun : Call.purchase.run s ((v.consulted held log).withPurse purse) = .ok (.flag b) w := by
    rw [Call.run, Act.map_apply, h]
  cases b with
  | true =>
    obtain ⟨d, store, log', hd, -, -, rfl⟩ := Call.reported hrun rfl
    refine ⟨rfl, d.holdings, s.held_of_copy rfl, ?_⟩
    cases hd with
    | purchase _ _ hnew => exact Option.isSome_iff_exists.mpr ⟨_, Holdings.paidUntil?_acquire hnew _⟩
  | false =>
    rcases Call.drafts_or_quiet s ((v.consulted held log).withPurse purse) .purchase with ⟨d, _, hd, hclose⟩ | ⟨hn, -⟩
    · obtain ⟨-, -, hanswer, -⟩ := Draft.close_eq_ok (hclose.symm.trans hrun)
      cases hd with
      | purchase => cases hanswer
    · rcases purchase_no_draft hn with ⟨_, h', -, -, hh', hown⟩ | ⟨e, _, hstop, -⟩ | ⟨_, _, hstop, -⟩
      · -- the question before the debit would have found it
        rw [Setting.held_withPurse, (Looked.consulted hh log).held, hh] at hh'
        cases hh'
        have howned : (h'.paidUntil? v.ledger.house).isSome = true := hown
        cases hnone.symm.trans howned
      · cases hstop.symm.trans h
      · cases hstop.symm.trans h

/-- A lease that the ledger showed before its fees were paid is there when they are. -/
theorem payFees_after_debit {b : Bool} {days : UInt32} {h : Holdings} {t : Int64} {log : List LogLine}
    (hh : s.held v = .ok (some h)) (hp : h.paidUntil? v.ledger.house = some t)
    (hpay : pay cost (v.consulted (some h) log) = .ok true u') (hpaid : payFees s days u' = .ok b w) : b = true := by
  obtain ⟨purse, rfl⟩ := debited hpay
  have hheld : s.held ((v.consulted (some h) log).withPurse purse) = .ok (some h) :=
    (Looked.consulted hh log).held.trans hh
  cases ht : addDays t days with
  | error op =>
    obtain ⟨rfl, -⟩ := checked_eq_error.mp ht
    obtain ⟨log', hcut⟩ := payFees_aborts hheld hp ht
    cases hcut.symm.trans hpaid
  | ok t' =>
    obtain ⟨log', hdraft⟩ := payFees_draft hheld hp ht
    rw [hpaid] at hdraft
    split at hdraft
    · cases hdraft
      rfl
    · cases hdraft

end Trade

/-! ## Faults -/

/-- The faults of the store and of what it holds. -/
def Fault.ofStore : Fault → Bool
  | .storeOffline | .storeUnflushed _ | .recordUnreadable | .schemaMismatch _ | .houseListUnreadable | .recordTooLong => true
  | .unknownHouse _ | .missingLease _ | .invalidCatalog _ | .timestampOutOfRange _ | .system _ => false

section

variable {s : Setting} {v : Visit} {f : Fault}

theorem Setting.held_fault (h : s.held v = .error f) : f.ofStore = true := by
  rcases Setting.held_error h with rfl | ⟨_, hf⟩
  · rfl
  · cases hf with
    | undecodable _ | version _ _ | houses _ _ _ => rfl

theorem Setting.Unplaced.ofStore {down : Bool} (h : s.Unplaced down (.fault f)) : f.ofStore = true := by
  cases h with
  | offline _ | tooLong => rfl

theorem Setting.wrote_ofStore {store store' : Store} {player : String} {h : Holdings}
    (hw : s.wrote store player h = (some (.fault f), store')) : f.ofStore = true := by
  rcases Setting.wrote_some hw with ⟨hfailed, -⟩ | ⟨reason, -, he, -⟩
  · exact (Setting.written_error hfailed).ofStore
  · cases he
    rfl

end

theorem Setting.enrolled_fault {s : Setting} {v : Visit} {f : Fault} (h : s.enrolled v = .error (.fault f)) :
    f.ofStore = true := by
  rcases Setting.enrolled_error h with ⟨f', hh, he⟩ | ⟨-, hc⟩ | ⟨_, _, reason, -, -, -, he⟩
  · cases he
    exact Setting.held_fault hh
  · exact (Setting.created_error hc).ofStore
  · cases he
    rfl

namespace Ledger

open Act

variable {s : Setting} {v w : Visit} {f : Fault}

theorem paidUntil_fault (h : paidUntil s v = .error (.fault f) w) : f.ofStore = true := by
  cases hh : s.held v with
  | ok held =>
    obtain ⟨log, hq⟩ := paidUntil_ok hh
    cases hq.symm.trans h
  | error f' =>
    cases (paidUntil_error hh).symm.trans h
    exact Setting.held_fault hh

theorem enrol_fault (h : enrol s v = .error (.fault f) w) : f.ofStore = true := by
  cases he : s.enrolled v with
  | ok p =>
    obtain ⟨log, hen⟩ := enrol_ok he
    cases hen.symm.trans h
  | error e =>
    obtain ⟨u, hen, -⟩ := enrol_error he
    cases hen.symm.trans h
    exact Setting.enrolled_fault he

theorem commit_fault {held : Holdings} (h : commit s held v = .error (.fault f) w) : f.ofStore = true := by
  rw [commit_apply] at h
  rcases hw : s.wrote v.store v.ledger.player held with ⟨_ | e, store⟩
  · rw [hw] at h
    cases h
  · rw [hw] at h
    cases h
    exact Setting.wrote_ofStore hw

/-- A purchase meets a fault only where the house has no terms, or in the store. -/
theorem purchase_fault (h : purchase s v = .error (.fault f) w) :
    f = .unknownHouse v.ledger.house ∨ f.ofStore = true := by
  unfold purchase at h
  rcases bind_eq_error h with h | ⟨terms, u, hread, h⟩
  · exact Or.inl (Setting.terms_fault h)
  obtain ⟨-, rfl⟩ := Setting.terms_eq_ok hread
  right
  rcases bind_eq_error h with h | ⟨held, u, -, h⟩
  · exact enrol_fault h
  rcases bind_eq_error h with h | ⟨player, u, -, h⟩
  · cases h
  rcases bind_eq_error h with h | ⟨house, u, -, h⟩
  · cases h
  by_cases hown : held.owns house = true
  · rw [if_pos hown] at h
    cases h
  · rw [if_neg hown] at h
    rcases bind_eq_error h with h | ⟨now, u, -, h⟩
    · rw [ofClock_apply] at h
      split at h <;> cases h
    rcases bind_eq_error h with h | ⟨t, u, -, h⟩
    · rw [ofOverflow_apply] at h
      split at h <;> cases h
    rcases bind_eq_error h with h | ⟨_, u, -, h⟩
    · exact commit_fault h
    · cases h

end Ledger

namespace Trade

open Act Ledger

variable {s : Setting} {v w : Visit} {f : Fault}

theorem orRefund_eq_ok {α : Type} {act : Act α} {cost : Int64} {a : α} (h : orRefund cost act v = .ok a w) :
    act v = .ok a w := by
  cases hact : act v with
  | ok b u => exact (orRefund_ok hact).symm.trans h
  | error e u =>
    cases e with
    | fault f =>
      cases hback : Purse.refund u.purse cost with
      | ok purse =>
        obtain ⟨log, hr⟩ := orRefund_fault hact hback
        cases hr.symm.trans h
      | error op => simp [orRefund, hact, refund, hback] at h
    | overflow op => cases (orRefund_abort (fun f => Stop.noConfusion) hact).symm.trans h
    | noTime => cases (orRefund_abort (fun f => Stop.noConfusion) hact).symm.trans h

theorem orRefund_eq_fault {α : Type} {act : Act α} {cost : Int64} (h : orRefund cost act v = .error (.fault f) w) :
    ∃ u, act v = .error (.fault f) u := by
  cases hact : act v with
  | ok a u =>
    rw [orRefund_ok hact] at h
    cases h
  | error e u =>
    cases e with
    | fault f' =>
      cases hback : Purse.refund u.purse cost with
      | ok purse =>
        obtain ⟨log, hr⟩ := orRefund_fault hact hback
        cases hr.symm.trans h
        exact ⟨u, rfl⟩
      | error op => simp [orRefund, hact, refund, hback] at h
    | overflow op => cases (orRefund_abort (fun f => Stop.noConfusion) hact).symm.trans h
    | noTime => cases (orRefund_abort (fun f => Stop.noConfusion) hact).symm.trans h

/-- So does a purchase that is paid for: the house just bought is never missed. -/
theorem buyHouse_fault (h : buyHouse s v = .error (.fault f) w) :
    f = .unknownHouse v.ledger.house ∨ f.ofStore = true := by
  unfold buyHouse at h
  rcases bind_eq_error h with h | ⟨terms, u, hread, h⟩
  · exact Or.inl (Setting.terms_fault h)
  obtain ⟨-, rfl⟩ := Setting.terms_eq_ok hread
  rcases bind_eq_error h with h | ⟨owned, u, hask, h⟩
  · rcases bind_eq_error h with h | ⟨_, _, -, h⟩
    · exact Or.inr (paidUntil_fault h)
    · cases h
  cases owned with
  | true => cases h
  | false =>
    rcases bind_eq_error h with h | ⟨paid, u', hpay, h⟩
    · rw [pay_apply] at h
      split at h <;> cases h
    cases paid with
    | false => cases h
    | true =>
      have hhouse : u'.ledger.house = v.ledger.house := by
        obtain ⟨held, log, -, -, rfl⟩ := hasHouse_eq_ok hask
        obtain ⟨purse, rfl⟩ := debited hpay
        rfl
      rcases bind_eq_error h with h | ⟨bought, x, hbuy, h⟩
      · obtain ⟨_, h⟩ := orRefund_eq_fault h
        exact hhouse ▸ purchase_fault h
      · obtain ⟨-, held, hheld, hlease⟩ := purchase_after_debit hask hpay (orRefund_eq_ok hbuy)
        rcases bind_eq_error h with h | ⟨t?, y, hq, h⟩
        · exact Or.inr (paidUntil_fault h)
        · obtain ⟨log, hq'⟩ := paidUntil_ok hheld
          rw [Option.bind_some] at hq'
          cases hq'.symm.trans hq
          cases hlost : held.paidUntil? x.ledger.house with
          | none =>
            rw [hlost] at hlease
            cases hlease
          | some t =>
            rw [hlost] at h
            cases h

end Trade

/-! ## Fair trades -/

/-- What a player who trades at this visit can rely on. A call that is cut off by a number out of its range gives no
    answer and meets no fault. -/
structure FairTrades (s : Setting) (v : Visit) : Prop where
  /-- The purse loses what the answer says was charged; most answers say nothing. -/
  charged : ∀ c : Call, c.trades = true → ∀ a w, c.run s v = .ok a w →
    0 ≤ a.charge.toInt ∧ w.purse.toInt = v.purse.toInt - a.charge.toInt
  /-- A fault costs nothing. -/
  refunded : ∀ c : Call, c.trades = true → ∀ f w, c.run s v = .error (.fault f) w → w.purse = v.purse
  /-- A house is bought at its price by a player the ledger shows without it, and the record says so. -/
  bought : ∀ cost t w, Call.buyHouse.run s v = .ok (.purchase (.bought cost t)) w →
    v.toldUntil s = .ok (.number? none) ∧ Recorded s v w t ∧ ∃ terms now,
      s.catalog.find? v.ledger.house = some terms ∧ s.now = some now ∧ cost = terms.purchaseCost ∧
        t.toInt = now.toInt + terms.prepaidDaysOnPurchase.toNat * 86400
  /-- The day charged at the exit is added to what the ledger shows. -/
  collected : ∀ cost w, Call.checkExitFees.run s v = .ok (.feeCheck (.charged cost)) w →
    ∃ t t', v.toldUntil s = .ok (.number? (some t)) ∧ t'.toInt = t.toInt + 86400 ∧ Recorded s v w t'
  /-- So are the days paid ahead. -/
  prepaid : ∀ requested days cost w, (Call.prepayFees requested).run s v = .ok (.prepay (.paid days cost)) w →
    ∃ t t', v.toldUntil s = .ok (.number? (some t)) ∧ t'.toInt = t.toInt + 86400 * days.toNat ∧ Recorded s v w t'
  /-- Behind its debit a purchase finds the house still free. -/
  stillFree : ∀ cost u u' b w, Ledger.hasHouse s v = .ok false u → Trade.pay cost u = .ok true u' →
    Ledger.purchase s u' = .ok b w → b = true
  /-- Behind theirs, fees find the lease still there. -/
  stillLeased : ∀ cost days u u' b w,
    (∃ left, Ledger.secondsRemaining s v = .ok (some left) u) ∨ Ledger.isFeeExpired s v = .ok (some true) u →
    Trade.pay cost u = .ok true u' → Ledger.payFees s days u' = .ok b w → b = true
  /-- A house that was just bought is not missed. -/
  found : ∀ f w, Call.buyHouse.run s v = .error (.fault f) w → ∀ house, f ≠ .missingLease house

section

variable {s : Setting} {v w : Visit}

theorem Drafts.bought {d : Draft} {store : Store} {purse cost t : Int64} {log : List LogLine}
    (hd : Drafts s v .buyHouse d) (hw : s.wrote d.store v.ledger.player d.holdings = (none, store))
    (ha : d.answer = .purchase (.bought cost t)) :
    v.toldUntil s = .ok (.number? none) ∧ Recorded s v ((v.copied store d.holdings log).withPurse purse) t ∧
      ∃ terms now, s.catalog.find? v.ledger.house = some terms ∧ s.now = some now ∧ cost = terms.purchaseCost ∧
        t.toInt = now.toInt + terms.prepaidDaysOnPurchase.toNat * 86400 := by
  cases id hd with
  | @buyHouse terms h _ now _ _ hterms he hnew hpay hnow ht =>
    cases ha
    obtain ⟨held, hh, hsame⟩ := Ledger.held_of_enrolled he
    have hnone : h.paidUntil? v.ledger.house = none := by simpa [Holdings.owns] using hnew
    refine ⟨?_, hd.recorded hw (Holdings.paidUntil?_acquire hnew _), terms, now, hterms, hnow, rfl, ?_⟩
    · rw [Visit.toldUntil_held hh, hsame, hnone]
    · have hsum := checked_eq_ok.mp ht
      unfold daySeconds at hsum
      omega

/-- A lease that is extended ends as many days later as are paid for. -/
theorem Recorded.extended {h : Holdings} {days : UInt32} {t t' : Int64} (hrec : Recorded s v w t')
    (hh : s.held v = .ok (some h)) (hp : h.paidUntil? v.ledger.house = some t) (ht : addDays t days = .ok t') :
    ∃ t t', v.toldUntil s = .ok (.number? (some t)) ∧ t'.toInt = t.toInt + 86400 * days.toNat ∧ Recorded s v w t' := by
  refine ⟨t, t', ?_, ?_, hrec⟩
  · rw [Visit.toldUntil_held hh, Option.bind_some, hp]
  · exact checked_eq_ok.mp ht

end

/-- A purse is charged for what was recorded, and for nothing else. -/
theorem trades_are_fair (s : Setting) (v : Visit) : FairTrades s v where
  charged c hc a w h := Call.charged hc h
  refunded c _ f w h := Call.purse_of_fault h
  bought cost t w h := by
    obtain ⟨d, store, log, hd, hw, ha, rfl⟩ := Call.reported h rfl
    exact hd.bought hw ha.symm
  collected cost w h := by
    obtain ⟨d, store, log, hd, hw, ha, rfl⟩ := Call.reported h rfl
    cases id hd with
    | checkExitFees hh hp _ _ _ _ _ ht =>
      exact (hd.recorded hw (Holdings.paidUntil?_extend hp _)).extended hh hp ht
  prepaid requested days cost w h := by
    obtain ⟨d, store, log, hd, hw, ha, rfl⟩ := Call.reported h rfl
    cases id hd with
    | prepayFees _ hh hp _ _ _ _ _ _ ht =>
      cases ha
      exact (hd.recorded hw (Holdings.paidUntil?_extend hp _)).extended hh hp ht
  stillFree cost u u' b w hask hpay h := (Trade.purchase_after_debit hask hpay h).1
  stillLeased cost days u u' b w hask hpay h := by
    rcases hask with ⟨left, hask⟩ | hask
    · obtain ⟨now, held, t, log, -, hh, hp, -, rfl⟩ := Ledger.secondsRemaining_eq_ok hask
      exact Trade.payFees_after_debit hh hp hpay h
    · obtain ⟨now, held, t, log, -, hh, hp, -, rfl⟩ := Ledger.isFeeExpired_eq_ok hask
      exact Trade.payFees_after_debit hh hp hpay h
  found f w h house := by
    rcases Trade.buyHouse_fault (Act.map_eq_error.mp h) with rfl | hstore
    · exact Fault.noConfusion
    · rintro rfl
      cases hstore

/-- Ann's house is hers until the days that came with it run out; the price is gone from her purse. -/
example :
    let made := Call.buyHouse.made (shippedWith {}) annAtGreyton
    made.1 = ⟨.ok (.purchase (.bought 1500000 1700864000)), 500000, "greyton"⟩ ∧
      made.2.store.holdings "Ann" = .ok (some ⟨[⟨"greyton", 1700864000⟩], none⟩) := by
  decide +kernel

end HouseLease
