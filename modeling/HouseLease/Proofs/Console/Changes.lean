/-
  HouseLease.Proofs.Console.Changes — what an errand that failed has stored.

  An errand makes one call that may change the record, if any, and only looks and prints after it. Where
  flushes succeed, a call that met a fault leaves the store alone but for the blank record of a first
  purchase (`Call.store_of_fault`). So a failed errand has stored something just where its call had an answer
  and the telling of it failed, or where that blank record stayed: `Oversteps`. To tell a purchase or
  a payment takes the date the fees run out on, and not every second has one.
-/

import HouseLease.Proofs.Console.Talking
import HouseLease.Proofs.Console.Unreadable
import HouseLease.Proofs.Visit.Faults

namespace HouseLease

/-! ## Calls -/

section

variable {s : Setting} {v w : Visit} {c : Call} {d : Draft}

/-- Why the store is not as it was after an errand with this call has failed. -/
inductive Oversteps (s : Setting) (v : Visit) : Call → Prop
  /-- The house is bought or paid for, and the second its fees run out in has no date. -/
  | untold {c : Call} {d : Draft} {store : Store} {t : Int64} :
      (c = .buyHouse ∨ ∃ days, c = .prepayFees days) → Drafts s v c d →
      s.written d.store v.ledger.player d.holdings = .ok store → d.holdings.paidUntil? v.ledger.house = some t →
      HouseLease.expiryLabel t = none → Oversteps s v c
  /-- The player's record is new, and the house list is too long to be written into it. -/
  | unlisted {d : Draft} {r : Record} {f : Fault} :
      s.held v = .ok none → Drafts s v .buyHouse d → s.created v = .ok (r, d.store) →
      s.written d.store v.ledger.player d.holdings = .error (.fault f) → Oversteps s v .buyHouse

/-- Days of fees move the second they run out in. -/
theorem addDays_ne {t t' : Int64} {days : UInt32} (h : addDays t days = .ok t') (hdays : days ≠ 0) : t' ≠ t := by
  have hsum := checked_eq_ok.mp h
  have hpos : days.toNat ≠ 0 := fun hzero => hdays (UInt32.toNat_inj.mp hzero)
  rintro rfl
  simp only [daySeconds] at hsum
  omega

/-- A purchase, and a payment ahead, write other holdings than the ledger showed, with a lease on the bound house. -/
theorem Drafts.moves (hd : Drafts s v c d) (hc : c = .buyHouse ∨ ∃ days, c = .prepayFees days) :
    s.held v ≠ .ok (some d.holdings) ∧ ∃ t, d.holdings.paidUntil? v.ledger.house = some t ∧
      ∃ terms, s.catalog.find? v.ledger.house = some terms := by
  cases hd with
  | buyHouse hterms he hnew _ _ _ =>
    refine ⟨fun hsame => ?_, _, Holdings.paidUntil?_acquire hnew _, _, hterms⟩
    rcases Setting.enrolled_cases he with ⟨hh, -⟩ | ⟨hnone, -⟩
    · have hlist := Option.some.inj (Except.ok.inj (hh.symm.trans hsame))
      have hlength := congrArg (List.length ∘ Holdings.leases) hlist
      simp [Holdings.acquire] at hlength
    · cases hnone.symm.trans hsame
  | @prepayFees _ _ h _ t _ _ _ _ t' hterms hh hp _ _ _ hne _ _ ht =>
    refine ⟨fun hsame => ?_, t', Holdings.paidUntil?_extend hp t', _, hterms⟩
    have hlist : h = h.extend v.ledger.house t' := Option.some.inj (Except.ok.inj (hh.symm.trans hsame))
    have htime := Holdings.paidUntil?_extend hp t'
    rw [← hlist] at htime
    exact addDays_ne ht hne (Option.some.inj (htime.symm.trans hp))
  | purchase _ _ _ _ _ | payFees _ _ _ | setLastHouse _ | depart _ | checkExitFees _ _ _ _ _ _ _ _ =>
    rcases hc with hc | ⟨_, hc⟩ <;> cases hc

theorem Visit.holdings_of_new {held : Option Holdings} (hnew : v.ledger.copy = .unread) (hh : s.held v = .ok held) :
    v.store.holdings v.ledger.player = .ok held := by
  have hh := Setting.held_eq hh
  rwa [Visit.held, hnew] at hh

theorem Drafts.texts_ne {store : Store} (hd : Drafts s v c d) (hc : c = .buyHouse ∨ ∃ days, c = .prepayFees days)
    (hnew : v.ledger.copy = .unread) (hw : s.written d.store v.ledger.player d.holdings = .ok store) :
    store.texts v.ledger.player ≠ v.store.texts v.ledger.player := by
  obtain ⟨hmoved, -⟩ := hd.moves hc
  obtain ⟨held, hh⟩ : ∃ held, s.held v = .ok held := by
    rcases hd.source with ⟨h, hh, -⟩ | ⟨hnone, -⟩
    · exact ⟨some h, hh⟩
    · exact ⟨none, hnone⟩
  obtain ⟨-, wall, -, hwrite⟩ := Setting.written_ok hw
  have hafter : store.holdings v.ledger.player = .ok (some d.holdings) :=
    (Store.holdings_write hwrite v.ledger.player).trans (if_pos rfl)
  intro hsame
  have hsame := Store.holdings_of_texts hsame
  rw [hafter, Visit.holdings_of_new hnew hh] at hsame
  exact hmoved (hh.trans hsame.symm)

theorem Setting.texts_created_ne {r : Record} {store : Store} (hnew : v.ledger.copy = .unread)
    (hnone : s.held v = .ok none) (hcreated : s.created v = .ok (r, store)) :
    store.texts v.ledger.player ≠ v.store.texts v.ledger.player := by
  obtain ⟨-, wall, -, hcreate⟩ := Setting.created_ok hcreated
  have hblank : store.holdings v.ledger.player = .ok (some .empty) :=
    (Store.holdings_create hcreate v.ledger.player).trans (if_pos rfl)
  intro hsame
  have hsame := Store.holdings_of_texts hsame
  rw [hblank, Visit.holdings_of_new hnew hnone] at hsame
  cases hsame

/-- A fault leaves the store as it was, if the call did not overstep. -/
theorem Call.store_of_fault (hs : s.Flushes) {f : Fault} (h : c.run s v = .error (.fault f) w) (hc : c ≠ .purchase) :
    w.store = v.store ∨ Oversteps s v c := by
  rcases Call.fault_cases h with ⟨-, hlook⟩ | ⟨d, hd⟩ | ⟨-, -, reason, -, hst⟩
  · exact .inl hlook.store
  · obtain ⟨store, log, hwrote, rfl⟩ := hd.fault h
    obtain ⟨hw, rfl⟩ : s.written d.store v.ledger.player d.holdings = .error (.fault f) ∧ store = d.store := by
      refine (Setting.wrote_some hwrote).resolve_right fun ⟨reason, hflush, _⟩ => ?_
      cases hs.put.symm.trans hflush
    rcases hd.source with ⟨held, -, hstore⟩ | ⟨hnone, hbuys, ⟨r, hcreated⟩, -⟩
    · exact .inl hstore
    · rcases hbuys with rfl | rfl
      · exact absurd rfl hc
      · exact .inr (.unlisted hnone hd hcreated hw)
  · cases hs.create.symm.trans hst.unflushed

end

namespace Console

/-! ## Talks -/

/-- The talk stores nothing, however it ends. -/
def Talk.Still {α : Type} (talk : Talk α) : Prop := ∀ σ, (leftBy (talk σ)).visit.store = σ.visit.store

namespace Talk.Still

variable {α β : Type} {s : Setting}

theorem bind {x : Talk α} {f : α → Talk β} (hx : Still x) (hf : ∀ a, Still (f a)) : Still (x >>= f) := by
  intro σ
  have hσ := hx σ
  rw [Talk.bind_apply]
  generalize x σ = r at hσ
  cases r with
  | ok a τ => exact (hf a τ).trans hσ
  | error stop τ => exact hσ

theorem pure (a : α) : Still (Pure.pure a : Talk α) := fun _ => rfl

theorem print (line : String) : Still (Talk.print line) := fun _ => rfl

theorem seat (player house : String) (funds : Int64) : Still (Talk.seat player house funds) := fun _ => rfl

theorem get : Still (MonadState.get : Talk Session) := fun _ => rfl

theorem ask {act : Act α} (h : act.Still) : Still (Talk.ask act) := by
  intro σ
  have hv := h σ.visit
  rw [Talk.ask_apply]
  generalize act σ.visit = r at hv
  cases r with
  | ok a w => exact hv
  | error stop w => exact hv

/-- To ask what only looks. -/
theorem look {act : Act α} (h : ∀ v, Looks s v (act v)) : Still (Talk.ask act) := ask (Looks.still h)

theorem store_of_stop {talk : Talk α} {stop : Stop} {σ τ : Session} (ht : Still talk)
    (h : talk σ = .error stop τ) : τ.visit.store = σ.visit.store := by
  have hσ := ht σ
  rw [h] at hσ
  exact hσ

theorem playerLines (s : Setting) (names : List String) : Still (Console.playerLines s names) := by
  induction names with
  | nil => exact pure ()
  | cons name rest ih =>
    refine bind (bind (seat name "" 0) fun _ => bind (look fun v => .map _ .consult) fun _ => print _) fun _ => ih

theorem status (s : Setting) (player : String) : Still (Session.status s player) := by
  refine bind (look fun v => .terms) fun terms => bind (print _) fun _ => ?_
  refine bind (look fun v => .map _ .paidUntil) fun held => ?_
  cases held with
  | false => exact print _
  | true =>
    refine bind (look fun v => .expiryLabel) fun label => bind (print _) fun _ => ?_
    refine bind (look fun v => .map _ .secondsRemaining) fun days => bind (print _) fun _ => ?_
    refine bind (look fun v => .bind .now fun _ _ _ => .map _ .paidUntil) fun lapsed => ?_
    have hleases : Still (do
        let leases ← Talk.ask (Ledger.leases s)
        Talk.print ("Owned houses: " ++ idList leases)) :=
      bind (look fun v => .map _ .consult) fun leases => print _
    cases hlapsed : lapsed.getD false with
    | true => simpa [hlapsed] using bind (print _) fun _ => hleases
    | false => simpa [hlapsed] using hleases

theorem goBack (s : Setting) (player : String) : Still (Session.goBack s player) := by
  refine bind (ask (Hub.goBack_still s)) fun portal => ?_
  cases portal with
  | none => exact print _
  | some portal => exact bind (look (s := s) fun v => .ok (.refl s v)) fun _ => print _

end Talk.Still

/-! ## Telling a change -/

section

variable {s : Setting} {v : Visit} {d : Draft} {store : Store} {t : Int64} {printed : List String}

/-- The date the fees run out on, as told by a ledger that has just written the draft. -/
theorem expiryLabel_told (store : Store) (log : List LogLine) (purse : Int64)
    (ht : d.holdings.paidUntil? v.ledger.house = some t) :
    ∃ log', Ledger.expiryLabel s ((v.copied store d.holdings log).withPurse purse) =
      match HouseLease.expiryLabel t with
      | some label => .ok (some label) ((v.copied store d.holdings log').withPurse purse)
      | none => .error (.fault (.timestampOutOfRange t)) ((v.copied store d.holdings log').withPurse purse) := by
  obtain ⟨log', hpaid⟩ := Ledger.paidUntil_ok (s := s) (v := (v.copied store d.holdings log).withPurse purse)
    (s.held_copied v store d.holdings log)
  refine ⟨log', ?_⟩
  rw [Option.bind_some, Visit.withPurse_ledger, Visit.copied_house, ht] at hpaid
  rw [Ledger.expiryLabel, Act.bind_apply, hpaid]
  cases hdate : HouseLease.expiryLabel t with
  | none => simp only [hdate]; rfl
  | some label => simp only [hdate]; rfl

/-- A purchase that is stored is told if the fees run out on a date. -/
theorem Session.buy_told (hs : s.Flushes) (player house : String) (funds : Int64) (printed : List String)
    (hd : Drafts s v .buyHouse d) (hw : s.written d.store v.ledger.player d.holdings = .ok store)
    (ht : d.holdings.paidUntil? v.ledger.house = some t) :
    match HouseLease.expiryLabel t with
    | some _ => ∃ σ, Session.buy s player house funds ⟨v, printed⟩ = .ok () σ
    | none => ∃ σ, Session.buy s player house funds ⟨v, printed⟩ = .error (.fault (.timestampOutOfRange t)) σ ∧
        σ.visit.store = store := by
  obtain ⟨-, -, -, terms, hterms⟩ := hd.moves (.inl rfl)
  obtain ⟨log, hrun⟩ := hd.run_of_wrote (Setting.wrote_eq_none.mpr ⟨hw, hs.put⟩)
  obtain ⟨o, hbuy, ho⟩ := Act.map_eq_ok.mp hrun
  obtain ⟨cost, until', rfl⟩ : ∃ cost until', o = .bought cost until' := by
    cases hd with
    | buyHouse _ _ _ _ _ _ =>
      cases ho
      exact ⟨_, _, rfl⟩
  obtain ⟨log', hlabel⟩ := expiryLabel_told (s := s) store log (v.purse - d.cost) ht
  cases hdate : HouseLease.expiryLabel t with
  | none =>
    simp only [hdate] at hlabel ⊢
    refine ⟨⟨(v.copied store d.holdings log').withPurse (v.purse - d.cost), printed⟩, ?_, rfl⟩
    simp [Session.buy, hbuy, hlabel]
  | some label =>
    simp only [hdate] at hlabel ⊢
    simp [Session.buy, hbuy, hlabel, Setting.terms_apply, hterms]

/-- A payment that is stored is told if the fees run out on a date. -/
theorem Session.pay_told (hs : s.Flushes) {days : UInt32} (player house : String) (funds : Int64) (printed : List String)
    (hd : Drafts s v (.prepayFees days) d) (hw : s.written d.store v.ledger.player d.holdings = .ok store)
    (ht : d.holdings.paidUntil? v.ledger.house = some t) :
    match HouseLease.expiryLabel t with
    | some _ => ∃ σ, Session.pay s player house days funds ⟨v, printed⟩ = .ok () σ
    | none => ∃ σ, Session.pay s player house days funds ⟨v, printed⟩ = .error (.fault (.timestampOutOfRange t)) σ ∧
        σ.visit.store = store := by
  obtain ⟨log, hrun⟩ := hd.run_of_wrote (Setting.wrote_eq_none.mpr ⟨hw, hs.put⟩)
  obtain ⟨o, hpay, ho⟩ := Act.map_eq_ok.mp hrun
  obtain ⟨paidDays, cost, rfl⟩ : ∃ paidDays cost, o = .paid paidDays cost := by
    cases hd with
    | prepayFees _ _ _ _ _ _ _ _ _ _ =>
      cases ho
      exact ⟨_, _, rfl⟩
  obtain ⟨log', hlabel⟩ := expiryLabel_told (s := s) store log (v.purse - d.cost) ht
  cases hdate : HouseLease.expiryLabel t with
  | none =>
    simp only [hdate] at hlabel ⊢
    refine ⟨⟨(v.copied store d.holdings log').withPurse (v.purse - d.cost), printed⟩, ?_, rfl⟩
    simp [Session.pay, hpay, hlabel]
  | some label =>
    simp only [hdate] at hlabel ⊢
    simp [Session.pay, hpay, hlabel]

variable {f : Fault} {σ : Session}

theorem Session.buy_error {stop : Stop} {w : Visit} (player house : String) (funds : Int64) (printed : List String)
    (h : Trade.buyHouse s v = .error stop w) :
    Session.buy s player house funds ⟨v, printed⟩ = .error stop ⟨w, printed⟩ := by
  simp only [Session.buy, Talk.bind_apply, Talk.ask_apply, h]

theorem Session.buy_fault (hs : s.Flushes) {player house : String} {funds : Int64}
    (h : Session.buy s player house funds ⟨v, printed⟩ = .error (.fault f) σ) :
    σ.visit.store = v.store ∨ Oversteps s v .buyHouse := by
  cases hbuy : Trade.buyHouse s v with
  | error stop w =>
    rw [Session.buy_error player house funds printed hbuy] at h
    cases h
    exact Call.store_of_fault hs (Act.map_eq_error.mpr hbuy) Call.noConfusion
  | ok o w =>
    cases o with
    | alreadyOwned | insufficientFunds _ => simp [Session.buy, hbuy] at h
    | bought cost paidUntil =>
      obtain ⟨d, store, log, hd, hwrote, -, -⟩ :=
        Call.reported (c := .buyHouse) (Act.map_eq_ok.mpr ⟨_, hbuy, rfl⟩) rfl
      obtain ⟨hw, -⟩ := Setting.wrote_eq_none.mp hwrote
      obtain ⟨-, t, ht, -⟩ := hd.moves (.inl rfl)
      have htold := Session.buy_told hs player house funds printed hd hw ht
      cases hdate : HouseLease.expiryLabel t with
      | none => exact .inr (.untold (.inl rfl) hd hw ht hdate)
      | some label =>
        rw [hdate, h] at htold
        obtain ⟨_, hσ⟩ := htold
        cases hσ

theorem Session.pay_fault (hs : s.Flushes) {player house : String} {days : UInt32} {funds : Int64}
    (h : Session.pay s player house days funds ⟨v, printed⟩ = .error (.fault f) σ) :
    σ.visit.store = v.store ∨ Oversteps s v (.prepayFees days) := by
  cases hpay : Trade.prepayFees s days v with
  | error stop w =>
    simp only [Session.pay, Talk.bind_apply, Talk.ask_apply, hpay] at h
    cases h
    exact Call.store_of_fault hs (Act.map_eq_error.mpr hpay) Call.noConfusion
  | ok o w =>
    cases o with
    | notOwned | capReached _ | insufficientFunds _ _ => simp [Session.pay, hpay] at h
    | paid paidDays cost =>
      obtain ⟨d, store, log, hd, hwrote, -, -⟩ :=
        Call.reported (c := .prepayFees days) (Act.map_eq_ok.mpr ⟨_, hpay, rfl⟩) rfl
      obtain ⟨hw, -⟩ := Setting.wrote_eq_none.mp hwrote
      obtain ⟨-, t, ht, -⟩ := hd.moves (.inr ⟨days, rfl⟩)
      have htold := Session.pay_told hs player house funds printed hd hw ht
      cases hdate : HouseLease.expiryLabel t with
      | none => exact .inr (.untold (.inr ⟨days, rfl⟩) hd hw ht hdate)
      | some label =>
        rw [hdate, h] at htold
        obtain ⟨_, hσ⟩ := htold
        cases hσ

/-- The exit check tells a charge without a further call, and makes one only where nothing was charged. -/
theorem Session.exitCheck_fault (hs : s.Flushes) {player house : String}
    (h : Session.exitCheck s player house ⟨v, printed⟩ = .error (.fault f) σ) :
    σ.visit.store = v.store ∨ Oversteps s v .checkExitFees := by
  cases hcheck : Trade.checkExitFees s v with
  | error stop w =>
    simp only [Session.exitCheck, Talk.bind_apply, Talk.ask_apply, hcheck] at h
    cases h
    exact Call.store_of_fault hs (Act.map_eq_error.mpr hcheck) Call.noConfusion
  | ok o w =>
    cases o with
    | notOwned | charged _ | unpaid _ _ => simp [Session.exitCheck, hcheck] at h
    | current =>
      have hstore : w.store = v.store :=
        Call.unreported (c := .checkExitFees) (Act.map_eq_ok.mpr ⟨_, hcheck, rfl⟩) Call.noConfusion rfl
      have hleave : Talk.Still (do
          let exit ← Talk.ask (Hub.leave s)
          Talk.print ("Fees current. Exit to " ++ exit.text)) :=
        .bind (.look fun v => .map _ .terms) fun exit => .print _
      rw [Session.exitCheck, Talk.bind_apply, Talk.ask_apply, hcheck] at h
      exact .inl ((hleave.store_of_stop (σ := ⟨w, printed⟩) h).trans hstore)

theorem depart_fault (hs : s.Flushes)
    (h : (Talk.ask (Hub.depart s) >>= fun hub => Talk.print ("Teleport to " ++ hub.text)) ⟨v, printed⟩ = .error (.fault f) σ) : σ.visit.store = v.store ∨ Oversteps s v .depart := by
  cases hdepart : Hub.depart s v with
  | error stop w =>
    simp only [Talk.bind_apply, Talk.ask_apply, hdepart] at h
    cases h
    exact Call.store_of_fault hs (Act.map_eq_error.mpr hdepart) Call.noConfusion
  | ok hub w => simp [hdepart] at h

theorem Session.lastHouse_fault (hs : s.Flushes) {player value : String}
    (h : Session.lastHouse s player (some value) ⟨v, printed⟩ = .error (.fault f) σ) :
    σ.visit.store = v.store ∨ Oversteps s v (.setLastHouse value) := by
  cases hset : Ledger.setLastHouse s value v with
  | error stop w =>
    simp only [Session.lastHouse, Talk.bind_apply, Talk.ask_apply, hset] at h
    cases h
    exact Call.store_of_fault hs (Act.map_eq_error.mpr hset) Call.noConfusion
  | ok stored w => cases stored <;> simp [Session.lastHouse, hset] at h

end

/-! ## Errands -/

namespace Errand

/-- The call of an errand that may change the record. -/
def change? : Errand → Option Call
  | .buy _ _ _ => some .buyHouse
  | .pay _ _ days _ => some (.prepayFees days)
  | .exitCheck _ _ _ => some .checkExitFees
  | .depart _ _ => some .depart
  | .lastHouse _ (some value) => some (.setLastHouse value)
  | .players | .status _ _ | .goBack _ | .lastHouse _ none => none

/-- The errand's call, made on the store, leaves more behind than its failure tells. -/
def Oversteps (s : Setting) (store : Store) (e : Errand) : Prop :=
  ∃ l funds c, e.seat? = some (l, funds) ∧ e.change? = some c ∧
    HouseLease.Oversteps s { store, ledger := l, purse := funds } c

theorem still {s : Setting} {e : Errand} (h : e.change? = none) : (e.talk s).Still := by
  cases e with
  | players =>
    refine .bind .get fun σ => ?_
    have hlines := Talk.Still.playerLines s (σ.visit.store.players houseTag)
    cases hnone : (σ.visit.store.players houseTag).isEmpty with
    | true => simpa [hnone] using Talk.Still.bind (.print _) fun _ => hlines
    | false => simpa [hnone] using hlines
  | status player house => exact .bind (.seat _ _ _) fun _ => .status s player
  | goBack player => exact .bind (.seat _ _ _) fun _ => .goBack s player
  | lastHouse player value =>
    cases value with
    | none => exact .bind (.seat _ _ _) fun _ => .bind (.look fun v => .map _ .consult) fun _ => .print _
    | some value => cases h
  | buy _ _ _ | pay _ _ _ _ | exitCheck _ _ _ | depart _ _ => cases h

/-- After a fault the store is as it was, or the errand overstepped. -/
theorem store_of_fault {s : Setting} {store : Store} {e : Errand} {f : Fault} {session : Session} (hs : s.Flushes)
    (h : e.run s store = (.error (.fault f), session)) : session.visit.store = store ∨ e.Oversteps s store := by
  have htalk : e.talk s { visit := { store, ledger := { player := "", house := "" } } } = .error (.fault f) session := by
    unfold run at h
    split at h
    · cases h
    · rename_i hrun
      cases h
      exact hrun
  have hover {c : Call} {l : Ledger} {funds : Int64} (hseat : e.seat? = some (l, funds)) (hc : e.change? = some c)
      (hstore : session.visit.store = store ∨ HouseLease.Oversteps s { store, ledger := l, purse := funds } c) :
      session.visit.store = store ∨ e.Oversteps s store :=
    hstore.imp_right fun ho => ⟨l, funds, c, hseat, hc, ho⟩
  cases e with
  | buy player house funds => exact hover rfl rfl (Session.buy_fault hs htalk)
  | pay player house days funds => exact hover rfl rfl (Session.pay_fault hs htalk)
  | exitCheck player house funds => exact hover rfl rfl (Session.exitCheck_fault hs htalk)
  | depart player house => exact hover rfl rfl (depart_fault hs htalk)
  | lastHouse player value =>
    cases value with
    | none => exact .inl ((still rfl).store_of_stop htalk)
    | some value => exact hover rfl rfl (Session.lastHouse_fault hs htalk)
  | players | status _ _ | goBack _ => exact .inl ((still rfl).store_of_stop htalk)

/-- An errand that oversteps fails, and the record of its player is another one after it, or the first. -/
theorem changed_of_oversteps {s : Setting} {store : Store} {e : Errand} (hs : s.Flushes) (h : e.Oversteps s store) :
    ∃ f session player, e.run s store = (.error (.fault f), session) ∧
      session.visit.store.texts player ≠ store.texts player := by
  obtain ⟨l, funds, c, hseat, hc, ho⟩ := h
  have hnew := seat?_copy hseat
  cases ho with
  | @untold c d store' t hkind hd hw ht hdate =>
    have htexts := hd.texts_ne hkind hnew hw
    rcases hkind with rfl | ⟨days, rfl⟩
    · cases e with
      | buy player house funds' =>
        cases hseat
        have htold := Session.buy_told hs player house funds [] hd hw ht
        rw [hdate] at htold
        obtain ⟨σ, hσ, rfl⟩ := htold
        exact ⟨.timestampOutOfRange t, σ, player, by simp [run, talk, hσ], htexts⟩
      | lastHouse _ value => cases value <;> cases hc
      | players | status _ _ | pay _ _ _ _ | exitCheck _ _ _ | depart _ _ | goBack _ => cases hc
    · cases e with
      | pay player house days' funds' =>
        cases hseat
        cases hc
        have htold := Session.pay_told hs player house funds [] hd hw ht
        rw [hdate] at htold
        obtain ⟨σ, hσ, rfl⟩ := htold
        exact ⟨.timestampOutOfRange t, σ, player, by simp [run, talk, hσ], htexts⟩
      | lastHouse _ value => cases value <;> cases hc
      | players | status _ _ | buy _ _ _ | exitCheck _ _ _ | depart _ _ | goBack _ => cases hc
  | @unlisted d r f hnone hd hcreated hw =>
    have htexts := Setting.texts_created_ne hnew hnone hcreated
    cases e with
    | buy player house funds' =>
      cases hseat
      obtain ⟨log, hrun⟩ := hd.run_of_fault (Setting.wrote_of_error hw)
      have hbuy := Act.map_eq_error.mp hrun
      have htalk := Session.buy_error player house funds [] hbuy
      refine ⟨f, ⟨Visit.copied { store, ledger := { player, house }, purse := funds } d.store d.holdings log, []⟩,
        player, ?_, htexts⟩
      simp only [run, talk, Talk.bind_apply, Talk.seat_apply, htalk]
    | lastHouse _ value => cases value <;> cases hc
    | players | status _ _ | pay _ _ _ _ | exitCheck _ _ _ | depart _ _ | goBack _ => cases hc

end Errand

end Console

end HouseLease
