/-
  HouseLease.Proofs.Visit.Likeness — visits a call cannot tell apart.

  A likeness relates visits that show the same house, purse and holdings, and keeps doing so
  through the few things a call does: looking, enrolling, writing, paying, rebinding, noting. A
  call made on two alike visits ends alike with the same answer or the same stop
  (`Likeness.run`); the name of the player goes into the log, and into the answer to one call.
  Visits whose ledgers show the same are alike as long as the store answers (`Shows.likeness`),
  whatever there is in their copies, and so for whole runs of calls (`Shows.calls`).
-/

import HouseLease.Proofs.Visit.Runs

namespace HouseLease

/-! ## Ends that agree -/

/-- Both calls answered the same or stopped the same, and left related visits. -/
inductive Agree {α : Type} (R : Visit → Visit → Prop) : EStateM.Result Stop Visit α → EStateM.Result Stop Visit α → Prop
  | ok {a : α} {v w : Visit} : R v w → Agree R (.ok a v) (.ok a w)
  | error {e : Stop} {v w : Visit} : R v w → Agree R (.error e v) (.error e w)

/-- From related visits the two end in agreement. -/
def Matches {α : Type} (R : Visit → Visit → Prop) (x y : Act α) : Prop := ∀ ⦃v w⦄, R v w → Agree R (x v) (y w)

/-- From related visits `x` ends in agreement. -/
abbrev Respects {α : Type} (R : Visit → Visit → Prop) (x : Act α) : Prop := Matches R x x

namespace Matches

variable {α β : Type} {R : Visit → Visit → Prop} {x y : Act α}

theorem bind {f g : α → Act β} (hx : Matches R x y) (hf : ∀ a, Matches R (f a) (g a)) :
    Matches R (x >>= f) (y >>= g) := by
  intro v w h
  rw [Act.bind_apply, Act.bind_apply]
  have hr := hx h
  generalize x v = r at hr
  generalize y w = r' at hr
  cases hr with
  | ok h' => exact hf _ h'
  | error h' => exact .error h'

theorem map (g : α → β) (hx : Matches R x y) : Matches R (g <$> x) (g <$> y) := by
  intro v w h
  rw [Act.map_apply, Act.map_apply]
  have hr := hx h
  generalize x v = r at hr
  generalize y w = r' at hr
  cases hr with
  | ok h' => exact .ok h'
  | error h' => exact .error h'

theorem pure (a : α) : Respects R (Pure.pure a : Act α) := fun _ _ h => .ok h

theorem throw (e : Stop) : Respects R (MonadExcept.throw e : Act α) := fun _ _ h => .error h

theorem tryCatch {f g : Stop → Act α} (hx : Matches R x y) (hf : ∀ e, Matches R (f e) (g e)) :
    Matches R (MonadExcept.tryCatch x f) (MonadExcept.tryCatch y g) := by
  intro v w h
  rw [Act.tryCatch_apply, Act.tryCatch_apply]
  have hr := hx h
  generalize x v = r at hr
  generalize y w = r' at hr
  cases hr with
  | ok h' => exact .ok h'
  | error h' => exact hf _ h'

theorem ofClock (clock : Option α) : Respects R (Act.ofClock clock) := by
  cases clock with
  | some a => exact pure a
  | none => exact throw .noTime

theorem ofOverflow (r : Except Overflow α) : Respects R (Act.ofOverflow r) := by
  cases r with
  | ok a => exact pure a
  | error op => exact throw (.overflow op)

/-- The players may differ, as long as what follows does not depend on them. -/
theorem bindPlayer {f g : String → Act β} (hf : ∀ p q, Matches R (f p) (g q)) :
    Matches R (Act.player >>= f) (Act.player >>= g) := fun _ _ h => hf _ _ h

end Matches

/-! ## Likenesses -/

/-- Visits of one setting that show the same, and still do after whatever a call does to both. -/
structure Likeness (s : Setting) (R : Visit → Visit → Prop) : Prop where
  house {v w} : R v w → w.ledger.house = v.ledger.house
  purse {v w} : R v w → w.purse = v.purse
  held {v w} : R v w → s.held w = s.held v
  withLog {v w} (log log' : List LogLine) : R v w → R (v.withLog log) (w.withLog log')
  withPurse {v w} (purse : Int64) : R v w → R (v.withPurse purse) (w.withPurse purse)
  rebind {v w} (house : String) : R v w → R (v.rebind house) (w.rebind house)
  consulted {v w held} (log log' : List LogLine) :
    R v w → s.held v = .ok held → R (v.consulted held log) (w.consulted held log')
  created {v w} : R v w → s.held v = .ok none →
    (∃ e, s.created v = .error e ∧ s.created w = .error e) ∨
      ∃ r store store', s.created v = .ok (r, store) ∧ s.created w = .ok (r, store') ∧ ∀ log log',
        R (v.copied store .empty log) (w.copied store' .empty log') ∧
          R ((v.consulted none log).withStore store) ((w.consulted none log').withStore store')
  wrote {v w} (h : Holdings) : R v w →
    ∃ stop store store', s.wrote v.store v.ledger.player h = (stop, store) ∧
      s.wrote w.store w.ledger.player h = (stop, store') ∧ R (v.copied store h v.log) (w.copied store' h w.log)

namespace Likeness

variable {s : Setting} {R : Visit → Visit → Prop} (L : Likeness s R)

include L

/-! ### The parts of a call -/

theorem askHouse : Respects R Act.house := by
  intro v w h
  rw [Act.house_apply, Act.house_apply, L.house h]
  exact .ok h

/-- The log may tell them apart. -/
theorem note (level : Level) (text text' : String) : Matches R (Act.note level text) (Act.note level text') := by
  intro v w h
  rw [Act.note_apply, Act.note_apply]
  exact .ok (L.withLog _ _ h)

theorem terms : Respects R s.terms :=
  .bind L.askHouse fun house => by
    cases s.catalog.find? house with
    | some h => exact .pure h
    | none => exact .throw _

theorem consult : Respects R (Ledger.consult s) := by
  intro v w h
  cases hv : s.held v with
  | error f =>
    rw [Ledger.consult_error hv, Ledger.consult_error ((L.held h).trans hv)]
    exact .error h
  | ok held =>
    obtain ⟨log, hc⟩ := Ledger.consult_ok hv
    obtain ⟨log', hc'⟩ := Ledger.consult_ok ((L.held h).trans hv)
    rw [hc, hc']
    exact .ok (L.consulted log log' h hv)

theorem enrol : Respects R (Ledger.enrol s) := by
  intro v w h
  have hheld := L.held h
  cases hv : s.held v with
  | error f =>
    rw [Ledger.enrol_unread hv, Ledger.enrol_unread (hheld.trans hv)]
    exact .error h
  | ok held =>
    rw [hv] at hheld
    cases held with
    | some k =>
      obtain ⟨log, he⟩ := Ledger.enrol_ok (s.enrolled_of_held hv)
      obtain ⟨log', he'⟩ := Ledger.enrol_ok (s.enrolled_of_held hheld)
      rw [he, he']
      exact .ok (L.consulted log log' h hv)
    | none =>
      rcases L.created h hv with ⟨e, hc, hc'⟩ | ⟨r, store, store', hc, hc', hR⟩
      · obtain ⟨log, he⟩ := Ledger.enrol_uncreated hv hc
        obtain ⟨log', he'⟩ := Ledger.enrol_uncreated hheld hc'
        rw [he, he']
        exact .error (L.consulted log log' h hv)
      · cases hflush : s.outage.createFlush with
        | none =>
          obtain ⟨log, he⟩ := Ledger.enrol_ok (s.enrolled_of_created hv hc hflush)
          obtain ⟨log', he'⟩ := Ledger.enrol_ok (s.enrolled_of_created hheld hc' hflush)
          rw [he, he']
          exact .ok (hR log log').1
        | some reason =>
          obtain ⟨log, he⟩ := Ledger.enrol_stranded hv hc hflush
          obtain ⟨log', he'⟩ := Ledger.enrol_stranded hheld hc' hflush
          rw [he, he']
          exact .error (hR log log').2

theorem commit (held : Holdings) : Respects R (Ledger.commit s held) := by
  intro v w h
  obtain ⟨stop, store, store', hv, hw, hR⟩ := L.wrote held h
  rw [Ledger.commit_apply, Ledger.commit_apply, hv, hw]
  cases stop with
  | none => exact .ok hR
  | some e => exact .error hR

theorem pay (amount : Int64) : Respects R (Trade.pay amount) := by
  intro v w h
  rw [Trade.pay_apply, Trade.pay_apply, L.purse h]
  cases Purse.pay? v.purse amount with
  | some purse => exact .ok (L.withPurse purse h)
  | none => exact .ok h

theorem refund (amount : Int64) : Respects R (Trade.refund amount) := by
  intro v w h
  simp only [Trade.refund, Act.bind_apply, Act.get_apply, Act.ofOverflow_apply, L.purse h]
  cases Purse.refund v.purse amount with
  | ok purse => exact .ok (L.withPurse purse h)
  | error op => exact .error h

theorem orRefund {α : Type} {act : Act α} (cost : Int64) (hact : Respects R act) :
    Respects R (Trade.orRefund cost act) :=
  .tryCatch hact fun e => by
    cases e with
    | fault f => exact .bind (L.note _ _ _) fun _ => .bind (L.refund cost) fun _ => .throw _
    | overflow op => exact .throw _
    | noTime => exact .throw _

/-! ### Questions -/

theorem paidUntil : Respects R (Ledger.paidUntil s) :=
  .bind L.consult fun _ => .bind L.askHouse fun _ => .pure _

theorem hasHouse : Respects R (Ledger.hasHouse s) := .map _ L.paidUntil

theorem isFeeExpired : Respects R (Ledger.isFeeExpired s) :=
  .bind (.ofClock s.now) fun _ => .map _ L.paidUntil

theorem secondsRemaining : Respects R (Ledger.secondsRemaining s) :=
  .bind (.ofClock s.now) fun _ => .bind L.paidUntil fun t => by
    cases t with
    | some t => exact .bind (.ofOverflow _) fun _ => .pure _
    | none => exact .pure none

theorem expiryLabel : Respects R (Ledger.expiryLabel s) :=
  .bind L.paidUntil fun t => by
    cases t with
    | none => exact .pure none
    | some t =>
      cases h : HouseLease.expiryLabel t with
      | some label => simpa only [h] using .pure (some label)
      | none => simpa only [h] using .throw (.fault (.timestampOutOfRange t))

theorem feeForDays (days : UInt32) : Respects R (Ledger.feeForDays s days) :=
  .bind L.terms fun _ => .ofOverflow _

/-! ### Changes -/

theorem purchase : Respects R (Ledger.purchase s) := by
  refine .bind L.terms fun terms => .bind L.enrol fun held => .bindPlayer fun _ _ =>
    .bind L.askHouse fun house => ?_
  by_cases hown : held.owns house = true
  · simp only [hown, if_true]
    exact .bind (L.note _ _ _) fun _ => .pure _
  · simp only [hown]
    exact .bind (.ofClock s.now) fun _ => .bind (.ofOverflow _) fun _ => .bind (L.commit _) fun _ =>
      .bind (L.note _ _ _) fun _ => .pure _

theorem payFees (days : UInt32) : Respects R (Ledger.payFees s days) := by
  refine .bind L.consult fun held => .bindPlayer fun _ _ => .bind L.askHouse fun house => ?_
  cases held with
  | none => exact .bind (L.note _ _ _) fun _ => .pure _
  | some h =>
    simp only [Option.bind_some]
    cases h.paidUntil? house with
    | none => exact .bind (L.note _ _ _) fun _ => .pure _
    | some t => exact .bind (.ofOverflow _) fun _ => .bind (L.commit _) fun _ => .bind (L.note _ _ _) fun _ => .pure _

theorem setLastHouse (value : String) : Respects R (Ledger.setLastHouse s value) := by
  refine .bind L.consult fun held => ?_
  cases held with
  | some h => exact .bind (L.commit _) fun _ => .pure _
  | none => exact .bindPlayer fun _ _ => .bind (L.note _ _ _) fun _ => .pure _

theorem rebound (house : String) : Respects R (Ledger.bind house) := by
  intro v w h
  rw [Ledger.bind_apply, Ledger.bind_apply]
  exact .ok (L.rebind house h)

theorem depart : Respects R (Hub.depart s) :=
  .bind L.askHouse fun house => .bind (L.setLastHouse house) fun _ => .pure _

theorem goBack : Respects R (Hub.goBack s) := by
  refine .bind (.bind L.consult fun _ => .pure _) fun last => ?_
  cases last with
  | none => exact .pure none
  | some last =>
    cases hlast : s.catalog.find? last with
    | none =>
      simp only [hlast]
      exact .bindPlayer fun _ _ => .bind (L.note _ _ _) fun _ => .pure _
    | some terms =>
      simp only [hlast]
      refine .bind L.askHouse fun previous => .bind (L.rebound last) fun _ => .bind L.hasHouse fun owned => ?_
      cases owned with
      | true => exact .pure _
      | false => exact .bind (L.rebound previous) fun _ => .pure _

theorem checkExitFees : Respects R (Trade.checkExitFees s) := by
  refine .bind L.isFeeExpired fun expired => ?_
  match expired with
  | none => exact .pure _
  | some false => exact .pure _
  | some true =>
    refine .bind (L.feeForDays 1) fun cost => .bindPlayer fun _ _ => .bind L.askHouse fun house =>
      .bind (L.pay cost) fun paid => ?_
    cases paid with
    | true => exact .bind (L.orRefund cost (L.payFees 1)) fun _ => .bind (L.note _ _ _) fun _ => .pure _
    | false => exact .bind L.terms fun _ => .bind (L.note _ _ _) fun _ => .pure _

theorem buyHouse : Respects R (Trade.buyHouse s) := by
  refine .bind L.terms fun terms => .bind L.hasHouse fun owned => ?_
  cases owned with
  | true => exact .pure _
  | false =>
    refine .bind (L.pay terms.purchaseCost) fun paid => ?_
    cases paid with
    | false => exact .pure _
    | true =>
      refine .bind (L.orRefund _ L.purchase) fun _ => .bind L.paidUntil fun t => ?_
      cases t with
      | some t => exact .pure _
      | none => exact .bind L.askHouse fun _ => .throw _

theorem prepayFees (requested : UInt32) : Respects R (Trade.prepayFees s requested) := by
  refine .bind L.terms fun terms => .bind L.secondsRemaining fun remaining => ?_
  cases remaining with
  | none => exact .pure _
  | some remaining =>
    by_cases hdays : min requested (Trade.daysAllowed terms.maxPrepaidDays remaining) = 0
    · simp only [hdays, if_true]
      exact .pure _
    · simp only [hdays, if_false]
      refine .bind (L.feeForDays _) fun cost => .bind (L.pay cost) fun paid => ?_
      cases paid with
      | false => exact .pure _
      | true => exact .bind (L.orRefund cost (L.payFees _)) fun _ => .pure _

/-- Alike visits answer every call alike, and stay alike. Only asked for its player a ledger has to name it. -/
theorem run (c : Call) (hplayer : c = .player → ∀ v w, R v w → w.ledger.player = v.ledger.player) :
    Respects R (c.run s) := by
  cases c with
  | player =>
    intro v w h
    rw [Call.run, Act.map_apply, Act.map_apply, Act.player_apply, Act.player_apply, hplayer rfl v w h]
    exact .ok h
  | house => exact .map _ L.askHouse
  | bind house => exact .bind (L.rebound house) fun _ => .map _ L.askHouse
  | terms => exact .map _ L.terms
  | hasHouse => exact .map _ L.hasHouse
  | isFeeExpired => exact .map _ L.isFeeExpired
  | paidUntil => exact .map _ L.paidUntil
  | secondsRemaining => exact .map _ L.secondsRemaining
  | daysRemaining => exact .map _ (.map _ L.secondsRemaining)
  | expiryLabel => exact .map _ L.expiryLabel
  | leases => exact .map _ (.map _ L.consult)
  | lastHouse => exact .map _ (.map _ L.consult)
  | feeForDays days => exact .map _ (L.feeForDays days)
  | purchase => exact .map _ L.purchase
  | payFees days => exact .map _ (L.payFees days)
  | setLastHouse value => exact .map _ (L.setLastHouse value)
  | depart => exact .map _ L.depart
  | goBack => exact .map _ L.goBack
  | leave => exact .map _ (.map _ L.terms)
  | checkExitFees => exact .map _ L.checkExitFees
  | buyHouse => exact .map _ L.buyHouse
  | prepayFees days => exact .map _ (L.prepayFees days)

end Likeness

/-! ## Visits that show the same -/

/-- The ledgers show the same, if from different copies; log apart all else is equal. -/
structure Shows (v w : Visit) : Prop where
  store : w.store = v.store
  player : w.ledger.player = v.ledger.player
  house : w.ledger.house = v.ledger.house
  purse : w.purse = v.purse
  held : w.held = v.held

namespace Shows

theorem of_looked {s : Setting} {v w : Visit} (h : Looked s v w) : Shows v w :=
  ⟨h.store, h.player, h.house, h.purse, h.held_eq⟩

/-- What a ledger shows is all a call can tell, once the store can be read. -/
theorem likeness {s : Setting} (hget : s.outage.get = false) : Likeness s Shows where
  house h := h.house
  purse h := h.purse
  held h := by
    simpa [Setting.held, hget] using h.held
  withLog _ _ h := ⟨h.store, h.player, h.house, h.purse, h.held⟩
  withPurse purse h := ⟨h.store, h.player, h.house, rfl, h.held⟩
  rebind house h := ⟨h.store, h.player, rfl, h.purse, h.held⟩
  consulted {_ _ held} _ _ h _ := ⟨h.store, h.player, h.house, h.purse, by cases held <;> rfl⟩
  created := by
    intro v w h _
    have heq : s.created w = s.created v := by simp only [Setting.created, h.store, h.player]
    cases hv : s.created v with
    | error e => exact Or.inl ⟨e, rfl, heq.trans hv⟩
    | ok p =>
      exact Or.inr ⟨p.1, p.2, p.2, rfl, heq.trans hv, fun log log' =>
        ⟨⟨rfl, h.player, h.house, h.purse, rfl⟩, ⟨rfl, h.player, h.house, h.purse, rfl⟩⟩⟩
  wrote := by
    intro v w held h
    rcases hv : s.wrote v.store v.ledger.player held with ⟨stop, store⟩
    have hw : s.wrote w.store w.ledger.player held = (stop, store) := by rw [h.store, h.player, hv]
    exact ⟨stop, store, store, rfl, hw, rfl, h.player, h.house, h.purse, rfl⟩

end Shows

/-! ## Runs -/

namespace Shows

theorem made {s : Setting} (hget : s.outage.get = false) (c : Call) {v w : Visit} (h : Shows v w) :
    (c.made s w).1 = (c.made s v).1 ∧ Shows (c.made s v).2 (c.made s w).2 := by
  have hr := (likeness hget).run c (fun _ _ _ h => h.player) h
  unfold Call.made
  generalize c.run s v = r at hr
  generalize c.run s w = r' at hr
  cases hr with
  | ok h' => exact ⟨by simp [h'.purse, h'.house], h'⟩
  | error h' => exact ⟨by simp [h'.purse, h'.house], h'⟩

theorem calls {calls : List (Setting × Call)} (hget : ∀ p ∈ calls, p.1.outage.get = false) {v w : Visit}
    (h : Shows v w) : (w.calls calls).1 = (v.calls calls).1 ∧ Shows (v.calls calls).2 (w.calls calls).2 := by
  induction calls generalizing v w with
  | nil => exact ⟨rfl, h⟩
  | cons p rest ih =>
    obtain ⟨hshown, h'⟩ := h.made (hget p (by simp)) p.2
    obtain ⟨hmore, hend⟩ := ih (fun q hq => hget q (by simp [hq])) h'
    exact ⟨List.cons_eq_cons.mpr ⟨hshown, hmore⟩, hend⟩

end Shows

end HouseLease
