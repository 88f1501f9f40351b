/-
  HouseLease.Proofs.Visit.Refusals — calls on a record that cannot be loaded.

  Stored bytes fail to load in three ways (`Unloadable`): they are no record, a record of another
  version, or one whose house list is no list of leases. A ledger without a copy then gets nothing but
  that fault, or the store's (`Setting.held_of_unloadable`). It never takes the record for a missing
  one: a call that needs it is refused with everything as it was (`Call.refused`). The other calls look at
  the catalog or at the ledger, and leave the ledger without a copy (`Call.spared`).
-/

import HouseLease.Proofs.Visit.Runs

namespace HouseLease

open Text (Bytes)

/-! ## Bytes that do not load -/

/-- What is wrong with stored bytes. -/
inductive Unloadable (bytes : Bytes) : Fault → Prop
  | undecodable : Record.ofBytes? bytes = none → Unloadable bytes .recordUnreadable
  | version {r : Record} :
      Record.ofBytes? bytes = some r → r.version ≠ schemaVersion → Unloadable bytes (.schemaMismatch r.version)
  | houses {r : Record} :
      Record.ofBytes? bytes = some r → r.version = schemaVersion → HouseList.read? r.houses = none →
      Unloadable bytes .houseListUnreadable

theorem Unloadable.holdings {store : Store} {player : String} {bytes : Bytes} {f : Fault} (hf : Unloadable bytes f)
    (hb : store.find? (recordKey player houseTag) = some bytes) : store.holdings player = .error f := by
  unfold Store.holdings Store.fetch
  rw [hb]
  cases hf with
  | undecodable hr => simp [Store.judge, hr, Except.map]
  | version hr hv => simp [Store.judge, hr, hv, Except.map]
  | houses hr hv hl => simp [Store.judge, hr, hv, Holdings.ofRecord, hl, Except.map]

/-- There is no other way to fail. -/
theorem Unloadable.of_holdings {store : Store} {player : String} {f : Fault} (h : store.holdings player = .error f) :
    ∃ bytes, store.find? (recordKey player houseTag) = some bytes ∧ Unloadable bytes f := by
  unfold Store.holdings Store.fetch at h
  cases hfind : store.find? (recordKey player houseTag) with
  | none =>
    rw [hfind] at h
    cases h
  | some bytes =>
    refine ⟨bytes, rfl, ?_⟩
    simp only [hfind, Store.judge] at h
    cases hread : Record.ofBytes? bytes with
    | none =>
      simp only [hread] at h
      cases h
      exact .undecodable hread
    | some r =>
      simp only [hread] at h
      by_cases hversion : r.version = schemaVersion
      · simp only [if_pos hversion, Except.map, Holdings.ofRecord] at h
        cases hlist : HouseList.read? r.houses with
        | some leases =>
          rw [hlist] at h
          cases h
        | none =>
          rw [hlist] at h
          cases h
          exact .houses hread hversion hlist
      · simp only [if_neg hversion] at h
        cases h
        exact .version hread hversion

/-- A ledger gets its copy unless the store does not answer or what it has does not load. -/
theorem Setting.held_error {s : Setting} {v : Visit} {f : Fault} (h : s.held v = .error f) :
    f = .storeOffline ∨ ∃ bytes, Unloadable bytes f := by
  unfold Setting.held at h
  split at h
  · cases h
    exact Or.inl rfl
  · unfold Visit.held at h
    split at h
    · cases h
    · cases h
    · obtain ⟨bytes, -, hf⟩ := Unloadable.of_holdings h
      exact Or.inr ⟨bytes, hf⟩

/-- What a ledger gets for a record with this fault: the fault, or the store's own. -/
def Setting.obstacle (s : Setting) (f : Fault) : Fault := if s.outage.get then .storeOffline else f

section

variable {s : Setting} {v : Visit} {f : Fault} {c : Call}

theorem Setting.held_of_unloadable {bytes : Bytes} (hf : Unloadable bytes f)
    (hb : v.store.find? (recordKey v.ledger.player houseTag) = some bytes) (hcopy : v.ledger.copy = .unread) :
    s.held v = .error (s.obstacle f) := by
  unfold Setting.held Setting.obstacle Visit.held
  rw [hcopy]
  by_cases hget : s.outage.get = true
  · simp [hget]
  · simp [hget, hf.holdings hb]

end

/-! ## Refusals -/

/-- What a call that needs the record can end with when the record has the fault `f`. -/
inductive Setting.Refuses (s : Setting) (f : Fault) (house : String) : Stop → Prop
  | obstacle : s.Refuses f house (.fault (s.obstacle f))
  | unknownHouse : s.catalog.find? house = none → s.Refuses f house (.fault (.unknownHouse house))
  | untimed : s.now = none → s.Refuses f house .noTime

/-- `act` ends with one of these, and nothing has changed. -/
def Refused {α : Type} (s : Setting) (f : Fault) (act : Act α) (v : Visit) : Prop :=
  ∃ e, act v = .error e v ∧ s.Refuses f v.ledger.house e

namespace Refused

variable {α β : Type} {s : Setting} {v : Visit} {f : Fault}

theorem bind {x : Act α} {k : α → Act β} (hx : Refused s f x v) : Refused s f (x >>= k) v := by
  obtain ⟨e, hx, he⟩ := hx
  exact ⟨e, by rw [Act.bind_apply, hx], he⟩

theorem map {x : Act α} (g : α → β) (hx : Refused s f x v) : Refused s f (g <$> x) v := by
  obtain ⟨e, hx, he⟩ := hx
  exact ⟨e, Act.map_eq_error.mpr hx, he⟩

theorem of_map {x : Act α} {g : α → β} (h : Refused s f (g <$> x) v) : Refused s f x v := by
  obtain ⟨e, h, he⟩ := h
  exact ⟨e, Act.map_eq_error.mp h, he⟩

/-- The clock is read first. -/
theorem behind_clock {k : Int64 → Act β} (hk : ∀ now, Refused s f (k now) v) :
    Refused s f (Act.ofClock s.now >>= k) v := by
  cases hnow : s.now with
  | none => exact ⟨.noTime, by simp, .untimed hnow⟩
  | some now =>
    obtain ⟨e, hk, he⟩ := hk now
    exact ⟨e, by simpa using hk, he⟩

/-- The terms of the bound house are looked up first. -/
theorem behind_terms {k : House → Act β} (hk : ∀ terms, Refused s f (k terms) v) : Refused s f (s.terms >>= k) v := by
  cases hterms : s.catalog.find? v.ledger.house with
  | none => exact ⟨.fault (.unknownHouse v.ledger.house), by simp [Setting.terms_apply, hterms], .unknownHouse hterms⟩
  | some terms =>
    obtain ⟨e, hk, he⟩ := hk terms
    exact ⟨e, by simpa [Setting.terms_apply, hterms] using hk, he⟩

theorem behind_house {k : String → Act β} (hk : Refused s f (k v.ledger.house) v) : Refused s f (Act.house >>= k) v := by
  obtain ⟨e, hk, he⟩ := hk
  exact ⟨e, by simpa using hk, he⟩

variable (hh : s.held v = .error (s.obstacle f))

include hh

theorem consult : Refused s f (Ledger.consult s) v := ⟨_, Ledger.consult_error hh, .obstacle⟩

theorem paidUntil : Refused s f (Ledger.paidUntil s) v := (consult hh).bind

theorem secondsRemaining : Refused s f (Ledger.secondsRemaining s) v := .behind_clock fun _ => (paidUntil hh).bind

theorem isFeeExpired : Refused s f (Ledger.isFeeExpired s) v := .behind_clock fun _ => (paidUntil hh).bind

theorem setLastHouse (value : String) : Refused s f (Ledger.setLastHouse s value) v := (consult hh).bind

theorem purchase : Refused s f (Ledger.purchase s) v := .behind_terms fun _ => (consult hh).bind.bind

end Refused

/-! ## Calls -/

/-- The calls that need the player's record. -/
def Call.needsRecord : Call → Bool
  | .player | .house | .bind _ | .terms | .feeForDays _ | .leave => false
  | .hasHouse | .isFeeExpired | .paidUntil | .secondsRemaining | .daysRemaining | .expiryLabel | .leases | .lastHouse
  | .purchase | .payFees _ | .setLastHouse _ | .depart | .goBack | .checkExitFees | .buyHouse | .prepayFees _ => true

section

variable {s : Setting} {v : Visit} {f : Fault} {c : Call}

/-- A call that needs the record is refused before it pays, makes a record or writes. -/
theorem Call.refused (hh : s.held v = .error (s.obstacle f)) (hc : c.needsRecord = true) :
    Refused s f (c.run s) v := by
  cases c with
  | player | house | bind _ | terms | feeForDays _ | leave => cases hc
  | hasHouse => exact (Refused.paidUntil hh).bind.map _
  | isFeeExpired => exact (Refused.isFeeExpired hh).map _
  | paidUntil => exact (Refused.paidUntil hh).map _
  | secondsRemaining => exact (Refused.secondsRemaining hh).map _
  | daysRemaining => exact (Refused.secondsRemaining hh).bind.map _
  | expiryLabel => exact (Refused.paidUntil hh).bind.map _
  | leases => exact (Refused.consult hh).bind.map _
  | lastHouse => exact (Refused.consult hh).bind.map _
  | purchase => exact (Refused.purchase hh).map _
  | payFees days => exact (Refused.consult hh).bind.map _
  | setLastHouse value => exact (Refused.setLastHouse hh value).map _
  | depart => exact Refused.map _ (.behind_house (Refused.setLastHouse hh v.ledger.house).bind)
  | goBack => exact (Refused.consult hh).bind.bind.map _
  | checkExitFees => exact (Refused.isFeeExpired hh).bind.map _
  | buyHouse => exact Refused.map _ (.behind_terms fun _ => (Refused.paidUntil hh).bind.bind)
  | prepayFees days => exact Refused.map _ (.behind_terms fun _ => (Refused.secondsRemaining hh).bind)

/-- Store and purse are as they were, and the ledger is its player's with the copy it had. -/
structure Spared (v w : Visit) : Prop where
  store : w.store = v.store
  purse : w.purse = v.purse
  player : w.ledger.player = v.ledger.player
  copy : w.ledger.copy = v.ledger.copy

theorem Spared.refl (v : Visit) : Spared v v := ⟨rfl, rfl, rfl, rfl⟩

/-- A look finds nothing to copy. -/
theorem Looked.spared {w : Visit} {g : Fault} (hl : Looked s v w) (hh : s.held v = .error g) : Spared v w := by
  refine ⟨hl.store, hl.purse, hl.player, ?_⟩
  rcases hl.copy with hcopy | ⟨held, hheld, -⟩
  · exact hcopy
  · cases hh.symm.trans hheld

/-- No call does more than bind the ledger to another house. -/
theorem Call.spared (c : Call) (hh : s.held v = .error (s.obstacle f)) : Spared v (c.made s v).2 := by
  by_cases hc : c.needsRecord = true
  · obtain ⟨e, hrun, -⟩ := Call.refused hh hc
    simpa only [Call.made, hrun] using Spared.refl v
  · by_cases hasks : c.asks = true
    · have hlooks := Call.looks_of_asks hasks s v
      unfold Call.made
      generalize c.run s v = r at hlooks
      cases hlooks with
      | ok hl => exact hl.spared hh
      | error _ hl => exact hl.spared hh
    · cases c with
      | bind house => exact ⟨rfl, rfl, rfl, rfl⟩
      | player | house | terms | feeForDays _ | leave => exact absurd rfl hasks
      | hasHouse | isFeeExpired | paidUntil | secondsRemaining | daysRemaining | expiryLabel | leases | lastHouse
      | purchase | payFees _ | setLastHouse _ | depart | goBack | checkExitFees | buyHouse | prepayFees _ =>
        exact absurd rfl hc

end

end HouseLease
