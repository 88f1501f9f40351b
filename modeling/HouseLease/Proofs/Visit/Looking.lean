/-
  HouseLease.Proofs.Visit.Looking — calls that only look.

  `Visit.held` is what a ledger takes its player to hold: what its copy says, or what the
  store says to a ledger without one. To look (`Looked`) changes at most the copy, to what
  the ledger would have shown anyway. Every question only looks, whether it is answered or
  stops (`looks_paidUntil` and those built on it).
-/

import HouseLease.Proofs.Record.Rewriting
import HouseLease.Visit.World

namespace HouseLease

/-! ## One call after the other -/

namespace Act

variable {α β : Type}

@[simp]
theorem bind_apply (x : Act α) (f : α → Act β) (v : Visit) :
    (x >>= f) v = match x v with
      | .ok a w => f a w
      | .error e w => .error e w := by
  cases h : x v <;> simp [bind, EStateM.bind, h]

@[simp]
theorem map_apply (g : α → β) (x : Act α) (v : Visit) :
    (g <$> x) v = match x v with
      | .ok a w => .ok (g a) w
      | .error e w => .error e w := by
  cases h : x v <;> simp [Functor.map, EStateM.map, h]

theorem map_eq_ok {x : Act α} {g : α → β} {b : β} {v w : Visit} :
    (g <$> x) v = .ok b w ↔ ∃ a, x v = .ok a w ∧ g a = b := by
  rw [map_apply]
  cases x v with
  | error e u => simp
  | ok a u =>
    constructor
    · intro h
      cases h
      exact ⟨a, rfl, rfl⟩
    · rintro ⟨a, h, rfl⟩
      cases h
      rfl

theorem map_eq_error {x : Act α} {g : α → β} {v w : Visit} {e : Stop} :
    (g <$> x) v = .error e w ↔ x v = .error e w := by
  rw [map_apply]
  cases x v <;> simp

@[simp]
theorem pure_apply (a : α) (v : Visit) : (pure a : Act α) v = .ok a v := rfl

@[simp]
theorem throw_apply (e : Stop) (v : Visit) : (throw e : Act α) v = .error e v := rfl

@[simp]
theorem tryCatch_apply (x : Act α) (f : Stop → Act α) (v : Visit) :
    (tryCatch x f : Act α) v = match x v with
      | .ok a w => .ok a w
      | .error e w => f e w := by
  change EStateM.tryCatch x f v = _
  delta EStateM.tryCatch
  cases x v <;> rfl

@[simp]
theorem get_apply (v : Visit) : (get : Act Visit) v = .ok v v := rfl

@[simp]
theorem set_apply (v w : Visit) : (set w : Act Unit) v = .ok () w := rfl

@[simp]
theorem modify_apply (g : Visit → Visit) (v : Visit) : (modify g : Act Unit) v = .ok () (g v) := rfl

@[simp]
theorem player_apply (v : Visit) : player v = .ok v.ledger.player v := rfl

@[simp]
theorem house_apply (v : Visit) : house v = .ok v.ledger.house v := rfl

@[simp]
theorem keep_apply (copy : Copy) (v : Visit) : keep copy v = .ok () { v with ledger := { v.ledger with copy } } := rfl

@[simp]
theorem note_apply (level : Level) (text : String) (v : Visit) :
    note level text v = .ok () { v with log := v.log ++ [⟨level, text⟩] } := rfl

@[simp]
theorem ofFault_apply (r : Except Fault α) (v : Visit) :
    ofFault r v = match r with
      | .ok a => .ok a v
      | .error f => .error (.fault f) v := by
  cases r <;> rfl

@[simp]
theorem flushed_apply (flush : Option String) (v : Visit) :
    flushed flush v = match flush with
      | none => .ok () v
      | some reason => .error (.fault (.storeUnflushed reason)) v := by
  cases flush <;> rfl

@[simp]
theorem ofClock_apply (clock : Option α) (v : Visit) :
    ofClock clock v = match clock with
      | some a => .ok a v
      | none => .error .noTime v := by
  cases clock <;> rfl

@[simp]
theorem ofOverflow_apply (r : Except Overflow α) (v : Visit) :
    ofOverflow r v = match r with
      | .ok a => .ok a v
      | .error op => .error (.overflow op) v := by
  cases r <;> rfl

end Act

theorem Setting.terms_apply (s : Setting) (v : Visit) :
    s.terms v = match s.catalog.find? v.ledger.house with
      | some h => .ok h v
      | none => .error (.fault (.unknownHouse v.ledger.house)) v := by
  rw [terms, Act.bind_apply, Act.house_apply]
  simp only
  cases s.catalog.find? v.ledger.house <;> rfl

/-! ## What a ledger shows -/

/-- What the ledger takes its player to hold, as long as the store answers. -/
def Visit.held (v : Visit) : Except Fault (Option Holdings) :=
  match v.ledger.copy with
  | .present h => .ok (some h)
  | .absent => .ok none
  | .unread => v.store.holdings v.ledger.player

/-- The same in a setting, where the store may not answer a ledger without a copy. -/
def Setting.held (s : Setting) (v : Visit) : Except Fault (Option Holdings) :=
  if s.outage.get ∧ v.ledger.copy = .unread then .error .storeOffline else v.held

def Copy.of : Option Holdings → Copy
  | some h => .present h
  | none => .absent

theorem Setting.held_eq {s : Setting} {v : Visit} {held : Option Holdings} (h : s.held v = .ok held) :
    v.held = .ok held := by
  unfold Setting.held at h
  split at h
  · cases h
  · exact h

theorem Setting.held_of_copy (s : Setting) {v : Visit} {held : Option Holdings} (h : v.ledger.copy = .of held) :
    s.held v = .ok held := by
  cases held <;> simp [Setting.held, Visit.held, h, Copy.of]

/-- A ledger without a copy shows what the store says. -/
theorem Setting.held_new {s : Setting} {v : Visit} {held : Option Holdings} (hget : s.outage.get = false)
    (hcopy : v.ledger.copy = .unread) (h : v.store.holdings v.ledger.player = .ok held) : s.held v = .ok held := by
  simp [Setting.held, Visit.held, hget, hcopy, h]

/-- The visit once the ledger has its copy. -/
def Visit.consulted (v : Visit) (held : Option Holdings) (log : List LogLine) : Visit :=
  { v with ledger := { v.ledger with copy := .of held }, log }

section

variable (v : Visit) (held : Option Holdings) (log : List LogLine)

@[simp] theorem Visit.consulted_store : (v.consulted held log).store = v.store := rfl
@[simp] theorem Visit.consulted_purse : (v.consulted held log).purse = v.purse := rfl
@[simp] theorem Visit.consulted_player : (v.consulted held log).ledger.player = v.ledger.player := rfl
@[simp] theorem Visit.consulted_house : (v.consulted held log).ledger.house = v.ledger.house := rfl

end

namespace Ledger

variable {s : Setting} {v : Visit}

theorem consult_apply (s : Setting) (v : Visit) :
    ∃ log, consult s v = match s.held v with
      | .ok held => .ok held (v.consulted held log)
      | .error f => .error (.fault f) v := by
  obtain ⟨store, ⟨player, house, copy⟩, purse, log⟩ := v
  cases copy with
  | absent => exact ⟨log, by simp [consult, Setting.held, Visit.held, Visit.consulted, Copy.of]⟩
  | present h => exact ⟨log, by simp [consult, Setting.held, Visit.held, Visit.consulted, Copy.of]⟩
  | unread =>
    unfold consult Setting.fetch Setting.held Visit.held Store.holdings
    cases hg : s.outage.get
    · cases hf : store.fetch player houseTag with
      | error f => exact ⟨log, by simp [hf]⟩
      | ok r =>
        cases r with
        | none =>
          refine ⟨log ++ [⟨.debug, "no " ++ houseTag ++ " record for " ++ player⟩], ?_⟩
          simp [hf, Visit.consulted, Copy.of]
        | some r =>
          cases hr : Holdings.ofRecord r with
          | error f => exact ⟨log, by simp [hf, hr, Except.map]⟩
          | ok h =>
            refine ⟨log ++ [⟨.debug, "loaded " ++ Text.numeral h.leases.length ++ " houses for " ++ player⟩], ?_⟩
            simp [hf, hr, Visit.consulted, Copy.of, Except.map]
    · exact ⟨log, by simp⟩

theorem consult_ok {held : Option Holdings} (h : s.held v = .ok held) :
    ∃ log, consult s v = .ok held (v.consulted held log) := by
  obtain ⟨log, hc⟩ := consult_apply s v
  exact ⟨log, by rw [hc, h]⟩

theorem consult_error {f : Fault} (h : s.held v = .error f) : consult s v = .error (.fault f) v := by
  obtain ⟨log, hc⟩ := consult_apply s v
  rw [hc, h]

theorem paidUntil_ok {held : Option Holdings} (h : s.held v = .ok held) :
    ∃ log, paidUntil s v = .ok (held.bind (·.paidUntil? v.ledger.house)) (v.consulted held log) := by
  obtain ⟨log, hc⟩ := consult_ok h
  exact ⟨log, by simp [paidUntil, hc]⟩

theorem paidUntil_error {f : Fault} (h : s.held v = .error f) : paidUntil s v = .error (.fault f) v := by
  simp [paidUntil, consult_error h]

theorem leases_ok {held : Option Holdings} (h : s.held v = .ok held) :
    ∃ log, leases s v = .ok ((held.map (·.leases)).getD []) (v.consulted held log) := by
  obtain ⟨log, hc⟩ := consult_ok h
  exact ⟨log, by simp [leases, hc]⟩

theorem lastHouse_ok {held : Option Holdings} (h : s.held v = .ok held) :
    ∃ log, lastHouse s v = .ok (held.bind (·.lastHouse)) (v.consulted held log) := by
  obtain ⟨log, hc⟩ := consult_ok h
  exact ⟨log, by simp [lastHouse, hc]⟩

theorem lastHouse_error {f : Fault} (h : s.held v = .error f) : lastHouse s v = .error (.fault f) v := by
  simp [lastHouse, consult_error h]

end Ledger

/-! ## Looking -/

/-- `w` is `v` after a look: at most the copy is new, and it says what the ledger showed before. -/
structure Looked (s : Setting) (v w : Visit) : Prop where
  store : w.store = v.store
  purse : w.purse = v.purse
  player : w.ledger.player = v.ledger.player
  house : w.ledger.house = v.ledger.house
  copy : w.ledger.copy = v.ledger.copy ∨ ∃ held, s.held v = .ok held ∧ w.ledger.copy = .of held

namespace Looked

variable {s : Setting} {u v w : Visit}

theorem refl (s : Setting) (v : Visit) : Looked s v v := ⟨rfl, rfl, rfl, rfl, Or.inl rfl⟩

theorem log (h : Looked s v w) (log : List LogLine) : Looked s v { w with log } :=
  ⟨h.store, h.purse, h.player, h.house, h.copy⟩

theorem consulted {held : Option Holdings} (h : s.held v = .ok held) (log : List LogLine) :
    Looked s v (v.consulted held log) :=
  ⟨rfl, rfl, rfl, rfl, Or.inr ⟨held, h, rfl⟩⟩

theorem held (h : Looked s v w) : s.held w = s.held v := by
  rcases h.copy with hc | ⟨held, hv, hc⟩
  · simp only [Setting.held, Visit.held, hc, h.store, h.player]
  · rw [s.held_of_copy hc, hv]

/-- A look does not change what the ledger shows. -/
theorem held_eq (h : Looked s v w) : w.held = v.held := by
  rcases h.copy with hc | ⟨held, hv, hc⟩
  · simp only [Visit.held, hc, h.store, h.player]
  · rw [Setting.held_eq (s.held_of_copy hc), Setting.held_eq hv]

theorem trans (h : Looked s u v) (h' : Looked s v w) : Looked s u w := by
  refine ⟨h'.store.trans h.store, h'.purse.trans h.purse, h'.player.trans h.player, h'.house.trans h.house, ?_⟩
  rcases h'.copy with hc | ⟨held, hv, hc⟩
  · rw [hc]
    exact h.copy
  · exact Or.inr ⟨held, h.held ▸ hv, hc⟩

end Looked

/-- The stops a call can meet; one for want of time only where a clock shows none. -/
inductive Setting.Stops (s : Setting) : Stop → Prop
  | fault (f : Fault) : s.Stops (.fault f)
  | overflow (op : Overflow) : s.Stops (.overflow op)
  | untimed : s.now = none ∨ s.wall = none → s.Stops .noTime

/-- The call only looked, and answered or stopped. -/
inductive Looks {α : Type} (s : Setting) (v : Visit) : EStateM.Result Stop Visit α → Prop
  | ok {a : α} {w : Visit} : Looked s v w → Looks s v (.ok a w)
  | error {e : Stop} {w : Visit} : s.Stops e → Looked s v w → Looks s v (.error e w)

namespace Looks

variable {α β : Type} {s : Setting} {v : Visit}

theorem bind {x : Act α} {f : α → Act β} (hx : Looks s v (x v)) (hf : ∀ a w, Looked s v w → Looks s w (f a w)) :
    Looks s v ((x >>= f) v) := by
  rw [Act.bind_apply]
  generalize x v = r at hx
  cases hx with
  | error he h => exact .error he h
  | ok h =>
    rename_i a w
    simp only
    have hr := hf a w h
    generalize f a w = r at hr
    cases hr with
    | ok h' => exact .ok (h.trans h')
    | error he h' => exact .error he (h.trans h')

theorem map {x : Act α} (g : α → β) (hx : Looks s v (x v)) : Looks s v ((g <$> x) v) := by
  rw [Act.map_apply]
  generalize x v = r at hx
  cases hx with
  | ok h => exact .ok h
  | error he h => exact .error he h

theorem pure (a : α) : Looks s v ((Pure.pure a : Act α) v) := .ok (.refl s v)

theorem throw (f : Fault) : Looks s v ((MonadExcept.throw (.fault f) : Act α) v) := .error (.fault f) (.refl s v)

theorem now : Looks s v (Act.ofClock s.now v) := by
  rw [Act.ofClock_apply]
  cases hnow : s.now with
  | some now => exact .ok (.refl s v)
  | none => exact .error (.untimed (Or.inl hnow)) (.refl s v)

theorem ofOverflow (r : Except Overflow α) : Looks s v (Act.ofOverflow r v) := by
  cases r with
  | ok a => exact .ok (.refl s v)
  | error op => exact .error (.overflow op) (.refl s v)

theorem terms : Looks s v (s.terms v) := by
  rw [Setting.terms_apply]
  split
  · exact .ok (.refl s v)
  · exact .error (.fault _) (.refl s v)

theorem consult : Looks s v (Ledger.consult s v) := by
  cases h : s.held v with
  | ok held =>
    obtain ⟨log, hc⟩ := Ledger.consult_ok h
    exact hc ▸ .ok (.consulted h log)
  | error f => exact Ledger.consult_error h ▸ .error (.fault f) (.refl s v)

theorem paidUntil : Looks s v (Ledger.paidUntil s v) :=
  bind consult fun _ w _ => bind (.ok (.refl s w)) fun _ _ _ => pure _

theorem secondsRemaining : Looks s v (Ledger.secondsRemaining s v) := by
  refine bind now fun now w _ => bind paidUntil fun t w _ => ?_
  cases t with
  | some t => exact bind (ofOverflow _) fun _ _ _ => pure _
  | none => exact pure none

theorem expiryLabel : Looks s v (Ledger.expiryLabel s v) := by
  refine bind paidUntil fun t w _ => ?_
  cases t with
  | none => exact pure none
  | some t =>
    cases h : HouseLease.expiryLabel t with
    | some label => simpa only [h] using pure (some label)
    | none => simpa only [h] using throw (.timestampOutOfRange t)

end Looks

/-! ## What is left of the store -/

/-- The state that is left, however it ended. -/
def leftBy {ε σ α : Type} : EStateM.Result ε σ α → σ
  | .ok _ left => left
  | .error _ left => left

/-- The store stays as it is, whatever comes of the call. -/
def Act.Still {α : Type} (act : Act α) : Prop := ∀ v, (leftBy (act v)).store = v.store

theorem Looks.still {α : Type} {s : Setting} {act : Act α} (h : ∀ v, Looks s v (act v)) : act.Still := by
  intro v
  have hv := h v
  generalize act v = r at hv
  cases hv with
  | ok hlook | error _ hlook => exact hlook.store

/-! ## Questions -/

/-- The calls that ask and change nothing. -/
def Call.asks : Call → Bool
  | .player | .house | .terms | .hasHouse | .isFeeExpired | .paidUntil | .secondsRemaining | .daysRemaining
  | .expiryLabel | .leases | .lastHouse | .feeForDays _ | .leave => true
  | .bind _ | .purchase | .payFees _ | .setLastHouse _ | .depart | .goBack | .checkExitFees | .buyHouse
  | .prepayFees _ => false

theorem Call.looks_of_asks {c : Call} (h : c.asks = true) (s : Setting) (v : Visit) : Looks s v (c.run s v) := by
  cases c with
  | player | house => exact .map _ (.ok (.refl s v))
  | terms => exact .map _ .terms
  | hasHouse => exact .map _ (.map _ .paidUntil)
  | isFeeExpired => exact .map _ (.bind .now fun _ _ _ => .map _ .paidUntil)
  | paidUntil => exact .map _ .paidUntil
  | secondsRemaining => exact .map _ .secondsRemaining
  | daysRemaining => exact .map _ (.map _ .secondsRemaining)
  | expiryLabel => exact .map _ .expiryLabel
  | leases => exact .map _ (.map _ .consult)
  | lastHouse => exact .map _ (.map _ .consult)
  | feeForDays days => exact .map _ (.bind .terms fun _ _ _ => .ofOverflow _)
  | leave => exact .map _ (.map _ .terms)
  | bind _ | purchase | payFees _ | setLastHouse _ | depart | goBack | checkExitFees | buyHouse
  | prepayFees _ => cases h

end HouseLease
