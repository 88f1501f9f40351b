/-
  HouseLease.Proofs.Visit.Drafts — calls that change something.

  A change comes as far as a draft: holdings it is about to write, the store it writes them
  to (with a record newly made for a player who had none), what it has taken from the purse
  and what it will answer. `Drafts` gives the rules by which a call comes to its draft.
  `Drafts.run` says how it ends then: with the draft written, or with the draft left in the
  ledger's copy and, on a fault, the purse as it was.

  A write that fails has left the store alone, unless it is its flush that failed (`Setting.wrote`):
  then the draft is in the store, and the call meets its fault all the same.
-/

import HouseLease.Proofs.Visit.Looking

namespace HouseLease

/-! ## The purse -/

namespace Purse

theorem pay?_eq_some {balance amount rest : Int64} :
    pay? balance amount = some rest ↔ (0 ≤ amount ∧ amount ≤ balance) ∧ balance - amount = rest := by
  unfold pay?
  split
  · rename_i h
    simp only [reduceCtorEq, false_iff, not_and]
    intro ⟨h0, h1⟩
    rcases h with h | h
    · exact absurd h0 (Int64.not_le.mpr h)
    · exact absurd h1 (Int64.not_le.mpr h)
  · rename_i h
    rw [not_or, Int64.not_lt, Int64.not_lt] at h
    simp [h]

theorem toInt_pay? {balance amount rest : Int64} (h : pay? balance amount = some rest) :
    0 ≤ amount.toInt ∧ rest.toInt = balance.toInt - amount.toInt := by
  obtain ⟨⟨h0, h1⟩, rfl⟩ := pay?_eq_some.mp h
  exact ⟨Int64.le_iff_toInt_le.mp h0, Int64.toInt_sub_of_le _ _ h0 h1⟩

/-- A refund gives back just what was paid, and never overflows. -/
theorem refund_pay? {balance amount rest : Int64} (h : pay? balance amount = some rest) :
    refund rest amount = .ok balance := by
  obtain ⟨h0, hr⟩ := toInt_pay? h
  exact checked_eq_ok.mpr (by omega)

end Purse

def Visit.withPurse (v : Visit) (purse : Int64) : Visit := { v with purse }

def Visit.withLog (v : Visit) (log : List LogLine) : Visit := { v with log }

def Visit.withStore (v : Visit) (store : Store) : Visit := { v with store }

section

variable (v : Visit) (purse : Int64) (log : List LogLine)

@[simp] theorem Visit.withPurse_store : (v.withPurse purse).store = v.store := rfl
@[simp] theorem Visit.withPurse_ledger : (v.withPurse purse).ledger = v.ledger := rfl
@[simp] theorem Visit.withPurse_withPurse (p : Int64) : (v.withPurse p).withPurse purse = v.withPurse purse := rfl
@[simp] theorem Visit.withLog_withPurse : (v.withPurse purse).withLog log = (v.withLog log).withPurse purse := rfl
@[simp] theorem Setting.held_withPurse (s : Setting) : s.held (v.withPurse purse) = s.held v := rfl

@[simp] theorem Visit.consulted_withPurse (held : Option Holdings) :
    (v.withPurse purse).consulted held log = (v.consulted held log).withPurse purse := rfl

end

namespace Trade

open Act

theorem pay_apply (amount : Int64) (v : Visit) :
    pay amount v = match Purse.pay? v.purse amount with
      | some purse => .ok true (v.withPurse purse)
      | none => .ok false v := by
  cases h : Purse.pay? v.purse amount
  · simp [pay, h]
  · simp [pay, h]
    rfl

variable {α : Type} {act : Act α} {cost : Int64} {v w : Visit}

theorem orRefund_ok {a : α} (h : act v = .ok a w) : orRefund cost act v = .ok a w := by
  simp [orRefund, h]

theorem orRefund_fault {f : Fault} {purse : Int64} (h : act v = .error (.fault f) w)
    (hp : Purse.refund w.purse cost = .ok purse) :
    ∃ log, orRefund cost act v = .error (.fault f) ((w.withLog log).withPurse purse) := by
  refine ⟨w.log ++ [⟨.warn, "refunding " ++ Text.numeral cost.toInt ++ " after failed ledger write: "
    ++ f.message⟩], ?_⟩
  simp [orRefund, h, refund, hp]
  rfl

theorem orRefund_abort {e : Stop} (he : ∀ f, e ≠ .fault f) (h : act v = .error e w) :
    orRefund cost act v = .error e w := by
  cases e with
  | fault f => exact absurd rfl (he f)
  | overflow _ | noTime => simp [orRefund, h]

end Trade

/-! ## Writing -/

namespace Setting

/-- The store with `h` placed in it for `player`, or why it is not. -/
def written (s : Setting) (store : Store) (player : String) (h : Holdings) : Except Stop Store :=
  if s.outage.put then .error (.fault .storeOffline)
  else match s.wall with
    | none => .error .noTime
    | some wall => Stop.ofFault (store.write wall player houseTag (HouseList.write h.leases) h.lastHouse)

/-- Why a write of `h` fails, if it does, and the store it leaves. -/
def wrote (s : Setting) (store : Store) (player : String) (h : Holdings) : Option Stop × Store :=
  match s.written store player h with
  | .error e => (some e, store)
  | .ok store' => (s.outage.putFlush.map fun reason => .fault (.storeUnflushed reason), store')

/-- The store with a new record for the player, or why there is none. -/
def created (s : Setting) (v : Visit) : Except Stop (Record × Store) :=
  if s.outage.create then .error (.fault .storeOffline)
  else match s.wall with
    | none => .error .noTime
    | some wall => Stop.ofFault (v.store.create wall v.ledger.player houseTag)

/-- What the player holds once there is a record, and the store with it. -/
def enrolled (s : Setting) (v : Visit) : Except Stop (Holdings × Store) :=
  match s.held v with
  | .error f => .error (.fault f)
  | .ok (some h) => .ok (h, v.store)
  | .ok none =>
    match s.created v, s.outage.createFlush with
    | .error e, _ => .error e
    | .ok (_, store), none => .ok (.empty, store)
    | .ok _, some reason => .error (.fault (.storeUnflushed reason))

@[simp] theorem enrolled_withPurse (s : Setting) (v : Visit) (purse : Int64) :
    s.enrolled (v.withPurse purse) = s.enrolled v := rfl

variable {s : Setting} {v : Visit}

/-- What `act` places in the store, where the call is not `down`. -/
def placing {α : Type} (s : Setting) (down : Bool) (act : Instant → Except Fault α) : Except Stop α :=
  if down then .error (.fault .storeOffline)
  else match s.wall with
    | none => .error .noTime
    | some wall => Stop.ofFault (act wall)

theorem written_eq (s : Setting) (store : Store) (player : String) (h : Holdings) :
    s.written store player h = s.placing s.outage.put fun wall =>
      store.write wall player houseTag (HouseList.write h.leases) h.lastHouse := rfl

theorem created_eq (s : Setting) (v : Visit) :
    s.created v = s.placing s.outage.create fun wall => v.store.create wall v.ledger.player houseTag := rfl

/-- Why nothing is placed in the store. -/
inductive Unplaced (s : Setting) (down : Bool) : Stop → Prop
  | offline : down = true → s.Unplaced down (.fault .storeOffline)
  | untimed : s.wall = none → s.Unplaced down .noTime
  | tooLong : s.Unplaced down (.fault .recordTooLong)

section

variable {α : Type} {down : Bool} {act : Instant → Except Fault α} {e : Stop}

theorem placing_ok {a : α} (h : s.placing down act = .ok a) :
    down = false ∧ ∃ wall, s.wall = some wall ∧ act wall = .ok a := by
  unfold placing at h
  split at h
  · cases h
  · rename_i hup
    split at h
    · cases h
    · rename_i wall hwall
      cases hact : act wall with
      | ok a' => rw [hact] at h; cases h; exact ⟨by simpa using hup, wall, hwall, hact⟩
      | error f => rw [hact] at h; cases h

theorem placing_error (hlong : ∀ wall f, act wall = .error f → f = .recordTooLong) (h : s.placing down act = .error e) :
    s.Unplaced down e := by
  unfold placing at h
  split at h
  · rename_i hdown
    cases h
    exact .offline hdown
  · split at h
    · rename_i hwall
      cases h
      exact .untimed hwall
    · rename_i wall _
      cases hact : act wall with
      | ok a => rw [hact] at h; cases h
      | error f => rw [hact, hlong wall f hact] at h; cases h; exact .tooLong

theorem Unplaced.stops (h : s.Unplaced down e) : s.Stops e := by
  cases h with
  | offline | tooLong => exact .fault _
  | untimed hwall => exact .untimed (Or.inr hwall)

end

theorem write_apply (s : Setting) (h : Holdings) (v : Visit) :
    s.write h v = match s.wrote v.store v.ledger.player h with
      | (none, store) => .ok () { v with store }
      | (some e, store) => .error e { v with store } := by
  unfold write wrote written
  cases s.outage.put
  · cases s.wall with
    | none => simp
    | some wall =>
      simp only [Bool.false_eq_true, if_false]
      cases hw : v.store.write wall v.ledger.player houseTag (HouseList.write h.leases) h.lastHouse with
      | ok store => cases hf : s.outage.putFlush <;> simp [Holdings.toRecord, hw]
      | error f => simp [Holdings.toRecord, hw]
  · simp

/-- A write ends well if its record is placed and flushed. -/
theorem wrote_eq_none {store store' : Store} {player : String} {h : Holdings} :
    s.wrote store player h = (none, store') ↔
      s.written store player h = .ok store' ∧ s.outage.putFlush = none := by
  unfold wrote
  cases s.written store player h with
  | error e => simp
  | ok placed => simp [and_comm]

theorem wrote_of_error {store : Store} {player : String} {h : Holdings} {e : Stop}
    (hfailed : s.written store player h = .error e) : s.wrote store player h = (some e, store) := by
  rw [wrote, hfailed]

/-- One that fails left the store alone, or it has placed its record and failed in the flush. -/
theorem wrote_some {store store' : Store} {player : String} {h : Holdings} {e : Stop}
    (hw : s.wrote store player h = (some e, store')) :
    (s.written store player h = .error e ∧ store' = store) ∨
      ∃ reason, s.outage.putFlush = some reason ∧ e = .fault (.storeUnflushed reason) ∧
        s.written store player h = .ok store' := by
  unfold wrote at hw
  split at hw
  · rename_i hfailed
    cases hw
    exact Or.inl ⟨hfailed, rfl⟩
  · rename_i hplaced
    obtain ⟨hflush, rfl⟩ := Prod.mk.inj hw
    obtain ⟨reason, hreason, rfl⟩ := Option.map_eq_some_iff.mp hflush
    exact Or.inr ⟨reason, hreason, rfl, hplaced⟩

theorem written_ok {store store' : Store} {player : String} {h : Holdings}
    (hw : s.written store player h = .ok store') :
    s.outage.put = false ∧
      ∃ wall, s.wall = some wall ∧
        store.write wall player houseTag (HouseList.write h.leases) h.lastHouse = .ok store' := by
  rw [written_eq] at hw
  exact placing_ok hw

theorem written_error {store : Store} {player : String} {h : Holdings} {e : Stop}
    (hw : s.written store player h = .error e) : s.Unplaced s.outage.put e := by
  rw [written_eq] at hw
  exact placing_error (fun _ _ hwrite => Store.write_eq_error hwrite) hw

theorem wrote_stops {store store' : Store} {player : String} {h : Holdings} {e : Stop}
    (hw : s.wrote store player h = (some e, store')) : s.Stops e := by
  rcases wrote_some hw with ⟨hfailed, -⟩ | ⟨reason, -, rfl, -⟩
  · exact (written_error hfailed).stops
  · exact .fault _

theorem created_ok {r : Record} {store : Store} (h : s.created v = .ok (r, store)) :
    s.outage.create = false ∧
      ∃ wall, s.wall = some wall ∧ v.store.create wall v.ledger.player houseTag = .ok (r, store) := by
  rw [created_eq] at h
  exact placing_ok h

theorem created_error {e : Stop} (h : s.created v = .error e) : s.Unplaced s.outage.create e := by
  rw [created_eq] at h
  exact placing_error (fun _ _ hcreate => Store.create_eq_error hcreate) h

theorem create_apply (s : Setting) (v : Visit) :
    ∃ log, s.create v = match s.created v, s.outage.createFlush with
      | .ok (r, store), none => .ok r { v with store, log }
      | .ok (_, store), some reason => .error (.fault (.storeUnflushed reason)) { v with store, log }
      | .error e, _ => .error e { v with log } := by
  unfold create created
  cases s.outage.create
  · refine ⟨v.log ++ [creationLine v.ledger.player houseTag], ?_⟩
    cases s.wall with
    | none => simp
    | some wall =>
      cases hc : v.store.create wall v.ledger.player houseTag with
      | ok p => cases s.outage.createFlush <;> simp [hc]
      | error f => simp [hc]
  · exact ⟨v.log, by simp⟩

/-- The record was there, or it is new and holds nothing. -/
theorem enrolled_cases {h : Holdings} {store : Store} (he : s.enrolled v = .ok (h, store)) :
    (s.held v = .ok (some h) ∧ store = v.store) ∨
      (s.held v = .ok none ∧ h = .empty ∧ ∃ r, s.created v = .ok (r, store)) := by
  unfold enrolled at he
  split at he
  · cases he
  · rename_i hh
    cases he
    exact Or.inl ⟨hh, rfl⟩
  · rename_i hh
    split at he
    · cases he
    · rename_i r store' hc _
      cases he
      exact Or.inr ⟨hh, rfl, r, hc⟩
    · cases he

end Setting

theorem Setting.enrolled_of_held (s : Setting) {v : Visit} {h : Holdings} (hh : s.held v = .ok (some h)) :
    s.enrolled v = .ok (h, v.store) := by
  rw [Setting.enrolled, hh]

theorem Setting.enrolled_of_created (s : Setting) {v : Visit} {r : Record} {store : Store}
    (hh : s.held v = .ok none) (hc : s.created v = .ok (r, store)) (hflush : s.outage.createFlush = none) :
    s.enrolled v = .ok (.empty, store) := by
  rw [Setting.enrolled, hh, hc, hflush]

theorem Setting.createFlush_of_enrolled {s : Setting} {v : Visit} {h : Holdings} {store : Store}
    (he : s.enrolled v = .ok (h, store)) (hh : s.held v = .ok none) : s.outage.createFlush = none := by
  unfold Setting.enrolled at he
  rw [hh] at he
  cases hflush : s.outage.createFlush with
  | none => rfl
  | some reason => cases hc : s.created v <;> simp [hc, hflush] at he

/-- A record was made for a player who had none, and could not be flushed. It is in the store, and the ledger goes on
    as if it were not. -/
structure Stranded (s : Setting) (v w : Visit) (reason : String) : Prop where
  held : s.held v = .ok none
  created : ∃ r, s.created v = .ok (r, w.store)
  unflushed : s.outage.createFlush = some reason
  purse : w.purse = v.purse
  player : w.ledger.player = v.ledger.player
  house : w.ledger.house = v.ledger.house
  copy : w.ledger.copy = .absent

/-- There is no record, and why none is made. -/
theorem Setting.enrolled_error {s : Setting} {v : Visit} {e : Stop} (he : s.enrolled v = .error e) :
    (∃ f, s.held v = .error f ∧ e = .fault f) ∨ (s.held v = .ok none ∧ s.created v = .error e) ∨
      ∃ r store reason, s.held v = .ok none ∧ s.created v = .ok (r, store) ∧
        s.outage.createFlush = some reason ∧ e = .fault (.storeUnflushed reason) := by
  unfold Setting.enrolled at he
  split at he
  · rename_i f hh
    cases he
    exact Or.inl ⟨f, hh, rfl⟩
  · cases he
  · rename_i hh
    split at he
    · rename_i hc
      cases he
      exact Or.inr (Or.inl ⟨hh, hc⟩)
    · cases he
    · rename_i r reason hc hflush
      cases he
      exact Or.inr (Or.inr ⟨r.1, r.2, reason, hh, hc, hflush, rfl⟩)

/-- The visit with this store and these holdings in the ledger's copy. -/
def Visit.copied (v : Visit) (store : Store) (h : Holdings) (log : List LogLine) : Visit :=
  { v with store, ledger := { v.ledger with copy := .present h }, log }

section

variable (v : Visit) (store : Store) (h : Holdings) (log : List LogLine)

@[simp] theorem Visit.copied_store : (v.copied store h log).store = store := rfl
@[simp] theorem Visit.copied_player : (v.copied store h log).ledger.player = v.ledger.player := rfl
@[simp] theorem Visit.copied_house : (v.copied store h log).ledger.house = v.ledger.house := rfl
@[simp] theorem Visit.copied_held : (v.copied store h log).held = .ok (some h) := rfl

@[simp] theorem Visit.copied_consulted (held : Option Holdings) (log' : List LogLine) :
    (v.consulted held log').copied store h log = v.copied store h log := rfl

@[simp] theorem Visit.consulted_copied (log' : List LogLine) :
    (v.copied store h log').consulted (some h) log = v.copied store h log := rfl

@[simp] theorem Visit.copied_withPurse (purse : Int64) :
    (v.withPurse purse).copied store h log = (v.copied store h log).withPurse purse := rfl

@[simp] theorem Visit.copied_withPurse_self : (v.copied store h log).withPurse v.purse = v.copied store h log := rfl

@[simp] theorem Visit.withLog_copied (log' : List LogLine) :
    (v.copied store h log').withLog log = v.copied store h log := rfl

theorem Setting.held_copied (s : Setting) : s.held (v.copied store h log) = .ok (some h) :=
  s.held_of_copy (show _ = Copy.of (some h) from rfl)

end

namespace Ledger

variable {s : Setting} {v : Visit}

theorem commit_apply (s : Setting) (h : Holdings) (v : Visit) :
    commit s h v = match s.wrote v.store v.ledger.player h with
      | (none, store) => .ok () (v.copied store h v.log)
      | (some e, store) => .error e (v.copied store h v.log) := by
  simp only [commit, Act.bind_apply, Act.keep_apply, Setting.write_apply]
  rfl

theorem enrol_ok {h : Holdings} {store : Store} (he : s.enrolled v = .ok (h, store)) :
    ∃ log, enrol s v = .ok h (v.copied store h log) := by
  rcases Setting.enrolled_cases he with ⟨hh, rfl⟩ | ⟨hh, rfl, r, hc⟩
  · obtain ⟨log, hcons⟩ := consult_ok hh
    exact ⟨log, by simp [enrol, hcons]; rfl⟩
  · obtain ⟨-, wall, -, hw⟩ := Setting.created_ok hc
    obtain ⟨rfl, -⟩ := Store.create_eq_ok hw
    have hflush := Setting.createFlush_of_enrolled he hh
    obtain ⟨log, hcons⟩ := consult_ok hh
    obtain ⟨log', hcr⟩ := s.create_apply (v.consulted none log)
    rw [show s.created (v.consulted none log) = s.created v from rfl, hc, hflush] at hcr
    exact ⟨log', by simp [enrol, hcons, hcr, ofRecord_blankRecord]; rfl⟩

theorem enrol_unread {f : Fault} (hh : s.held v = .error f) : enrol s v = .error (.fault f) v := by
  simp [enrol, consult_error hh]

theorem enrol_uncreated {e : Stop} (hh : s.held v = .ok none) (hc : s.created v = .error e) :
    ∃ log, enrol s v = .error e (v.consulted none log) := by
  obtain ⟨log, hcons⟩ := consult_ok hh
  obtain ⟨log', hcr⟩ := s.create_apply (v.consulted none log)
  rw [show s.created (v.consulted none log) = s.created v from rfl, hc] at hcr
  exact ⟨log', by simp [enrol, hcons, hcr]; rfl⟩

/-- The ledger does not learn of a record that could not be flushed. -/
theorem enrol_stranded {r : Record} {store : Store} {reason : String} (hh : s.held v = .ok none)
    (hc : s.created v = .ok (r, store)) (hflush : s.outage.createFlush = some reason) :
    ∃ log, enrol s v = .error (.fault (.storeUnflushed reason)) ((v.consulted none log).withStore store) := by
  obtain ⟨log, hcons⟩ := consult_ok hh
  obtain ⟨log', hcr⟩ := s.create_apply (v.consulted none log)
  rw [show s.created (v.consulted none log) = s.created v from rfl, hc, hflush] at hcr
  exact ⟨log', by simp [enrol, hcons, hcr]; rfl⟩

theorem enrol_error {e : Stop} (he : s.enrolled v = .error e) :
    ∃ w, enrol s v = .error e w ∧
      (s.Stops e ∧ Looked s v w ∨ ∃ reason, e = .fault (.storeUnflushed reason) ∧ Stranded s v w reason) := by
  rcases Setting.enrolled_error he with ⟨f, hh, rfl⟩ | ⟨hh, hc⟩ | ⟨r, store, reason, hh, hc, hflush, rfl⟩
  · exact ⟨v, enrol_unread hh, Or.inl ⟨.fault f, .refl s v⟩⟩
  · obtain ⟨log, hen⟩ := enrol_uncreated hh hc
    exact ⟨_, hen, Or.inl ⟨(Setting.created_error hc).stops, .consulted hh log⟩⟩
  · obtain ⟨log, hen⟩ := enrol_stranded hh hc hflush
    exact ⟨_, hen, Or.inr ⟨reason, rfl, hh, ⟨r, hc⟩, hflush, rfl, rfl, rfl, rfl⟩⟩

theorem enrolled_of_looked {w : Visit} (h : Looked s v w) : s.enrolled w = s.enrolled v := by
  simp only [Setting.enrolled, Setting.created, h.held, h.store, h.player]

/-- A purchase that comes to its draft. -/
theorem purchase_draft {terms : House} {h : Holdings} {store : Store} {now t : Int64}
    (hterms : s.catalog.find? v.ledger.house = some terms) (he : s.enrolled v = .ok (h, store))
    (hnew : h.owns v.ledger.house = false) (hnow : s.now = some now)
    (ht : addDays now terms.prepaidDaysOnPurchase = .ok t) :
    ∃ log, purchase s v = match s.wrote store v.ledger.player (h.acquire v.ledger.house t) with
      | (none, store') => .ok true (v.copied store' (h.acquire v.ledger.house t) log)
      | (some e, store') => .error e (v.copied store' (h.acquire v.ledger.house t) log) := by
  obtain ⟨log, hen⟩ := enrol_ok he
  rcases hw : s.wrote store v.ledger.player (h.acquire v.ledger.house t) with ⟨_ | e, store'⟩
  · refine ⟨log ++ [⟨.info, v.ledger.player ++ " purchased " ++ v.ledger.house ++ " (fees paid until "
      ++ Text.numeral t.toInt ++ ")"⟩], ?_⟩
    simp [purchase, Setting.terms_apply, hterms, hen, hnew, hnow, ht, commit_apply, hw]
    rfl
  · refine ⟨log, ?_⟩
    simp [purchase, Setting.terms_apply, hterms, hen, hnew, hnow, ht, commit_apply, hw]
    rfl

/-- A payment that comes to its draft. -/
theorem payFees_draft {days : UInt32} {h : Holdings} {t t' : Int64} (hh : s.held v = .ok (some h))
    (hp : h.paidUntil? v.ledger.house = some t) (ht : addDays t days = .ok t') :
    ∃ log, payFees s days v = match s.wrote v.store v.ledger.player (h.extend v.ledger.house t') with
      | (none, store') => .ok true (v.copied store' (h.extend v.ledger.house t') log)
      | (some e, store') => .error e (v.copied store' (h.extend v.ledger.house t') log) := by
  obtain ⟨log, hc⟩ := consult_ok hh
  rcases hw : s.wrote v.store v.ledger.player (h.extend v.ledger.house t') with ⟨_ | e, store'⟩
  · refine ⟨log ++ [⟨.info, v.ledger.player ++ " paid " ++ Text.numeral days.toNat ++ " days of fees for "
      ++ v.ledger.house ++ " (now paid until " ++ Text.numeral t'.toInt ++ ")"⟩], ?_⟩
    simp [payFees, hc, hp, ht, commit_apply, hw]
    rfl
  · refine ⟨log, ?_⟩
    simp [payFees, hc, hp, ht, commit_apply, hw]
    rfl

/-- A departure that comes to its draft. -/
theorem setLastHouse_draft (value : String) {h : Holdings} (hh : s.held v = .ok (some h)) :
    ∃ log, setLastHouse s value v = match s.wrote v.store v.ledger.player (h.leave (some value)) with
      | (none, store') => .ok true (v.copied store' (h.leave (some value)) log)
      | (some e, store') => .error e (v.copied store' (h.leave (some value)) log) := by
  obtain ⟨log, hc⟩ := consult_ok hh
  refine ⟨log, ?_⟩
  rcases hw : s.wrote v.store v.ledger.player (h.leave (some value)) with ⟨_ | e, store'⟩ <;>
    simp [setLastHouse, hc, commit_apply, hw] <;> rfl

end Ledger

/-! ## Drafts -/

/-- What a call is about to write. -/
structure Draft where
  /-- The store it is written to. -/
  store : Store
  holdings : Holdings
  /-- What was taken from the purse for it. -/
  cost : Int64 := 0
  /-- The answer, once it is written. -/
  answer : Answer

/-- The rules by which a call comes to a draft. -/
inductive Drafts (s : Setting) (v : Visit) : Call → Draft → Prop
  | purchase {terms h store now t} :
      s.catalog.find? v.ledger.house = some terms → s.enrolled v = .ok (h, store) →
      h.owns v.ledger.house = false → s.now = some now → addDays now terms.prepaidDaysOnPurchase = .ok t →
      Drafts s v .purchase { store, holdings := h.acquire v.ledger.house t, answer := .flag true }
  | payFees {days h t t'} :
      s.held v = .ok (some h) → h.paidUntil? v.ledger.house = some t → addDays t days = .ok t' →
      Drafts s v (.payFees days) { store := v.store, holdings := h.extend v.ledger.house t', answer := .flag true }
  | setLastHouse {value h} :
      s.held v = .ok (some h) →
      Drafts s v (.setLastHouse value) { store := v.store, holdings := h.leave (some value), answer := .flag true }
  | depart {h} :
      s.held v = .ok (some h) →
      Drafts s v .depart
        { store := v.store, holdings := h.leave (some v.ledger.house), answer := .point s.catalog.hub }
  | buyHouse {terms h store now t purse} :
      s.catalog.find? v.ledger.house = some terms → s.enrolled v = .ok (h, store) →
      h.owns v.ledger.house = false → Purse.pay? v.purse terms.purchaseCost = some purse → s.now = some now →
      addDays now terms.prepaidDaysOnPurchase = .ok t →
      Drafts s v .buyHouse
        { store, holdings := h.acquire v.ledger.house t, cost := terms.purchaseCost,
          answer := .purchase (.bought terms.purchaseCost t) }
  | prepayFees {requested terms h now t remaining days cost purse t'} :
      s.catalog.find? v.ledger.house = some terms → s.held v = .ok (some h) →
      h.paidUntil? v.ledger.house = some t → s.now = some now →
      checked .subtract (t.toInt - now.toInt) = .ok remaining →
      days = min requested (Trade.daysAllowed terms.maxPrepaidDays remaining) → days ≠ 0 →
      checked .multiply (terms.dailyFee.toInt * days.toNat) = .ok cost → Purse.pay? v.purse cost = some purse →
      addDays t days = .ok t' →
      Drafts s v (.prepayFees requested)
        { store := v.store, holdings := h.extend v.ledger.house t', cost, answer := .prepay (.paid days cost) }
  | checkExitFees {terms h now t cost purse t'} :
      s.held v = .ok (some h) → h.paidUntil? v.ledger.house = some t → s.now = some now → t < now →
      s.catalog.find? v.ledger.house = some terms →
      checked .multiply (terms.dailyFee.toInt * (1 : UInt32).toNat) = .ok cost →
      Purse.pay? v.purse cost = some purse → addDays t 1 = .ok t' →
      Drafts s v .checkExitFees
        { store := v.store, holdings := h.extend v.ledger.house t', cost, answer := .feeCheck (.charged cost) }

/-- The end of a call that came to the draft. Only a fault gives back what was paid. -/
def Draft.close (d : Draft) (s : Setting) (v : Visit) (log : List LogLine) : EStateM.Result Stop Visit Answer :=
  match s.wrote d.store v.ledger.player d.holdings with
  | (none, store) => .ok d.answer ((v.copied store d.holdings log).withPurse (v.purse - d.cost))
  | (some (.fault f), store) => .error (.fault f) (v.copied store d.holdings log)
  | (some e, store) => .error e ((v.copied store d.holdings log).withPurse (v.purse - d.cost))

/-- Where a draft's holdings come from: a record, or a new one for a player who had none. -/
theorem Drafts.source {s : Setting} {v : Visit} {c : Call} {d : Draft} (hd : Drafts s v c d) :
    (∃ h, s.held v = .ok (some h) ∧ d.store = v.store) ∨
      (s.held v = .ok none ∧ (c = .purchase ∨ c = .buyHouse) ∧ (∃ r, s.created v = .ok (r, d.store)) ∧
        d.holdings.leases ≠ []) := by
  cases hd with
  | payFees hh | setLastHouse hh | depart hh | checkExitFees hh => exact Or.inl ⟨_, hh, rfl⟩
  | prepayFees _ hh => exact Or.inl ⟨_, hh, rfl⟩
  | purchase _ he =>
    rcases Setting.enrolled_cases he with ⟨hh, hstore⟩ | ⟨hh, -, hc⟩
    · exact Or.inl ⟨_, hh, hstore⟩
    · exact Or.inr ⟨hh, Or.inl rfl, hc, by simp [Holdings.acquire]⟩
  | buyHouse _ he =>
    rcases Setting.enrolled_cases he with ⟨hh, hstore⟩ | ⟨hh, -, hc⟩
    · exact Or.inl ⟨_, hh, hstore⟩
    · exact Or.inr ⟨hh, Or.inr rfl, hc, by simp [Holdings.acquire]⟩

theorem Holdings.paidUntil?_acquire {h : Holdings} {house : String} (hn : h.owns house = false) (t : Int64) :
    (h.acquire house t).paidUntil? house = some t := by
  have hf : h.leases.find? (·.house == house) = none := by
    simpa [Holdings.owns, Holdings.paidUntil?] using hn
  simp [Holdings.acquire, Holdings.paidUntil?, List.find?_append, hf]

theorem Holdings.paidUntil?_extend {h : Holdings} {house : String} {t : Int64} (hp : h.paidUntil? house = some t)
    (t' : Int64) : (h.extend house t').paidUntil? house = some t' := by
  obtain ⟨l, hl, -⟩ := Option.map_eq_some_iff.mp hp
  simp [paidUntil?, extend, find?_extendFirst, hl]

namespace Trade

variable {s : Setting} {v w : Visit} {cost : Int64}

/-- A paid change whose write failed: the purse is as it was, if the failure is a fault. -/
theorem orRefund_error {α : Type} {act : Act α} {e : Stop} {balance : Int64} (h : act v = .error e w)
    (hp : Purse.pay? balance cost = some w.purse) :
    ∃ log, orRefund cost act v = match e with
      | .fault f => .error (.fault f) ((w.withLog log).withPurse balance)
      | e => .error e (w.withLog log) := by
  cases e with
  | fault f => exact orRefund_fault h (Purse.refund_pay? hp)
  | overflow op => exact ⟨w.log, orRefund_abort (fun f => Stop.noConfusion) h⟩
  | noTime => exact ⟨w.log, orRefund_abort (fun f => Stop.noConfusion) h⟩

end Trade

namespace Ledger

variable {s : Setting} {v : Visit}

/-- A record does not change which leases the player holds. -/
theorem held_of_enrolled {h : Holdings} {store : Store} (he : s.enrolled v = .ok (h, store)) :
    ∃ held, s.held v = .ok held ∧ ∀ house, held.bind (·.paidUntil? house) = h.paidUntil? house := by
  rcases Setting.enrolled_cases he with ⟨hh, -⟩ | ⟨hh, rfl, -⟩
  · exact ⟨_, hh, fun house => rfl⟩
  · exact ⟨none, hh, fun house => rfl⟩

end Ledger

namespace Trade

variable {s : Setting} {v : Visit}

theorem buyHouse_draft {terms : House} {h : Holdings} {store : Store} {now t purse : Int64}
    (hterms : s.catalog.find? v.ledger.house = some terms) (he : s.enrolled v = .ok (h, store))
    (hnew : h.owns v.ledger.house = false) (hpay : Purse.pay? v.purse terms.purchaseCost = some purse)
    (hnow : s.now = some now) (ht : addDays now terms.prepaidDaysOnPurchase = .ok t) :
    ∃ log, (Answer.purchase <$> buyHouse s) v = Draft.close
      { store, holdings := h.acquire v.ledger.house t, cost := terms.purchaseCost,
        answer := .purchase (.bought terms.purchaseCost t) } s v log := by
  obtain ⟨held, hh, hheld⟩ := Ledger.held_of_enrolled he
  obtain ⟨log, hq⟩ := Ledger.paidUntil_ok hh
  obtain ⟨-, hrest⟩ := Purse.pay?_eq_some.mp hpay
  have hnone : h.paidUntil? v.ledger.house = none := by simpa [Holdings.owns] using hnew
  rw [hheld, hnone] at hq
  obtain ⟨log', hbuy⟩ := Ledger.purchase_draft (s := s) (v := (v.consulted held log).withPurse purse) hterms
    ((Ledger.enrolled_of_looked (.consulted hh log)).trans he) hnew hnow ht
  unfold Draft.close
  rcases hw : s.wrote store v.ledger.player (h.acquire v.ledger.house t) with ⟨_ | e, store'⟩
  · simp only [Visit.withPurse_ledger, Visit.consulted_player, Visit.consulted_house, hw, Visit.copied_withPurse,
      Visit.copied_consulted] at hbuy
    obtain ⟨log'', hq'⟩ := Ledger.paidUntil_ok (s := s)
      (v := (v.copied store' (h.acquire v.ledger.house t) log').withPurse purse) (s.held_copied v store' _ log')
    refine ⟨log'', ?_⟩
    simp [buyHouse, Setting.terms_apply, hterms, Ledger.hasHouse, hq, pay_apply, hpay, orRefund_ok hbuy, hq',
      Holdings.paidUntil?_acquire hnew, hrest]
  · simp only [Visit.withPurse_ledger, Visit.consulted_player, Visit.consulted_house, hw, Visit.copied_withPurse,
      Visit.copied_consulted] at hbuy
    obtain ⟨log'', hr⟩ := orRefund_error hbuy hpay
    refine ⟨log'', ?_⟩
    cases e <;> simp [buyHouse, Setting.terms_apply, hterms, Ledger.hasHouse, hq, pay_apply, hpay, hr, hrest]

/-- A debit for days of fees that come to their draft, and what follows it. -/
theorem orRefund_payFees {days : UInt32} {h : Holdings} {t t' cost purse : Int64} {held : Option Holdings}
    {log : List LogLine} (hh : s.held v = .ok (some h)) (hlook : Looked s v (v.consulted held log))
    (hp : h.paidUntil? v.ledger.house = some t) (ht : addDays t days = .ok t')
    (hpay : Purse.pay? v.purse cost = some purse) :
    ∃ log', orRefund cost (Ledger.payFees s days) ((v.consulted held log).withPurse purse) =
      match s.wrote v.store v.ledger.player (h.extend v.ledger.house t') with
      | (none, store) => .ok true ((v.copied store (h.extend v.ledger.house t') log').withPurse (v.purse - cost))
      | (some (.fault f), store) => .error (.fault f) (v.copied store (h.extend v.ledger.house t') log')
      | (some e, store) => .error e ((v.copied store (h.extend v.ledger.house t') log').withPurse (v.purse - cost)) := by
  obtain ⟨-, hrest⟩ := Purse.pay?_eq_some.mp hpay
  obtain ⟨log', hpf⟩ := Ledger.payFees_draft (s := s) (v := (v.consulted held log).withPurse purse)
    (hlook.held.trans hh) hp ht
  simp only [Visit.withPurse_ledger, Visit.withPurse_store, Visit.consulted_store, Visit.consulted_player,
    Visit.consulted_house, Visit.copied_withPurse, Visit.copied_consulted] at hpf
  rcases hw : s.wrote v.store v.ledger.player (h.extend v.ledger.house t') with ⟨_ | e, store⟩
  · rw [hw] at hpf
    exact ⟨log', by simp [orRefund_ok hpf, hrest]⟩
  · rw [hw] at hpf
    obtain ⟨log'', hr⟩ := orRefund_error hpf hpay
    refine ⟨log'', ?_⟩
    cases e <;> simp [hr, hrest]

end Trade

/-- A change that takes no money. -/
theorem Draft.close_free {α : Type} {s : Setting} {v : Visit} {store : Store} {h : Holdings} {log : List LogLine}
    {b : α} {act : Act α} {g : α → Answer}
    (hact : act v = match s.wrote store v.ledger.player h with
      | (none, store') => .ok b (v.copied store' h log)
      | (some e, store') => .error e (v.copied store' h log)) :
    (g <$> act) v = Draft.close { store, holdings := h, answer := g b } s v log := by
  rw [Act.map_apply, hact]
  unfold Draft.close
  rcases s.wrote store v.ledger.player h with ⟨_ | e, store'⟩
  · simp
  · cases e <;> simp

/-- A change that takes money before it writes; the last lines of the log are `more`. -/
theorem Draft.close_paid {s : Setting} {v w : Visit} {d : Draft} {log : List LogLine} {act : Act Bool} {c : Call}
    {b : Bool}
    (hact : act w = match s.wrote d.store v.ledger.player d.holdings with
      | (none, store) => .ok b ((v.copied store d.holdings log).withPurse (v.purse - d.cost))
      | (some (.fault f), store) => .error (.fault f) (v.copied store d.holdings log)
      | (some e, store) => .error e ((v.copied store d.holdings log).withPurse (v.purse - d.cost)))
    (more : List LogLine)
    (hrun : c.run s v = match act w with
      | .ok _ u => .ok d.answer (u.withLog (u.log ++ more))
      | .error e u => .error e u) :
    ∃ log, c.run s v = d.close s v log := by
  rw [hact] at hrun
  unfold Draft.close
  rcases hw : s.wrote d.store v.ledger.player d.holdings with ⟨_ | e, store⟩
  · refine ⟨log ++ more, ?_⟩
    rw [hrun, hw]
    rfl
  · refine ⟨log, ?_⟩
    rw [hrun, hw]
    cases e <;> rfl

theorem Hub.depart_apply (s : Setting) (v : Visit) :
    depart s v = ((fun _ => s.catalog.hub) <$> Ledger.setLastHouse s v.ledger.house) v := by
  simp only [depart, Act.map_apply, Act.bind_apply, Act.house_apply]
  cases Ledger.setLastHouse s v.ledger.house v <;> rfl

/-- A call that comes to a draft ends with it written, or stops with it in the ledger's copy. -/
theorem Drafts.run {s : Setting} {v : Visit} {c : Call} {d : Draft} (hd : Drafts s v c d) :
    ∃ log, c.run s v = d.close s v log := by
  cases hd with
  | purchase hterms he hnew hnow ht =>
    obtain ⟨log, h⟩ := Ledger.purchase_draft hterms he hnew hnow ht
    exact ⟨log, Draft.close_free h⟩
  | payFees hh hp ht =>
    obtain ⟨log, h⟩ := Ledger.payFees_draft hh hp ht
    exact ⟨log, Draft.close_free h⟩
  | setLastHouse hh =>
    obtain ⟨log, h⟩ := Ledger.setLastHouse_draft _ hh
    exact ⟨log, Draft.close_free h⟩
  | depart hh =>
    obtain ⟨log, h⟩ := Ledger.setLastHouse_draft v.ledger.house hh
    refine ⟨log, Eq.trans ?_ (Draft.close_free (g := fun _ => .point s.catalog.hub) h)⟩
    rw [Call.run, Act.map_apply, Hub.depart_apply, Act.map_apply, Act.map_apply]
    cases Ledger.setLastHouse s v.ledger.house v <;> rfl
  | buyHouse hterms he hnew hpay hnow ht => exact Trade.buyHouse_draft hterms he hnew hpay hnow ht
  | @prepayFees requested terms h now t remaining days cost purse t' hterms hh hp hnow hsub hdays hne hmul hpay ht =>
    obtain ⟨log, hq⟩ := Ledger.paidUntil_ok hh
    obtain ⟨log', hr⟩ := Trade.orRefund_payFees hh (.consulted hh log) hp ht hpay
    rw [Option.bind_some, hp] at hq
    subst hdays
    refine Draft.close_paid hr [] ?_
    simp only [Call.run, Act.map_apply, Trade.prepayFees, Act.bind_apply, Setting.terms_apply, hterms,
      Ledger.secondsRemaining, Act.ofClock_apply, hnow, hq, Act.ofOverflow_apply, hsub, Act.pure_apply, if_neg hne,
      Ledger.feeForDays, Visit.consulted_house, hmul, Trade.pay_apply, Visit.consulted_purse, hpay, Bool.not_true,
      Bool.false_eq_true, if_false, List.append_nil]
    cases Trade.orRefund cost _ ((v.consulted (some h) log).withPurse purse) <;> rfl
  | @checkExitFees terms h now t cost purse t' hh hp hnow hlt hterms hmul hpay ht =>
    obtain ⟨log, hq⟩ := Ledger.paidUntil_ok hh
    obtain ⟨log', hr⟩ := Trade.orRefund_payFees hh (.consulted hh log) hp ht hpay
    rw [Option.bind_some, hp] at hq
    refine Draft.close_paid hr [⟨.info, v.ledger.player ++ " paid " ++ Text.numeral cost.toInt
      ++ " for a day of fees on " ++ v.ledger.house⟩] ?_
    simp only [Call.run, Act.map_apply, Trade.checkExitFees, Ledger.isFeeExpired, Act.bind_apply, Act.ofClock_apply,
      hnow, hq, Act.pure_apply, Option.map_some, hlt, decide_true, Ledger.feeForDays, Setting.terms_apply,
      Visit.consulted_house, hterms, Act.ofOverflow_apply, hmul, Act.player_apply, Act.house_apply,
      Visit.consulted_player, Trade.pay_apply, Visit.consulted_purse, hpay, if_true, Act.note_apply]
    cases Trade.orRefund cost (Ledger.payFees s 1) ((v.consulted (some h) log).withPurse purse) <;> rfl

section

variable {s : Setting} {v : Visit} {c : Call} {d : Draft} {store : Store}

/-- A draft that is written and flushed is answered, and paid for. -/
theorem Drafts.run_of_wrote (hd : Drafts s v c d)
    (hw : s.wrote d.store v.ledger.player d.holdings = (none, store)) :
    ∃ log, c.run s v = .ok d.answer ((v.copied store d.holdings log).withPurse (v.purse - d.cost)) := by
  obtain ⟨log, hrun⟩ := hd.run
  rw [Draft.close, hw] at hrun
  exact ⟨log, hrun⟩

/-- One that met a fault costs nothing, and is the ledger's copy. -/
theorem Drafts.run_of_fault {f : Fault} (hd : Drafts s v c d)
    (hw : s.wrote d.store v.ledger.player d.holdings = (some (.fault f), store)) :
    ∃ log, c.run s v = .error (.fault f) (v.copied store d.holdings log) := by
  obtain ⟨log, hrun⟩ := hd.run
  rw [Draft.close, hw] at hrun
  exact ⟨log, hrun⟩

end

end HouseLease
