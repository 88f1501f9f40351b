/-
  HouseLease.Proofs.Visit.Runs — calls as seen from outside, and one after the other.

  `Call.made` keeps of a call what can be seen of it and the visit it left, whatever it ended
  with; `Visit.calls` goes on with the next call from there. `Leaves` lists what a call can leave in
  store and ledger (`Call.leaves`). The ledger stays its player's (`Call.player_made`), and no key
  is touched other than that of the player's record (`Call.find?_made`).
-/

import HouseLease.Proofs.Visit.Quiet

namespace HouseLease

open Text (Bytes)

/-! ## Runs -/

instance decidableEqExcept {ε α : Type} [DecidableEq ε] [DecidableEq α] : DecidableEq (Except ε α)
  | .ok a, .ok b => decidable_of_iff (a = b) (by simp)
  | .error e, .error f => decidable_of_iff (e = f) (by simp)
  | .ok _, .error _ => .isFalse nofun
  | .error _, .ok _ => .isFalse nofun

/-- What can be seen of a call: how it ended, and the balance and the bound house after it. -/
structure Shown where
  answer : Except Stop Answer
  purse : Int64
  house : String
  deriving DecidableEq

/-- Makes a call, which leaves a visit whatever it ends with. -/
def Call.made (s : Setting) (c : Call) (v : Visit) : Shown × Visit :=
  match c.run s v with
  | .ok a w => (⟨.ok a, w.purse, w.ledger.house⟩, w)
  | .error e w => (⟨.error e, w.purse, w.ledger.house⟩, w)

theorem Call.run_of_made {s : Setting} {c : Call} {v : Visit} {e : Stop} (h : (c.made s v).1.answer = .error e) :
    c.run s v = .error e (c.made s v).2 := by
  unfold Call.made at h ⊢
  cases hr : c.run s v with
  | ok a w => rw [hr] at h; cases h
  | error e' w => rw [hr] at h; cases h; rfl

theorem Call.run_of_answered {s : Setting} {c : Call} {v : Visit} {a : Answer} (h : (c.made s v).1.answer = .ok a) :
    c.run s v = .ok a (c.made s v).2 := by
  unfold Call.made at h ⊢
  cases hr : c.run s v with
  | ok a' w => rw [hr] at h; cases h; rfl
  | error e w => rw [hr] at h; cases h

/-- Calls one after the other, each in the setting it finds. -/
def Visit.calls (v : Visit) : List (Setting × Call) → List Shown × Visit
  | [] => ([], v)
  | (s, c) :: rest =>
    let (shown, w) := c.made s v
    let (more, u) := w.calls rest
    (shown :: more, u)

/-! ## What a call leaves -/

/-- The ways a call can leave store and ledger. -/
inductive Leaves (s : Setting) (v : Visit) (c : Call) (w : Visit) : Prop
  /-- A draft, written, whether or not it could be flushed. -/
  | written {d : Draft} :
      Drafts s v c d → s.written d.store v.ledger.player d.holdings = .ok w.store →
      w.ledger.copy = .present d.holdings → Leaves s v c w
  /-- A draft whose write failed. -/
  | unwritten {d : Draft} {e : Stop} :
      Drafts s v c d → s.written d.store v.ledger.player d.holdings = .error e → w.store = d.store →
      w.ledger.copy = .present d.holdings → Leaves s v c w
  /-- The player's record, a new one for a player who had none. -/
  | enrolled {h : Holdings} : s.enrolled v = .ok (h, w.store) → w.ledger.copy = .present h → Leaves s v c w
  /-- A new record that could not be flushed. -/
  | stranded {reason : String} : Stranded s v w reason → Leaves s v c w
  /-- The ledger's copy at most. -/
  | looked :
      w.store = v.store → (w.ledger.copy = v.ledger.copy ∨ ∃ held, s.held v = .ok held ∧ w.ledger.copy = .of held) →
      Leaves s v c w

theorem Call.leaves (c : Call) (s : Setting) (v : Visit) : Leaves s v c (c.made s v).2 := by
  unfold Call.made
  rcases c.drafts_or_quiet s v with ⟨d, log, hd, hrun⟩ | ⟨-, hq | ⟨-, reason, w, hrun, hst⟩⟩
  · rw [hrun]
    unfold Draft.close
    rcases hw : s.wrote d.store v.ledger.player d.holdings with ⟨_ | e, store⟩
    · exact .written hd (Setting.wrote_eq_none.mp hw).1 rfl
    · rcases Setting.wrote_some hw with ⟨hfailed, rfl⟩ | ⟨reason, -, rfl, hplaced⟩
      · cases e <;> exact .unwritten hd hfailed rfl rfl
      · exact .written hd hplaced rfl
  · generalize c.run s v = r at hq
    cases hq with
    | ok _ hl => exact .looked hl.store hl.copy
    | rebound _ hl => exact .looked hl.store hl.copy
    | error hh =>
      cases hh with
      | looked _ hl => exact .looked hl.store hl.copy
      | abort _ _ _ _ hs =>
        rcases hs with hl | ⟨h, he, hcopy⟩
        · exact .looked hl.store hl.copy
        · exact .enrolled he hcopy
  · rw [hrun]
    exact .stranded hst

/-- A ledger stays its player's. -/
theorem Call.player_made (c : Call) (s : Setting) (v : Visit) : (c.made s v).2.ledger.player = v.ledger.player := by
  unfold Call.made
  rcases c.drafts_or_quiet s v with ⟨d, log, -, hrun⟩ | ⟨-, hq | ⟨-, reason, w, hrun, hst⟩⟩
  · rw [hrun]
    unfold Draft.close
    rcases s.wrote d.store v.ledger.player d.holdings with ⟨_ | e, store⟩
    · rfl
    · cases e <;> rfl
  · generalize c.run s v = r at hq
    cases hq with
    | ok _ hl => exact hl.player
    | rebound _ hl => exact hl.player
    | error hh =>
      cases hh with
      | looked _ hl => exact hl.player
      | abort _ _ hplayer => exact hplayer
  · rw [hrun]
    exact hst.player

/-! ## Other keys -/

theorem Store.holdings_of_find? {a b : Store} {p q : String}
    (h : a.find? (recordKey p houseTag) = b.find? (recordKey q houseTag)) : a.holdings p = b.holdings q := by
  unfold Store.holdings Store.fetch
  rw [h]

section

variable {s : Setting} {v : Visit} {key : Bytes}

theorem Setting.find?_created {r : Record} {store : Store} (h : s.created v = .ok (r, store))
    (hkey : key ≠ recordKey v.ledger.player houseTag) : store.find? key = v.store.find? key := by
  obtain ⟨-, wall, -, hc⟩ := Setting.created_ok h
  exact Store.find?_write_ne (Store.create_eq_ok hc).2 hkey

theorem Setting.find?_enrolled {h : Holdings} {store : Store} (he : s.enrolled v = .ok (h, store))
    (hkey : key ≠ recordKey v.ledger.player houseTag) : store.find? key = v.store.find? key := by
  rcases Setting.enrolled_cases he with ⟨-, hstore⟩ | ⟨-, -, r, hc⟩
  · rw [hstore]
  · exact Setting.find?_created hc hkey

theorem Drafts.find?_store {c : Call} {d : Draft} (hd : Drafts s v c d)
    (hkey : key ≠ recordKey v.ledger.player houseTag) : d.store.find? key = v.store.find? key := by
  rcases hd.source with ⟨_, _, hstore⟩ | ⟨_, _, ⟨r, hc⟩, _⟩
  · rw [hstore]
  · exact Setting.find?_created hc hkey

/-- A call leaves everything but its player's record as it was. -/
theorem Call.find?_made (c : Call) (hkey : key ≠ recordKey v.ledger.player houseTag) :
    (c.made s v).2.store.find? key = v.store.find? key := by
  cases c.leaves s v with
  | written hd hw =>
    obtain ⟨-, wall, -, hwrite⟩ := Setting.written_ok hw
    exact (Store.find?_write_ne hwrite hkey).trans (hd.find?_store hkey)
  | unwritten hd _ hstore =>
    rw [hstore]
    exact hd.find?_store hkey
  | enrolled he => exact Setting.find?_enrolled he hkey
  | stranded hst => exact hst.created.elim fun _ hc => Setting.find?_created hc hkey
  | looked hstore => rw [hstore]

/-- Nobody else holds more or less after a call. -/
theorem Call.holdings_made (c : Call) {player : String} (hne : accountName player ≠ accountName v.ledger.player) :
    (c.made s v).2.store.holdings player = v.store.holdings player :=
  Store.holdings_of_find? (c.find?_made (mt recordKey_inj.mp hne))

end

/-! ## A visit to try calls on -/

/-- Ann at the shipped house with the money for it, and nobody with a record. -/
def annAtGreyton : Visit := { store := .empty, ledger := { player := "Ann", house := "greyton" }, purse := 2000000 }

/-- The shipped house, with the calls of the store in `outage` failing. -/
def shippedWith (outage : Outage) : Setting := { catalog := .shipped, now := some 1700000000, outage }

end HouseLease
