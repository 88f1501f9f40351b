/-
  HouseLease.Proofs.World.Growth — stored lists only grow.

  A ledger writes the whole list from its own copy, which may be ahead of the record after a write that
  failed before its flush, and must not be behind it. `Ahead` says that it is not: whatever the copy
  has, the record could have grown into. A call leaves the ledger that makes it ahead (`Ahead.made`),
  since it writes what it showed with a change that only adds (`Amended.continued`).

  It leaves every other copy of the record behind, so the copies of one account must take turns:
  `World.oneAtATime` asks that a call be made only when the account's other ledgers have no copy yet
  or make no further call. Then lists only grow, between any two moments of a run
  (`stored_lists_grow`).
-/

import HouseLease.Proofs.Visit.Amending
import HouseLease.Proofs.World.Steps

namespace HouseLease

/-! ## Growth -/

/-- Every lease of `old` is in `new` at its place, paid for as long at least. -/
def Continued (old new : List Lease) : Prop :=
  ∀ (i : Nat) (l : Lease), old[i]? = some l →
    ∃ l', new[i]? = some l' ∧ l'.house = l.house ∧ l.paidUntil ≤ l'.paidUntil

theorem Continued.refl (ls : List Lease) : Continued ls ls := fun _ l h => ⟨l, h, rfl, Int64.le_refl _⟩

theorem Continued.trans {a b c : List Lease} (h : Continued a b) (h' : Continued b c) : Continued a c := by
  intro i l hl
  obtain ⟨l', hl', hhouse, hle⟩ := h i l hl
  obtain ⟨l'', hl'', hhouse', hle'⟩ := h' i l' hl'
  exact ⟨l'', hl'', hhouse'.trans hhouse, Int64.le_trans hle hle'⟩

theorem Continued.nil (ls : List Lease) : Continued [] ls := nofun

theorem Continued.append (ls more : List Lease) : Continued ls (ls ++ more) := by
  intro i l hl
  obtain ⟨hi, -⟩ := List.getElem?_eq_some_iff.mp hl
  exact ⟨l, (List.getElem?_append_left hi).trans hl, rfl, Int64.le_refl _⟩

theorem Continued.cons {l l' : Lease} {ls ls' : List Lease} (hhouse : l'.house = l.house)
    (hle : l.paidUntil ≤ l'.paidUntil) (h : Continued ls ls') : Continued (l :: ls) (l' :: ls') := by
  intro i k hk
  cases i with
  | zero =>
    cases hk
    exact ⟨l', rfl, hhouse, hle⟩
  | succ i => exact h i k hk

theorem addDays_le {t t' : Int64} {days : UInt32} (h : addDays t days = .ok t') : t ≤ t' := by
  have hsum := checked_eq_ok.mp h
  refine Int64.le_iff_toInt_le.mpr ?_
  unfold daySeconds at hsum
  omega

theorem Continued.extendFirst {house : String} {l : Lease} {t : Int64} {ls : List Lease}
    (hl : ls.find? (·.house == house) = some l) (hle : l.paidUntil ≤ t) : Continued ls (extendFirst house t ls) := by
  induction ls with
  | nil => cases hl
  | cons k ks ih =>
    rw [HouseLease.extendFirst]
    rw [List.find?_cons] at hl
    cases hk : k.house == house with
    | true =>
      rw [hk] at hl
      cases hl
      exact .cons rfl hle (.refl ks)
    | false =>
      rw [hk] at hl
      exact .cons rfl (Int64.le_refl _) (ih hl)

theorem Amended.continued {ls ls' : List Lease} (h : Amended ls ls') : Continued ls ls' := by
  cases h with
  | same => exact .refl ls
  | acquired _ => exact .append ls _
  | extended hl ht => exact .extendFirst hl (addDays_le ht)

/-- A player without a record may come to hold anything; a record stays, and its list only grows. -/
inductive Grown : Option Holdings → Option Holdings → Prop
  | fresh {new : Option Holdings} : Grown none new
  | kept {h h' : Holdings} : Continued h.leases h'.leases → Grown (some h) (some h')

namespace Grown

variable {a b c : Option Holdings}

theorem refl (a : Option Holdings) : Grown a a := by
  cases a with
  | none => exact .fresh
  | some h => exact .kept (.refl _)

theorem trans (h : Grown a b) (h' : Grown b c) : Grown a c := by
  cases h with
  | fresh => exact .fresh
  | kept h =>
    cases h' with
    | kept h' => exact .kept (h.trans h')

theorem continued {h : Holdings} (ha : Grown a b) (hb : Continued (leasesOf b) h.leases) : Grown a (some h) := by
  cases ha with
  | fresh => exact .fresh
  | kept ha => exact .kept (ha.trans hb)

end Grown

/-- Both stores can be read, and every record of the first is in the second as it was or grown. -/
def Store.GrownTo (a b : Store) : Prop :=
  ∀ player, ∃ old new, a.holdings player = .ok old ∧ b.holdings player = .ok new ∧ Grown old new

namespace Store.GrownTo

variable {a b c : Store}

theorem trans (h : a.GrownTo b) (h' : b.GrownTo c) : a.GrownTo c := by
  intro player
  obtain ⟨old, mid, hold, hmid, hgrown⟩ := h player
  obtain ⟨mid', new, hmid', hnew, hgrown'⟩ := h' player
  cases hmid.symm.trans hmid'
  exact ⟨old, new, hold, hnew, hgrown.trans hgrown'⟩

/-- A store that was grown to is readable. -/
theorem readable (h : a.GrownTo b) : b.GrownTo b := by
  intro player
  obtain ⟨_, new, _, hnew, _⟩ := h player
  exact ⟨new, new, hnew, hnew, .refl new⟩

end Store.GrownTo

/-! ## Ledgers ahead of the store -/

/-- The player's record can be read, and the ledger's copy is not behind it. A ledger may know nothing of a record as
    long as that holds nothing. -/
structure Ahead (store : Store) (l : Ledger) (stored : Option Holdings) : Prop where
  record : store.holdings l.player = .ok stored
  copied : ∀ held, l.copy = .of held → Continued (leasesOf stored) (leasesOf held)

theorem Copy.of_injective {a b : Option Holdings} (h : Copy.of a = Copy.of b) : a = b := by
  cases a <;> cases b <;> simp_all [Copy.of]

namespace Ahead

theorem of_unread {a b : Store} (h : a.GrownTo b) {l : Ledger} (hcopy : l.copy = .unread) :
    ∃ stored, Ahead b l stored := by
  obtain ⟨_, stored, _, hstored, _⟩ := h l.player
  refine ⟨stored, hstored, fun held hheld => ?_⟩
  rw [hcopy] at hheld
  cases held <;> cases hheld

theorem of_copy {store : Store} {l : Ledger} {stored held : Option Holdings} (h : store.holdings l.player = .ok stored)
    (hcopy : l.copy = .of held) (hc : Continued (leasesOf stored) (leasesOf held)) : Ahead store l stored := by
  refine ⟨h, fun held' hcopy' => ?_⟩
  cases Copy.of_injective (hcopy.symm.trans hcopy')
  exact hc

theorem of_present {store : Store} {l : Ledger} {stored : Option Holdings} {h : Holdings}
    (hrecord : store.holdings l.player = .ok stored) (hcopy : l.copy = .present h)
    (hc : Continued (leasesOf stored) h.leases) : Ahead store l stored :=
  of_copy hrecord (show l.copy = .of (some h) from hcopy) hc

variable {s : Setting} {v : Visit} {old : Option Holdings}

/-- What the ledger shows, the record could have grown into. -/
theorem held {held : Option Holdings} (h : Ahead v.store v.ledger old) (hh : s.held v = .ok held) :
    Continued (leasesOf old) (leasesOf held) := by
  have hh := Setting.held_eq hh
  unfold Visit.held at hh
  split at hh
  · rename_i hcopy
    cases hh
    exact h.copied (some _) hcopy
  · rename_i hcopy
    cases hh
    exact h.copied none hcopy
  · cases h.record.symm.trans hh
    exact .refl _

/-- Where a ledger shows no record, a new one takes nothing away. -/
theorem created {r : Record} {store : Store} (h : Ahead v.store v.ledger old) (hnone : s.held v = .ok none)
    (hc : s.created v = .ok (r, store)) :
    store.holdings v.ledger.player = .ok (some .empty) ∧ Grown old (some .empty) := by
  obtain ⟨-, wall, -, hcreate⟩ := Setting.created_ok hc
  exact ⟨by rw [Store.holdings_create hcreate, if_pos rfl], (Grown.refl old).continued (h.held hnone)⟩

/-- The record that is found or made before a list is written, which could have grown into that list. -/
theorem drafted {c : Call} {d : Draft} (h : Ahead v.store v.ledger old) (hd : Drafts s v c d) :
    ∃ new, d.store.holdings v.ledger.player = .ok new ∧ Grown old new ∧
      Continued (leasesOf new) d.holdings.leases := by
  rcases hd.source with ⟨k, -, hstore⟩ | ⟨hnone, -, ⟨r, hc⟩, -⟩
  · obtain ⟨held, hh, ham⟩ := hd.amended
    exact ⟨old, hstore ▸ h.record, .refl old, (h.held hh).trans ham.continued⟩
  · obtain ⟨hrecord, hgrown⟩ := h.created hnone hc
    exact ⟨_, hrecord, hgrown, .nil _⟩

theorem enrolled {k : Holdings} {store : Store} (h : Ahead v.store v.ledger old)
    (he : s.enrolled v = .ok (k, store)) :
    ∃ new, store.holdings v.ledger.player = .ok new ∧ Grown old new ∧ Continued (leasesOf new) k.leases := by
  rcases Setting.enrolled_cases he with ⟨hk, rfl⟩ | ⟨hnone, rfl, r, hc⟩
  · exact ⟨old, h.record, .refl old, h.held hk⟩
  · obtain ⟨hrecord, hgrown⟩ := h.created hnone hc
    exact ⟨_, hrecord, hgrown, .refl _⟩

/-- A call leaves its ledger ahead, and the record as it was or grown. -/
theorem made (c : Call) (h : Ahead v.store v.ledger old) :
    ∃ new, Ahead (c.made s v).2.store (c.made s v).2.ledger new ∧ Grown old new := by
  have hplayer := c.player_made s v
  generalize (c.made s v).2 = w, c.leaves s v = hw at hplayer ⊢
  cases hw with
  | @written d hd hwrite hcopy =>
    obtain ⟨new, -, hold, hnew⟩ := h.drafted hd
    obtain ⟨-, wall, -, hput⟩ := Setting.written_ok hwrite
    have hrecord : w.store.holdings w.ledger.player = .ok (some d.holdings) := by
      rw [Store.holdings_write hput, if_pos (by rw [hplayer])]
    exact ⟨_, .of_present hrecord hcopy (.refl _), hold.continued hnew⟩
  | @unwritten d _ hd _ hstore hcopy =>
    obtain ⟨new, hrecord, hold, hnew⟩ := h.drafted hd
    exact ⟨new, .of_present (by rw [hplayer, hstore, hrecord]) hcopy hnew, hold⟩
  | @enrolled k he hcopy =>
    obtain ⟨new, hrecord, hold, hnew⟩ := h.enrolled he
    exact ⟨new, .of_present (by rw [hplayer, hrecord]) hcopy hnew, hold⟩
  | stranded hst =>
    obtain ⟨r, hc⟩ := hst.created
    obtain ⟨hrecord, hgrown⟩ := h.created hst.held hc
    have hahead : Ahead w.store w.ledger (some .empty) :=
      of_copy (by rw [hplayer, hrecord]) (show w.ledger.copy = .of none from hst.copy) (.refl _)
    exact ⟨_, hahead, hgrown⟩
  | looked hstore hcopy =>
    have hrecord : w.store.holdings w.ledger.player = .ok old := by rw [hplayer, hstore, h.record]
    rcases hcopy with hcopy | ⟨held, hheld, hcopy⟩
    · exact ⟨old, ⟨hrecord, fun held hh => h.copied held (hcopy.symm.trans hh)⟩, .refl old⟩
    · exact ⟨old, .of_copy hrecord hcopy (h.held hheld), .refl old⟩

end Ahead

/-- A call on a ledger that is ahead leaves every record as it was or grown, and its own ledger ahead. -/
theorem Ahead.call {s : Setting} {v : Visit} {old : Option Holdings} (c : Call) (h : Ahead v.store v.ledger old)
    (hstore : v.store.GrownTo v.store) :
    v.store.GrownTo (c.made s v).2.store ∧ ∃ new, Ahead (c.made s v).2.store (c.made s v).2.ledger new := by
  obtain ⟨new, hnew, hgrown⟩ := h.made (s := s) c
  refine ⟨fun player => ?_, new, hnew⟩
  by_cases haccount : accountName player = accountName v.ledger.player
  · refine ⟨old, new, ?_, ?_, hgrown⟩
    · rw [Store.holdings_of_account _ haccount, h.record]
    · rw [Store.holdings_of_account _ haccount, ← c.player_made s v, hnew.record]
  · rw [c.holdings_made haccount]
    exact hstore player

/-! ## Taking turns -/

/-- No call is made on the ledger of this name, until there is another under it. -/
def idle (name : String) : List (Setting × Step) → Bool
  | [] => true
  | (_, .openLedger k _ _) :: rest => k == name || idle name rest
  | (_, .call k _ _) :: rest => k != name && idle name rest
  | _ :: rest => idle name rest

namespace World

/-- The other ledgers of this one's account are done with, or have no copy. -/
def leftTo (w : World) (name : String) (rest : List (Setting × Step)) : Bool :=
  w.ledgers.all fun (k, other) =>
    k == name || idle k rest || other.copy == .unread ||
      (w.ledgers.lookup name).all (accountName other.player != accountName ·.player)

/-- Of the ledgers of one account one is in use at a time: a new one only after the one before it makes no further
    call. -/
def oneAtATime (w : World) : List (Setting × Step) → Bool
  | [] => true
  | (s, step) :: rest =>
    (match step with
      | .call name _ _ => w.leftTo name rest
      | _ => true) && (w.after s step).oneAtATime rest

/-- Every record can be read, and every ledger that is not done with is ahead of its own. -/
structure Tended (w : World) (rest : List (Setting × Step)) : Prop where
  readable : w.store.GrownTo w.store
  ahead : ∀ name l, w.ledgers.lookup name = some l → idle name rest = true ∨ ∃ stored, Ahead w.store l stored

section

variable {s : Setting} {w w' : World} {step : Step} {rest : List (Setting × Step)}

theorem leftTo_other {name k : String} {l other : Ledger} (h : w.leftTo name rest = true)
    (hl : w.ledgers.lookup name = some l) (hk : w.ledgers.lookup k = some other) (hne : k ≠ name)
    (haccount : accountName other.player = accountName l.player) : idle k rest = true ∨ other.copy = .unread := by
  obtain ⟨before, behind, hsplit, -⟩ := List.lookup_eq_some_iff.mp hk
  have hother := List.all_eq_true.mp h (k, other) (by simp [hsplit])
  simpa [hne, hl, haccount] using hother

theorem idle_of_idle_cons {name : String} (h : idle name ((s, step) :: rest) = true)
    (hnew : ∀ k player house, step ≠ .openLedger k player house) : idle name rest = true := by
  cases step with
  | openLedger k player house => exact absurd rfl (hnew k player house)
  | call k _ _ =>
    simp only [idle, Bool.and_eq_true] at h
    exact h.2
  | openPurse _ _ | pay _ _ | refund _ _ | balance _ | getRecord _ _ | createRecord _ _ | putRecord _ _ _ _ => exact h

theorem Tended.fresh (purses : List (String × Int64)) (steps : List (Setting × Step)) : Tended { purses } steps :=
  ⟨fun _ => ⟨none, none, rfl, rfl, .fresh⟩, fun _ _ hl => by cases hl⟩

theorem Tended.after (h : w.Tended ((s, step) :: rest)) (hb : step.bypasses = false)
    (hturn : w.oneAtATime ((s, step) :: rest) = true) :
    w.store.GrownTo (w.after s step).store ∧ (w.after s step).Tended rest := by
  generalize w.after s step = w', World.stepped s w hb = hstep
  cases hstep with
  | idle hnew hstore hledgers =>
    rw [hstore]
    refine ⟨h.readable, hstore ▸ h.readable, fun name l hl => ?_⟩
    rw [hstore]
    exact (h.ahead name l (hledgers ▸ hl)).imp_left (idle_of_idle_cons · hnew)
  | @opened name player house hstore hledgers =>
    rw [hstore]
    refine ⟨h.readable, hstore ▸ h.readable, fun k l hl => ?_⟩
    rw [hledgers, lookup_assign] at hl
    rw [hstore]
    split at hl
    · cases hl
      exact Or.inr (Ahead.of_unread h.readable rfl)
    · rename_i hk
      refine (h.ahead k l hl).imp_left fun hidle => ?_
      simpa [idle, Ne.symm hk] using hidle
  | @called name purse c l b hl hstore hledgers =>
    -- a ledger that makes a call is not done with, so it is ahead
    obtain ⟨old, hold⟩ : ∃ stored, Ahead w.store l stored := by
      rcases h.ahead name l hl with hidle | hahead
      · simp [idle] at hidle
      · exact hahead
    obtain ⟨hgrown, new, hnew⟩ := Ahead.call (s := s) (v := w.visit l b) c hold h.readable
    rw [← hstore] at hgrown hnew
    refine ⟨hgrown, hgrown.readable, fun k other hk => ?_⟩
    rw [hledgers, lookup_assign] at hk
    split at hk
    · cases hk
      exact Or.inr ⟨new, hnew⟩
    rename_i hne
    by_cases haccount : accountName other.player = accountName l.player
    · simp only [oneAtATime, Bool.and_eq_true] at hturn
      exact (leftTo_other hturn.1 hl hk hne haccount).imp_right (Ahead.of_unread hgrown)
    · refine (h.ahead k other hk).imp (idle_of_idle_cons · fun _ _ _ => Step.noConfusion) ?_
      rintro ⟨stored, hahead⟩
      refine ⟨stored, ?_, hahead.copied⟩
      rw [hstore, ← hahead.record]
      exact Call.holdings_made c (v := w.visit l b) haccount

theorem Tended.run {past future : List (Setting × Step)} (h : w.Tended (past ++ future))
    (hsteps : ∀ p ∈ past, p.2.bypasses = false) (hturns : w.oneAtATime (past ++ future) = true) :
    w.store.GrownTo (w.run past).2.store ∧ (w.run past).2.Tended future ∧
      (w.run past).2.oneAtATime future = true := by
  induction past generalizing w with
  | nil => exact ⟨h.readable, h, hturns⟩
  | cons p past ih =>
    obtain ⟨s, step⟩ := p
    obtain ⟨hb, hrest⟩ := List.forall_mem_cons.mp hsteps
    obtain ⟨hgrown, hafter⟩ := h.after hb hturns
    simp only [List.cons_append, oneAtATime, Bool.and_eq_true] at hturns
    obtain ⟨hgrown', hend⟩ := ih hafter hrest hturns.2
    rw [run_cons]
    exact ⟨hgrown.trans hgrown', hend⟩

end

end World

/-- Whatever fails and however the clock goes: as long as the ledgers of an account take turns, the list stored for a
    player at one moment of a run is at any later moment still there, lease by lease at the same place and paid for as
    long at least, with new houses only behind it; and a record, once there, stays. -/
theorem stored_lists_grow {purses : List (String × Int64)} {past future : List (Setting × Step)}
    (hsteps : ∀ p ∈ past ++ future, p.2.bypasses = false)
    (hturns : World.oneAtATime { purses } (past ++ future) = true) (player : String) :
    ∃ old new, (World.run { purses } past).2.store.holdings player = .ok old ∧
      (World.run { purses } (past ++ future)).2.store.holdings player = .ok new ∧ Grown old new := by
  obtain ⟨-, htended, hturns⟩ :=
    (World.Tended.fresh purses _).run (fun p hp => hsteps p (List.mem_append_left _ hp)) hturns
  rw [← List.append_nil future] at htended hturns
  obtain ⟨hgrown, -⟩ := htended.run (fun p hp => hsteps p (List.mem_append_right _ hp)) hturns
  rw [World.run_append]
  exact hgrown player

/-- Ann's purchase is not written, only the record made for it; a day's fees then write both. -/
def annsFirstLedger : List (Setting × Step) :=
  [(shippedWith {}, .openLedger "old" "Ann" "greyton"), (shippedWith { put := true }, .call "old" none .purchase),
    (shippedWith {}, .call "old" none (.payFees 1))]

/-- On another ledger she pays again, at a clock that went back. -/
def annsNextLedger : List (Setting × Step) :=
  [(shippedWith {}, .openLedger "new" "ann" "greyton"), (shippedWith { get := true }, .call "new" none .hasHouse),
    ({ shippedWith {} with now := some 1600000000 }, .call "new" none (.payFees 2)),
    (shippedWith {}, .call "new" none .depart)]

theorem anns_list_grows :
    (World.run {} annsFirstLedger).2.store.holdings "Ann" = .ok (some ⟨[⟨"greyton", 1700950400⟩], none⟩) ∧
      (World.run {} (annsFirstLedger ++ annsNextLedger)).2.store.holdings "Ann"
        = .ok (some ⟨[⟨"greyton", 1701123200⟩], some "greyton"⟩) ∧
      ∃ old new, (World.run {} annsFirstLedger).2.store.holdings "Ann" = .ok old ∧
        (World.run {} (annsFirstLedger ++ annsNextLedger)).2.store.holdings "Ann" = .ok new ∧ Grown old new :=
  ⟨by decide +kernel, by decide +kernel, stored_lists_grow (by decide) (by decide +kernel) "Ann"⟩

/-- Two ledgers that do not take turns: the second, which saw no record, buys the house again, at a clock that
    went back. -/
def boughtAgain : List (Setting × Step) :=
  [(shippedWith {}, .openLedger "old" "Ann" "greyton"), (shippedWith {}, .openLedger "new" "ann" "greyton"),
    (shippedWith {}, .call "new" none .hasHouse), (shippedWith {}, .call "old" none .purchase),
    ({ shippedWith {} with now := some 1600000000 }, .call "new" none .purchase)]

example : World.oneAtATime {} boughtAgain = false ∧
    (World.run {} (boughtAgain.take 4)).2.store.holdings "Ann" = .ok (some ⟨[⟨"greyton", 1700864000⟩], none⟩) ∧
    (World.run {} boughtAgain).2.store.holdings "Ann" = .ok (some ⟨[⟨"greyton", 1600864000⟩], none⟩) := by
  decide +kernel

end HouseLease
