/-
  HouseLease.Proofs.Visit.Kindred — a call reads its own player's record alone.

  Visits are kindred if the store of each has the same record for its own player, whatever else is
  in it and whoever that is. To be kindred is a likeness in every setting (`Kindred.likeness`), so
  kindred visits answer alike and stay kindred; only asked for its player each ledger gives its own
  name (`Kindred.made`).
-/

import HouseLease.Proofs.Visit.Likeness

namespace HouseLease

/-! ## Two stores, one record -/

/-- Under whatever key, in whatever store, the same record is written or too long to be. -/
theorem Store.write_alike (a b : Store) (p q tag : String) (wall : Instant) (houses : String) (last : Option String) :
    (∃ f, a.write wall p tag houses last = .error f ∧ b.write wall q tag houses last = .error f) ∨
      ∃ a' b', a.write wall p tag houses last = .ok a' ∧ b.write wall q tag houses last = .ok b' ∧
        b'.find? (recordKey q tag) = a'.find? (recordKey p tag) := by
  unfold Store.write
  cases Record.toBytes? ⟨houses, last, wall, schemaVersion⟩ with
  | none => exact Or.inl ⟨_, rfl, rfl⟩
  | some value => exact Or.inr ⟨_, _, rfl, rfl, by rw [Store.find?_insert, Store.find?_insert, if_pos rfl, if_pos rfl]⟩

theorem Store.create_alike (a b : Store) (p q tag : String) (wall : Instant) :
    (∃ f, a.create wall p tag = .error f ∧ b.create wall q tag = .error f) ∨
      ∃ new new', a.create wall p tag = .ok new ∧ b.create wall q tag = .ok new' ∧
        new.1 = new'.1 ∧ new'.2.find? (recordKey q tag) = new.2.find? (recordKey p tag) := by
  rcases a.write_alike b p q tag wall (blankRecord wall).houses (blankRecord wall).lastHouse with
    ⟨f, ha, hb⟩ | ⟨a', b', ha, hb, hrecord⟩
  · exact Or.inl ⟨f, by simp [create, ha, bind, Except.bind], by simp [create, hb, bind, Except.bind]⟩
  · exact Or.inr ⟨(blankRecord wall, a'), (blankRecord wall, b'),
      by simp [create, ha, bind, Except.bind, pure, Except.pure],
      by simp [create, hb, bind, Except.bind, pure, Except.pure], rfl, hrecord⟩

/-- What is done alike at any time is placed alike. -/
theorem Setting.placing_alike {α : Type} {alike : α → α → Prop} {act act' : Instant → Except Fault α} (s : Setting)
    (down : Bool) (hact : ∀ wall, (∃ f, act wall = .error f ∧ act' wall = .error f) ∨
      ∃ a a', act wall = .ok a ∧ act' wall = .ok a' ∧ alike a a') :
    (∃ e, s.placing down act = .error e ∧ s.placing down act' = .error e) ∨
      ∃ a a', s.placing down act = .ok a ∧ s.placing down act' = .ok a' ∧ alike a a' := by
  unfold Setting.placing
  split
  · exact Or.inl ⟨_, rfl, rfl⟩
  · cases s.wall with
    | none => exact Or.inl ⟨_, rfl, rfl⟩
    | some wall =>
      rcases hact wall with ⟨f, ha, hb⟩ | ⟨a, a', ha, hb, halike⟩
      · exact Or.inl ⟨.fault f, by simp [ha], by simp [hb]⟩
      · exact Or.inr ⟨a, a', by simp [ha], by simp [hb], halike⟩

theorem Setting.written_alike (s : Setting) (a b : Store) (p q : String) (h : Holdings) :
    (∃ e, s.written a p h = .error e ∧ s.written b q h = .error e) ∨
      ∃ a' b', s.written a p h = .ok a' ∧ s.written b q h = .ok b' ∧
        b'.find? (recordKey q houseTag) = a'.find? (recordKey p houseTag) :=
  s.placing_alike s.outage.put fun wall =>
    a.write_alike b p q houseTag wall (HouseList.write h.leases) h.lastHouse

/-- The flush fails for both or for neither. -/
theorem Setting.wrote_alike (s : Setting) {a b : Store} {p q : String}
    (hrecord : b.find? (recordKey q houseTag) = a.find? (recordKey p houseTag)) (h : Holdings) :
    ∃ stop a' b', s.wrote a p h = (stop, a') ∧ s.wrote b q h = (stop, b') ∧
      b'.find? (recordKey q houseTag) = a'.find? (recordKey p houseTag) := by
  unfold Setting.wrote
  rcases s.written_alike a b p q h with ⟨e, ha, hb⟩ | ⟨a', b', ha, hb, hplaced⟩ <;> rw [ha, hb]
  · exact ⟨_, _, _, rfl, rfl, hrecord⟩
  · exact ⟨_, _, _, rfl, rfl, hplaced⟩

theorem Setting.created_alike (s : Setting) (v w : Visit) :
    (∃ e, s.created v = .error e ∧ s.created w = .error e) ∨
      ∃ r store store', s.created v = .ok (r, store) ∧ s.created w = .ok (r, store') ∧
        store'.find? (recordKey w.ledger.player houseTag) = store.find? (recordKey v.ledger.player houseTag) := by
  rcases s.placing_alike s.outage.create fun wall =>
      v.store.create_alike w.store v.ledger.player w.ledger.player houseTag wall with
    hfailed | ⟨⟨r, store⟩, ⟨r', store'⟩, hv, hw, hsame, hrecord⟩
  · exact Or.inl hfailed
  · cases hsame
    exact Or.inr ⟨r, store, store', hv, hw, hrecord⟩

/-! ## Kindred visits -/

/-- The players have the same record; other records, players and log apart all is equal. -/
structure Kindred (v w : Visit) : Prop where
  house : w.ledger.house = v.ledger.house
  copy : w.ledger.copy = v.ledger.copy
  purse : w.purse = v.purse
  record : w.store.find? (recordKey w.ledger.player houseTag) = v.store.find? (recordKey v.ledger.player houseTag)

namespace Kindred

variable {s : Setting} {v w : Visit}

theorem held (h : Kindred v w) : s.held w = s.held v := by
  have hholdings := Store.holdings_of_find? h.record
  simp only [Setting.held, Visit.held, h.copy, hholdings]

theorem copied {store store' : Store} (h : Kindred v w)
    (hrecord : store'.find? (recordKey w.ledger.player houseTag) = store.find? (recordKey v.ledger.player houseTag))
    (held : Holdings) (log log' : List LogLine) : Kindred (v.copied store held log) (w.copied store' held log') :=
  ⟨h.house, rfl, h.purse, hrecord⟩

theorem likeness (s : Setting) : Likeness s Kindred where
  house h := h.house
  purse h := h.purse
  held h := h.held
  withLog _ _ h := ⟨h.house, h.copy, h.purse, h.record⟩
  withPurse _ h := ⟨h.house, h.copy, rfl, h.record⟩
  rebind _ h := ⟨rfl, h.copy, h.purse, h.record⟩
  consulted _ _ h _ := ⟨h.house, rfl, h.purse, h.record⟩
  created := by
    intro v w h _
    rcases s.created_alike v w with hfailed | ⟨r, store, store', hc, hc', hrecord⟩
    · exact Or.inl hfailed
    · exact Or.inr ⟨r, store, store', hc, hc', fun log log' =>
        ⟨h.copied hrecord .empty log log', ⟨h.house, rfl, h.purse, hrecord⟩⟩⟩
  wrote := by
    intro v w k h
    obtain ⟨stop, store, store', hv, hw, hrecord⟩ := s.wrote_alike h.record k
    exact ⟨stop, store, store', hv, hw, h.copied hrecord k _ _⟩

/-- A call does to kindred visits the same, and answers alike unless it asks for the player. -/
theorem made (s : Setting) (c : Call) (h : Kindred v w) :
    Kindred (c.made s v).2 (c.made s w).2 ∧
      ((c.made s w).1.answer = (c.made s v).1.answer ∨
        c = .player ∧ (c.made s v).1.answer = .ok (.text v.ledger.player) ∧
          (c.made s w).1.answer = .ok (.text w.ledger.player)) := by
  by_cases hc : c = .player
  · subst hc
    exact ⟨h, Or.inr ⟨rfl, rfl, rfl⟩⟩
  · have hr := (likeness s).run c (fun hplayer => absurd hplayer hc) h
    unfold Call.made
    generalize c.run s v = r at hr
    generalize c.run s w = r' at hr
    cases hr with
    | ok h' => exact ⟨h', Or.inl rfl⟩
    | error h' => exact ⟨h', Or.inl rfl⟩

/-- Stores that differ in other records still do just that after a call, if the players have one account. -/
theorem find?_made (h : Kindred v w) (haccount : accountName w.ledger.player = accountName v.ledger.player) (s : Setting)
    (c : Call) {key : Text.Bytes}
    (hkey : key ≠ recordKey v.ledger.player houseTag → w.store.find? key = v.store.find? key) :
    (c.made s w).2.store.find? key = (c.made s v).2.store.find? key := by
  have hsame : recordKey w.ledger.player houseTag = recordKey v.ledger.player houseTag := recordKey_inj.mpr haccount
  by_cases hown : key = recordKey v.ledger.player houseTag
  · have hrecord := (h.made s c).1.record
    rw [c.player_made, c.player_made, hsame] at hrecord
    rw [hown]
    exact hrecord
  · rw [c.find?_made hown, c.find?_made (hsame ▸ hown)]
    exact hkey hown

end Kindred

end HouseLease
