/-
  HouseLease.Proofs.Record.Rewriting — what a store answers after a write.

  The bytes of a record are read back, whatever follows them (`ofBytes?_toBytes?`); only the
  date may come back as another instant at the same moment. A written key has the new value
  and every other key keeps its own (`find?_insert`). So a player whose holdings were
  written holds just these, and nobody else is touched (`holdings_write`); a second write leaves nothing
  of the first (`write_write`). What a record says are its two texts, whatever its date (`texts`).
-/

import HouseLease.Proofs.Calendar.RecordDate
import HouseLease.Proofs.Record.ListText
import HouseLease.Record.Store

namespace HouseLease

open Text (Bytes)

/-! ## Records -/

namespace Record

theorem takeLastHouse?_lastHouseBytes? {last : Option String} {bs : Bytes} (h : lastHouseBytes? last = some bs)
    (rest : Bytes) : takeLastHouse? (bs ++ rest) = some (last, rest) := by
  cases last with
  | none => cases h; rfl
  | some s =>
    obtain ⟨block, hb, rfl⟩ := Option.map_eq_some_iff.mp h
    simp [takeLastHouse?, takeText?_textBytes? hb]

theorem ofBytes?_toBytes? {r : Record} {bs : Bytes} (h : r.toBytes? = some bs) (rest : Bytes) :
    ∃ j, ofBytes? (bs ++ rest) = some { r with updatedAt := j } := by
  simp only [toBytes?, Option.bind_eq_bind, Option.bind_eq_some_iff] at h
  obtain ⟨houses, hh, last, hl, date, hd, h⟩ := h
  cases h
  obtain ⟨j, hj, -⟩ := Instant.ofText?_recordText r.updatedAt
  refine ⟨j, ?_⟩
  simp [ofBytes?, takeText?_textBytes? hh, takeLastHouse?_lastHouseBytes? hl, takeText?_textBytes? hd, hj]

end Record

/-! ## Keys and values -/

/-- The name a player's record is kept under. -/
def accountName (player : String) : String := player.map Char.toLower

theorem recordKey_inj {p q tag : String} : recordKey p tag = recordKey q tag ↔ accountName p = accountName q := by
  constructor
  · intro h
    have h := congrArg String.toList (Text.bytes_injective h)
    simp only [String.toList_append, List.append_assoc, List.append_cancel_left_eq] at h
    rw [← List.append_assoc, ← List.append_assoc, List.append_cancel_right_eq, List.append_cancel_right_eq] at h
    exact String.toList_injective h
  · intro h
    unfold recordKey
    rw [show p.map Char.toLower = q.map Char.toLower from h]

theorem lookup_placeEntry (key value k : Bytes) (es : List (Bytes × Bytes)) :
    (placeEntry key value es).lookup k = if k = key then some value else es.lookup k := by
  induction es with
  | nil => by_cases h : k = key <;> simp [placeEntry, h]
  | cons e es ih =>
    obtain ⟨k', v'⟩ := e
    rw [placeEntry]
    by_cases hk : k = key
    · subst hk
      split
      · simp
      · split
        · simp
        · rename_i hne
          have hb : (k == k') = false := beq_eq_false_iff_ne.mpr hne
          simpa [List.lookup_cons, hb] using ih
    · have hb : (k == key) = false := beq_eq_false_iff_ne.mpr hk
      rw [if_neg hk] at ih ⊢
      split
      · simp [List.lookup_cons, hb]
      · split
        · rename_i he
          subst he
          simp [List.lookup_cons, hb]
        · simp [List.lookup_cons, ih]

theorem placeEntry_placeEntry (key value value' : Bytes) (es : List (Bytes × Bytes)) :
    placeEntry key value' (placeEntry key value es) = placeEntry key value' es := by
  induction es with
  | nil => simp [placeEntry, List.lt_irrefl]
  | cons e es ih =>
    obtain ⟨k, v⟩ := e
    by_cases hlt : key < k
    · simp [placeEntry, hlt, List.lt_irrefl]
    · by_cases heq : key = k
      · subst heq
        simp [placeEntry, List.lt_irrefl]
      · simp [placeEntry, hlt, heq, ih]

namespace Store

theorem find?_insert (s : Store) (key value k : Bytes) :
    (s.insert key value).find? k = if k = key then some value else s.find? k :=
  lookup_placeEntry key value k s.entries

/-! ## Writes -/

theorem write_eq_ok {s s' : Store} {wall : Instant} {player tag houses : String} {last : Option String}
    (h : s.write wall player tag houses last = .ok s') :
    ∃ value, Record.toBytes? ⟨houses, last, wall, schemaVersion⟩ = some value ∧
      s' = s.insert (recordKey player tag) value := by
  unfold write at h
  split at h
  · rename_i value hv
    cases h
    exact ⟨value, hv, rfl⟩
  · cases h

/-- A write fails on nothing but the length of the record. -/
theorem write_eq_error {s : Store} {wall : Instant} {player tag houses : String} {last : Option String} {f : Fault}
    (h : s.write wall player tag houses last = .error f) : f = .recordTooLong := by
  unfold write at h
  split at h
  · cases h
  · cases h
    rfl

theorem find?_write_ne {s s' : Store} {wall : Instant} {player tag houses : String} {last : Option String}
    (h : s.write wall player tag houses last = .ok s') {key : Bytes} (hk : key ≠ recordKey player tag) :
    s'.find? key = s.find? key := by
  obtain ⟨value, -, rfl⟩ := write_eq_ok h
  rw [find?_insert, if_neg hk]

theorem fetch_write {s s' : Store} {wall : Instant} {player tag houses : String} {last : Option String}
    (h : s.write wall player tag houses last = .ok s') {q : String} (hq : accountName q = accountName player) :
    ∃ j, s'.fetch q tag = .ok (some ⟨houses, last, j, schemaVersion⟩) := by
  obtain ⟨value, hv, rfl⟩ := write_eq_ok h
  obtain ⟨j, hj⟩ := Record.ofBytes?_toBytes? hv []
  rw [List.append_nil] at hj
  refine ⟨j, ?_⟩
  simp [fetch, find?_insert, recordKey_inj.mpr hq, judge, hj, Except.map]

theorem fetch_write_ne {s s' : Store} {wall : Instant} {player tag houses : String} {last : Option String}
    (h : s.write wall player tag houses last = .ok s') {q : String} (hq : accountName q ≠ accountName player) :
    s'.fetch q tag = s.fetch q tag := by
  unfold fetch
  rw [find?_write_ne h (mt recordKey_inj.mp hq)]

/-- Of two records written for a player the second is left, as if the first had not been. -/
theorem write_write {s s' s'' : Store} {wall wall' : Instant} {player tag houses houses' : String}
    {last last' : Option String} (h : s.write wall player tag houses last = .ok s')
    (h' : s'.write wall' player tag houses' last' = .ok s'') : s.write wall' player tag houses' last' = .ok s'' := by
  obtain ⟨value, -, rfl⟩ := write_eq_ok h
  obtain ⟨value', hv', rfl⟩ := write_eq_ok h'
  simp [write, hv', insert, placeEntry_placeEntry]

theorem create_eq_ok {s s' : Store} {wall : Instant} {player tag : String} {r : Record}
    (h : s.create wall player tag = .ok (r, s')) :
    r = blankRecord wall ∧ s.write wall player tag (HouseList.write []) none = .ok s' := by
  simp only [create, bind, Except.bind, pure, Except.pure] at h
  split at h
  · cases h
  · rename_i s'' hw
    cases h
    exact ⟨rfl, hw⟩

theorem create_eq_error {s : Store} {wall : Instant} {player tag : String} {f : Fault}
    (h : s.create wall player tag = .error f) : f = .recordTooLong := by
  simp only [create, bind, Except.bind, pure, Except.pure] at h
  split at h
  · rename_i f' hw
    cases h
    exact write_eq_error hw
  · cases h

/-! ## Holdings -/

/-- What the store says a player holds; `none` for a player without a record. -/
def holdings (s : Store) (player : String) : Except Fault (Option Holdings) :=
  match s.fetch player houseTag with
  | .error f => .error f
  | .ok none => .ok none
  | .ok (some r) => (Holdings.ofRecord r).map some

theorem holdings_of_account (s : Store) {p q : String} (h : accountName p = accountName q) :
    s.holdings p = s.holdings q := by
  unfold holdings fetch
  rw [recordKey_inj.mpr h]

theorem holdings_write {s s' : Store} {wall : Instant} {player : String} {h : Holdings}
    (hw : s.write wall player houseTag (HouseList.write h.leases) h.lastHouse = .ok s') (q : String) :
    s'.holdings q = if accountName q = accountName player then .ok (some h) else s.holdings q := by
  unfold holdings
  by_cases hq : accountName q = accountName player
  · obtain ⟨j, hj⟩ := fetch_write hw hq
    rw [if_pos hq, hj]
    simp [Holdings.ofRecord, HouseList.read?_write, Except.map]
  · rw [if_neg hq, fetch_write_ne hw hq]

theorem holdings_create {s s' : Store} {wall : Instant} {player : String} {r : Record}
    (hc : s.create wall player houseTag = .ok (r, s')) (q : String) :
    s'.holdings q = if accountName q = accountName player then .ok (some .empty) else s.holdings q :=
  holdings_write (h := .empty) (create_eq_ok hc).2 q

end Store

theorem ofRecord_blankRecord (wall : Instant) : Holdings.ofRecord (Store.blankRecord wall) = .ok .empty := by
  simp [Holdings.ofRecord, Store.blankRecord, Holdings.toRecord, Holdings.empty, HouseList.read?_write]

/-! ## The texts of a record -/

/-- House list and last house, in the record of a player who has one. -/
def Store.texts (s : Store) (player : String) : Except Fault (Option (String × Option String)) :=
  (s.fetch player houseTag).map fun record => record.map fun r => (r.houses, r.lastHouse)

theorem Store.texts_write {s s' : Store} {wall : Instant} {player houses : String} {last : Option String}
    (h : s.write wall player houseTag houses last = .ok s') (q : String) :
    s'.texts q = if accountName q = accountName player then .ok (some (houses, last)) else s.texts q := by
  unfold texts
  by_cases hq : accountName q = accountName player
  · obtain ⟨j, hj⟩ := fetch_write h hq
    rw [if_pos hq, hj]
    rfl
  · rw [if_neg hq, fetch_write_ne h hq]

theorem Store.holdings_of_texts {a b : Store} {player : String} (h : a.texts player = b.texts player) :
    a.holdings player = b.holdings player := by
  unfold Store.texts at h
  unfold Store.holdings
  cases ha : a.fetch player houseTag with
  | error f =>
    cases hb : b.fetch player houseTag with
    | error f' =>
      rw [ha, hb] at h
      cases h
      rfl
    | ok r =>
      rw [ha, hb] at h
      cases h
  | ok r =>
    cases hb : b.fetch player houseTag with
    | error f =>
      rw [ha, hb] at h
      cases h
    | ok r' =>
      rw [ha, hb] at h
      have h := Except.ok.inj h
      cases r with
      | none =>
        cases r' with
        | none => rfl
        | some r' => cases h
      | some r =>
        cases r' with
        | none => cases h
        | some r' =>
          obtain ⟨hhouses, hlast⟩ := Prod.mk.inj (Option.some.inj h)
          simp only [Holdings.ofRecord, hhouses, hlast]

end HouseLease
