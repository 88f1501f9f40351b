/-
  HouseLease.Proofs.Visit.Faults — what a call that met a fault leaves behind.

  A fault comes before the call has a draft, or from writing the draft, or from flushing a record made
  for a player who had none (`Call.fault_cases`).
  - In the store it leaves nothing, with two exceptions (`store_after_fault`). Where a player without a
    record buys a house and something fails behind the new record, that record stays, and holds
    nothing (`BlankStays`). And what was put stays if only its flush failed: the store is then as
    after the same call with the flush succeeding (`Unflushed`).
  - In the ledger it leaves the draft. It leaves no trace just if the store is as it was and there was
    no draft, or the draft was what the ledger held already (`traceless_iff`). So a purchase that was
    refunded is still owned as far as the ledger goes (`a_refunded_house_is_kept`), and the next
    write stores it.
-/

import HouseLease.Proofs.Visit.Likeness

namespace HouseLease

/-! ## Where the fault came from -/

variable {s : Setting} {v w : Visit} {c : Call} {f : Fault}

/-- A call that had a draft met its fault in writing it. -/
theorem Drafts.fault {d : Draft} (hd : Drafts s v c d) (h : c.run s v = .error (.fault f) w) :
    ∃ store log, s.wrote d.store v.ledger.player d.holdings = (some (.fault f), store) ∧
      w = v.copied store d.holdings log := by
  obtain ⟨log, hrun⟩ := hd.run
  rw [h] at hrun
  unfold Draft.close at hrun
  rcases hw : s.wrote d.store v.ledger.player d.holdings with ⟨_ | e, store⟩
  · rw [hw] at hrun
    cases hrun
  · rw [hw] at hrun
    cases e with
    | fault f' =>
      cases hrun
      exact ⟨store, log, rfl, rfl⟩
    | overflow _ | noTime => cases hrun

/-- A fault finds a call that only looked, or one that had a draft, or one whose new record could not be flushed. -/
theorem Call.fault_cases (h : c.run s v = .error (.fault f) w) :
    ((∀ d, ¬ Drafts s v c d) ∧ Looked s v w) ∨ (∃ d, Drafts s v c d) ∨
      ((∀ d, ¬ Drafts s v c d) ∧ (c = .purchase ∨ c = .buyHouse) ∧
        ∃ reason, f = .storeUnflushed reason ∧ Stranded s v w reason) := by
  rcases Call.drafts_or_quiet s v c with ⟨d, _, hd, _⟩ | ⟨hn, hq | ⟨hbuying, reason, u, hrun, hst⟩⟩
  · exact Or.inr (Or.inl ⟨d, hd⟩)
  · rw [h] at hq
    cases hq with
    | error hhalts =>
      cases hhalts with
      | looked _ hl => exact Or.inl ⟨hn, hl⟩
      | abort _ hne => exact absurd rfl (hne f)
  · cases h.symm.trans hrun
    exact Or.inr (Or.inr ⟨hn, hbuying, reason, rfl, hst⟩)

/-! ## The store -/

theorem Setting.written_fault {store : Store} {player : String} {h : Holdings}
    (hw : s.written store player h = .error (.fault f)) : s.outage.put = true ∨ f = .recordTooLong := by
  cases Setting.written_error hw with
  | offline hput => exact Or.inl hput
  | tooLong => exact Or.inr rfl

/-- Whatever is placed in the store can be flushed. -/
structure Setting.Flushes (s : Setting) : Prop where
  create : s.outage.createFlush = none
  put : s.outage.putFlush = none

/-- The setting, but for puts that cannot be flushed. -/
def Setting.flushing (s : Setting) : Setting := { s with outage := { s.outage with putFlush := none } }

/-- A call comes to the same draft whether or not that can be flushed. -/
theorem Drafts.flushing {d : Draft} (hd : Drafts s v c d) : Drafts s.flushing v c d := by
  cases hd with
  | purchase hterms he hnew hnow ht => exact .purchase hterms he hnew hnow ht
  | payFees hh hp ht => exact .payFees hh hp ht
  | setLastHouse hh => exact .setLastHouse hh
  | depart hh => exact .depart hh
  | buyHouse hterms he hnew hpay hnow ht => exact .buyHouse hterms he hnew hpay hnow ht
  | prepayFees hterms hh hp hnow hsub hdays hne hmul hpay ht =>
    exact .prepayFees hterms hh hp hnow hsub hdays hne hmul hpay ht
  | checkExitFees hh hp hnow hlt hterms hmul hpay ht => exact .checkExitFees hh hp hnow hlt hterms hmul hpay ht

/-- A house was being bought for a player of whom the ledger knows no record. One was created, something failed behind
    it, and it stays: it holds nothing, and under the other keys nothing is new. -/
structure BlankStays (s : Setting) (v : Visit) (c : Call) (f : Fault) (w : Visit) : Prop where
  buying : c = .purchase ∨ c = .buyHouse
  unknown : s.held v = .ok none
  /-- The put of the house failed, or the flush of the new record. -/
  cause : s.outage.put = true ∨ f = .recordTooLong ∨
    ∃ reason, s.outage.createFlush = some reason ∧ f = .storeUnflushed reason
  online : s.outage.create = false
  created : ∃ wall r, s.wall = some wall ∧ v.store.create wall v.ledger.player houseTag = .ok (r, w.store)
  others : ∀ key, key ≠ recordKey v.ledger.player houseTag → w.store.find? key = v.store.find? key
  blank : w.store.holdings v.ledger.player = .ok (some .empty)

/-- What the call was to store was put and could not be flushed. The store is as the call leaves it where puts can be
    flushed; under the other keys nothing is new. -/
structure Unflushed (s : Setting) (v : Visit) (c : Call) (f : Fault) (w : Visit) : Prop where
  cause : ∃ reason, s.outage.putFlush = some reason ∧ f = .storeUnflushed reason
  placed : ∃ a u, c.run s.flushing v = .ok a u ∧ u.store = w.store
  others : ∀ key, key ≠ recordKey v.ledger.player houseTag → w.store.find? key = v.store.find? key

theorem BlankStays.of_created {r : Record} (hbuying : c = .purchase ∨ c = .buyHouse) (hh : s.held v = .ok none)
    (hcause : s.outage.put = true ∨ f = .recordTooLong ∨
      ∃ reason, s.outage.createFlush = some reason ∧ f = .storeUnflushed reason)
    (hcreated : s.created v = .ok (r, w.store)) : BlankStays s v c f w := by
  obtain ⟨hup, wall, hwall, hcreate⟩ := Setting.created_ok hcreated
  exact {
    buying := hbuying
    unknown := hh
    cause := hcause
    online := hup
    created := ⟨wall, r, hwall, hcreate⟩
    others := fun _ hkey => Setting.find?_created hcreated hkey
    blank := (Store.holdings_create hcreate v.ledger.player).trans (if_pos rfl) }

theorem Drafts.unflushed {d : Draft} {reason : String} (hd : Drafts s v c d) (hflush : s.outage.putFlush = some reason)
    (hplaced : s.written d.store v.ledger.player d.holdings = .ok w.store) :
    Unflushed s v c (.storeUnflushed reason) w where
  cause := ⟨reason, hflush, rfl⟩
  placed := by
    have hwrote : s.flushing.wrote d.store v.ledger.player d.holdings = (none, w.store) :=
      Setting.wrote_eq_none.mpr ⟨hplaced, rfl⟩
    obtain ⟨log, hrun⟩ := hd.flushing.run_of_wrote hwrote
    exact ⟨_, _, hrun, rfl⟩
  others key hkey := by
    obtain ⟨-, wall, -, hwrite⟩ := Setting.written_ok hplaced
    exact (Store.find?_write_ne hwrite hkey).trans (hd.find?_store hkey)

/-- After a fault the store is as it was, unless the record that was created for a player without one stays, or the
    record that was put and not flushed. -/
theorem store_after_fault (h : c.run s v = .error (.fault f) w) :
    w.store = v.store ∨ BlankStays s v c f w ∨ Unflushed s v c f w := by
  rcases Call.fault_cases h with ⟨-, hlook⟩ | ⟨d, hd⟩ | ⟨-, hbuying, reason, rfl, hst⟩
  · exact Or.inl hlook.store
  · obtain ⟨store, log, hw, rfl⟩ := hd.fault h
    rcases Setting.wrote_some hw with ⟨hfailed, rfl⟩ | ⟨reason, hflush, he, hplaced⟩
    · rcases hd.source with ⟨held, -, hstore⟩ | ⟨hh, hbuying, ⟨r, hcreated⟩, -⟩
      · exact Or.inl hstore
      · exact Or.inr (Or.inl (.of_created hbuying hh ((Setting.written_fault hfailed).imp_right Or.inl) hcreated))
    · cases he
      exact Or.inr (Or.inr (hd.unflushed hflush hplaced))
  · obtain ⟨r, hcreated⟩ := hst.created
    exact Or.inr (Or.inl (.of_created hbuying hst.held (Or.inr (Or.inr ⟨reason, hst.unflushed, rfl⟩)) hcreated))

theorem a_blank_record_stays :
    let bought := Call.buyHouse.made (shippedWith { put := true }) annAtGreyton
    bought.1.answer = .error (.fault .storeOffline) ∧
      (∀ key, key ≠ recordKey "Ann" houseTag → bought.2.store.find? key = none) ∧
      bought.2.store.holdings "Ann" = .ok (some .empty) := by
  intro bought
  have hfault : bought.1.answer = .error (.fault .storeOffline) := by decide +kernel
  refine ⟨hfault, ?_⟩
  rcases store_after_fault (Call.run_of_made hfault) with hsame | hstays | hunflushed
  · exact absurd hsame (by decide +kernel)
  · exact ⟨hstays.others, hstays.blank⟩
  · obtain ⟨reason, hflush, -⟩ := hunflushed.cause
    cases hflush

/-- Nobody is listed before a purchase that fails, and the player is after it. -/
theorem a_failed_purchase_is_listed :
    let bought := Call.purchase.made (shippedWith { put := true }) annAtGreyton
    bought.1.answer = .error (.fault .storeOffline) ∧ annAtGreyton.store.players houseTag = [] ∧
      bought.2.store.players houseTag = ["ann"] := by
  decide +kernel

/-- A purchase is put and not flushed: Ann is told that it failed and has her money back, and she has the house. -/
example :
    let bought := Call.buyHouse.made (shippedWith { putFlush := some "disk full" }) annAtGreyton
    bought.1 = ⟨.error (.fault (.storeUnflushed "disk full")), 2000000, "greyton"⟩ ∧
      bought.2.store.holdings "Ann" = .ok (some ⟨[⟨"greyton", 1700864000⟩], none⟩) := by
  decide +kernel

/-! ## The ledger -/

/-- What a ledger can be asked about its player. -/
def questions : List Call := [.hasHouse, .paidUntil, .isFeeExpired, .secondsRemaining, .leases, .lastHouse]

/-- Once the store works again `w` cannot be told from `v`: by no question, and by no run of calls,
    nor by what such a run stores. -/
structure Traceless (v w : Visit) : Prop where
  answers : ∀ t : Setting, t.outage = {} → ∀ q ∈ questions, (q.made t w).1.answer = (q.made t v).1.answer
  runs : ∀ calls : List (Setting × Call), (∀ p ∈ calls, p.1.outage = {}) →
    (w.calls calls).1 = (v.calls calls).1 ∧ (w.calls calls).2.store = (v.calls calls).2.store

theorem Shows.traceless (h : Shows v w) : Traceless v w where
  answers t ht q _ := by
    have hget : t.outage.get = false := by rw [ht]
    rw [(h.made hget q).1]
  runs calls hcalls := by
    obtain ⟨hshown, hend⟩ := h.calls fun p hp => show p.1.outage.get = false by rw [hcalls p hp]
    exact ⟨hshown, hend.store⟩

/-- The store answers, at no particular time. -/
def answering : Setting := { catalog := .shipped, now := none }

theorem leases_made {held : Option Holdings} (h : v.held = .ok held) :
    (Call.leases.made answering v).1.answer = .ok (.leases ((held.map (·.leases)).getD [])) := by
  have hh : answering.held v = .ok held := h
  obtain ⟨log, hl⟩ := Ledger.leases_ok hh
  simp [Call.made, Call.run, hl]

theorem lastHouse_made {held : Option Holdings} (h : v.held = .ok held) :
    (Call.lastHouse.made answering v).1.answer = .ok (.text? (held.bind (·.lastHouse))) := by
  have hh : answering.held v = .ok held := h
  obtain ⟨log, hl⟩ := Ledger.lastHouse_ok hh
  simp [Call.made, Call.run, hl]

/-- After a fault the call has left no trace just if the store is as it was, and what the call had for a draft, if
    anything, is what the ledger held already. -/
theorem traceless_iff (h : c.run s v = .error (.fault f) w) :
    Traceless v w ↔ w.store = v.store ∧ ∀ d, Drafts s v c d → v.held = .ok (some d.holdings) := by
  constructor
  · intro htrace
    refine ⟨(htrace.runs [] (by simp)).2, fun d hd => ?_⟩
    obtain ⟨store, log, -, rfl⟩ := hd.fault h
    have hleases := htrace.answers answering rfl .leases (by simp [questions])
    have hlast := htrace.answers answering rfl .lastHouse (by simp [questions])
    rw [leases_made (v.copied_held store d.holdings log)] at hleases
    rw [lastHouse_made (v.copied_held store d.holdings log)] at hlast
    rcases hd.source with ⟨held, hh, -⟩ | ⟨hh, -, -, hne⟩
    · rw [leases_made (Setting.held_eq hh)] at hleases
      rw [lastHouse_made (Setting.held_eq hh)] at hlast
      have hsame : d.holdings = ⟨held.leases, held.lastHouse⟩ := by
        rw [show held.leases = d.holdings.leases by simpa using hleases.symm,
          show held.lastHouse = d.holdings.lastHouse by simpa using hlast.symm]
      rw [Setting.held_eq hh, hsame]
    · rw [leases_made (Setting.held_eq hh)] at hleases
      exact absurd (by simpa using hleases) hne
  · intro ⟨hstore, hheld⟩
    rcases Call.fault_cases h with ⟨-, hlook⟩ | ⟨d, hd⟩ | ⟨-, -, reason, -, hst⟩
    · exact (Shows.of_looked hlook).traceless
    · obtain ⟨store, log, -, rfl⟩ := hd.fault h
      exact Shows.traceless ⟨hstore, rfl, rfl, rfl, (hheld d hd).symm⟩
    · refine Shows.traceless ⟨hstore, hst.player, hst.house, hst.purse, ?_⟩
      rw [Setting.held_eq hst.held, Visit.held, hst.copy]

/-- Where what is placed can be flushed, the second half brings the first. -/
theorem store_of_held (hs : s.Flushes)
    (h : c.run s v = .error (.fault f) w) (hheld : ∀ d, Drafts s v c d → v.held = .ok (some d.holdings)) :
    w.store = v.store := by
  rcases Call.fault_cases h with ⟨-, hlook⟩ | ⟨d, hd⟩ | ⟨-, -, reason, -, hst⟩
  · exact hlook.store
  · obtain ⟨store, log, hw, rfl⟩ := hd.fault h
    rcases Setting.wrote_some hw with ⟨-, rfl⟩ | ⟨reason, hflush, -⟩
    · rcases hd.source with ⟨_, _, hstore⟩ | ⟨hh, _⟩
      · exact hstore
      · cases (Setting.held_eq hh).symm.trans (hheld d hd)
    · cases hs.put.symm.trans hflush
  · cases hs.create.symm.trans hst.unflushed

/-- A payment that could not read the record leaves no trace. -/
theorem an_unread_record_is_untouched :
    let paid := (Call.payFees 5).made (shippedWith { get := true }) annAtGreyton
    paid.1.answer = .error (.fault .storeOffline) ∧ Traceless annAtGreyton paid.2 := by
  intro paid
  have hfault : paid.1.answer = .error (.fault .storeOffline) := by decide +kernel
  refine ⟨hfault, (traceless_iff (Call.run_of_made hfault)).mpr ⟨by decide +kernel, fun d hd => ?_⟩⟩
  cases hd with
  | payFees hh => cases hh

/-- The purchase fails and is refunded. The ledger then says the house is the player's, and the next write
    stores it. -/
theorem a_refunded_house_is_kept :
    let bought := Call.buyHouse.made (shippedWith { put := true }) annAtGreyton
    bought.1 = ⟨.error (.fault .storeOffline), 2000000, "greyton"⟩ ∧ ¬ Traceless annAtGreyton bought.2 ∧
      (Call.hasHouse.made (shippedWith {}) annAtGreyton).1.answer = .ok (.flag false) ∧
      (Call.hasHouse.made (shippedWith {}) bought.2).1.answer = .ok (.flag true) ∧
      (Call.depart.made (shippedWith {}) bought.2).2.store.holdings "Ann"
        = .ok (some ⟨[⟨"greyton", 1700864000⟩], some "greyton"⟩) := by
  intro bought
  have hbefore : (Call.hasHouse.made (shippedWith {}) annAtGreyton).1.answer = .ok (.flag false) := by decide +kernel
  have hafter : (Call.hasHouse.made (shippedWith {}) bought.2).1.answer = .ok (.flag true) := by decide +kernel
  refine ⟨by decide +kernel, fun htrace => ?_, hbefore, hafter, by decide +kernel⟩
  have heq := htrace.answers (shippedWith {}) rfl .hasHouse (by simp [questions])
  rw [hbefore, hafter] at heq
  cases heq

end HouseLease
