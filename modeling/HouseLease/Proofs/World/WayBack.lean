/-
  HouseLease.Proofs.World.WayBack — the hub remembers the house.

  A departure is remembered in the record with the leases, and every change of either writes both from
  a ledger's own copy. Once all copies of a player's record name a house that the player holds
  (`Remembering`), so does what any call on them writes, whether the write succeeds, fails or is never
  reached (`Remembering.made`); only to depart again or to set the last house says another. So it
  stays through any run on new ledgers, everybody's calls mixed (`World.Remembers.run`), and the way
  back is found after it (`the_hub_remembers_the_house`).

  The departing ledger has to show the player as the house's holder. One that looked before the house was
  bought departs all the same, and there is no way back (`a_stale_departure_is_forgotten`).
-/

import HouseLease.Proofs.Visit.Portal
import HouseLease.Proofs.World.Players

namespace HouseLease

/-- The house was the last one left, and is held. -/
structure Holdings.Remembers (house : String) (h : Holdings) : Prop where
  last : h.lastHouse = some house
  owns : h.owns house = true

/-- The calls that say which house was last left. -/
def Call.marks : Call → Bool
  | .setLastHouse _ | .depart => true
  | _ => false

/-! ## Holdings -/

namespace Holdings

variable {h : Holdings} {house other : String} {t : Int64}

theorem owns_acquire (hown : h.owns house = true) : (h.acquire other t).owns house = true := by
  simp only [owns, paidUntil?, acquire, Option.isSome_map, List.find?_append] at hown ⊢
  simp [Option.isSome_or, hown]

theorem owns_extend (hown : h.owns house = true) : (h.extend other t).owns house = true := by
  simp only [owns, paidUntil?, extend, Option.isSome_map, List.find?_isSome] at hown ⊢
  obtain ⟨l, hl, hhouse⟩ := hown
  have hhouses : l.house ∈ (extendFirst other t h.leases).map (·.house) := by
    rw [extendFirst_house]
    exact List.mem_map_of_mem hl
  obtain ⟨l', hl', hsame⟩ := List.mem_map.mp hhouses
  exact ⟨l', hl', by rw [hsame, hhouse]⟩

theorem Remembers.acquire (hr : h.Remembers house) : (h.acquire other t).Remembers house :=
  ⟨hr.last, owns_acquire hr.owns⟩

theorem Remembers.extend (hr : h.Remembers house) : (h.extend other t).Remembers house :=
  ⟨hr.last, owns_extend hr.owns⟩

end Holdings

/-! ## Calls -/

/-- The record and the ledger's copy, if it has one, remember the house. -/
structure Remembering (house : String) (v : Visit) : Prop where
  stored : ∃ h, v.store.holdings v.ledger.player = .ok (some h) ∧ h.Remembers house
  copied : v.ledger.copy = .unread ∨ ∃ h, v.ledger.copy = .present h ∧ h.Remembers house

section

variable {s : Setting} {v : Visit} {c : Call} {house : String}

theorem Drafts.remembers {d : Draft} {h : Holdings} (hd : Drafts s v c d) (hc : c.marks = false)
    (hh : s.held v = .ok (some h)) (hr : h.Remembers house) : d.holdings.Remembers house := by
  cases hd with
  | purchase _ he _ _ _ | buyHouse _ he _ _ _ _ =>
    rcases Setting.enrolled_cases he with ⟨hh', -⟩ | ⟨hnone, -⟩
    · cases hh.symm.trans hh'
      exact hr.acquire
    · cases hh.symm.trans hnone
  | payFees hh' _ _ | checkExitFees hh' _ _ _ _ _ _ _ =>
    cases hh.symm.trans hh'
    exact hr.extend
  | prepayFees _ hh' _ _ _ _ _ _ _ _ =>
    cases hh.symm.trans hh'
    exact hr.extend
  | setLastHouse _ | depart _ => cases hc

namespace Remembering

theorem held {held : Option Holdings} (hv : Remembering house v) (hh : s.held v = .ok held) :
    ∃ h, held = some h ∧ h.Remembers house := by
  have hh := Setting.held_eq hh
  unfold Visit.held at hh
  rcases hv.copied with hcopy | ⟨h, hcopy, hr⟩
  · obtain ⟨h, hstored, hr⟩ := hv.stored
    rw [hcopy] at hh
    exact ⟨h, Except.ok.inj (hh.symm.trans hstored), hr⟩
  · rw [hcopy] at hh
    exact ⟨h, (Except.ok.inj hh).symm, hr⟩

/-- A call that does not say another last house leaves record and copy remembering the house. -/
theorem made (hv : Remembering house v) (hc : c.marks = false) : Remembering house (c.made s v).2 := by
  have hplayer := c.player_made s v
  have hdrafted : ∀ d, Drafts s v c d → d.holdings.Remembers house ∧ d.store = v.store := by
    intro d hd
    rcases hd.source with ⟨h, hh, hstore⟩ | ⟨hnone, -⟩
    · obtain ⟨_, heq, hr⟩ := hv.held hh
      cases heq
      exact ⟨hd.remembers hc hh hr, hstore⟩
    · obtain ⟨_, heq, -⟩ := hv.held hnone
      cases heq
  generalize (c.made s v).2 = w, c.leaves s v = hw at hplayer ⊢
  have hsame : w.store = v.store → ∃ h, w.store.holdings w.ledger.player = .ok (some h) ∧ h.Remembers house := by
    intro hstore
    rw [hstore, hplayer]
    exact hv.stored
  cases hw with
  | @written d hd hwrite hcopy =>
    obtain ⟨hr, -⟩ := hdrafted d hd
    obtain ⟨-, wall, -, hwrite⟩ := Setting.written_ok hwrite
    refine ⟨⟨d.holdings, ?_, hr⟩, .inr ⟨d.holdings, hcopy, hr⟩⟩
    rw [Store.holdings_write hwrite, hplayer, if_pos rfl]
  | @unwritten d _ hd _ hstore hcopy =>
    obtain ⟨hr, hstore'⟩ := hdrafted d hd
    exact ⟨hsame (hstore.trans hstore'), .inr ⟨d.holdings, hcopy, hr⟩⟩
  | @enrolled h he hcopy =>
    rcases Setting.enrolled_cases he with ⟨hh, hstore⟩ | ⟨hnone, -⟩
    · obtain ⟨_, heq, hr⟩ := hv.held hh
      cases heq
      exact ⟨hsame hstore, .inr ⟨h, hcopy, hr⟩⟩
    · obtain ⟨_, heq, -⟩ := hv.held hnone
      cases heq
  | stranded hst =>
    obtain ⟨_, heq, -⟩ := hv.held hst.held
    cases heq
  | looked hstore hcopy =>
    refine ⟨hsame hstore, ?_⟩
    rcases hcopy with hcopy | ⟨held, hh, hcopy⟩
    · rw [hcopy]
      exact hv.copied
    · obtain ⟨h, rfl, hr⟩ := hv.held hh
      exact .inr ⟨h, hcopy, hr⟩

end Remembering

/-- A departure that is answered is in the record, for a ledger that shows its player to have one. -/
theorem Call.holdings_depart {k : Holdings} {a : Answer} (hh : v.held = .ok (some k))
    (hdepart : (Call.depart.made s v).1.answer = .ok a) :
    (Call.depart.made s v).2.store.holdings v.ledger.player = .ok (some (k.leave (some v.ledger.house))) := by
  cases hheld : s.held v with
  | error f => simp [Call.made, Call.run, Hub.depart, Ledger.setLastHouse, Ledger.consult_error hheld] at hdepart
  | ok held =>
    cases (Setting.held_eq hheld).symm.trans hh
    obtain ⟨log, hrun⟩ := Drafts.run (.depart hheld)
    rw [Call.made, hrun, Draft.close] at hdepart ⊢
    rcases hw : s.wrote v.store v.ledger.player (k.leave (some v.ledger.house)) with ⟨_ | e, store⟩
    · obtain ⟨hplaced, -⟩ := Setting.wrote_eq_none.mp hw
      obtain ⟨-, wall, -, hwrite⟩ := Setting.written_ok hplaced
      exact (Store.holdings_write hwrite _).trans (if_pos rfl)
    · cases e <;> simp [hw] at hdepart

/-- A new ledger finds the way back, and is then bound to the house. -/
theorem Call.goBack_remembered {h : Holdings} {terms : House} (hget : s.outage.get = false)
    (hcopy : v.ledger.copy = .unread) (hstored : v.store.holdings v.ledger.player = .ok (some h))
    (hr : h.Remembers house) (hterms : s.catalog.find? house = some terms) :
    (Call.goBack.made s v).1.answer = .ok (.point? (some terms.fromHubPortal)) ∧
      (Call.goBack.made s v).1.house = house := by
  have hheld : s.held v = .ok (some h) := Setting.held_new hget hcopy hstored
  obtain ⟨log, hmade⟩ := Call.goBack_opens hheld ⟨hr.last, hterms, hr.owns⟩
  rw [hmade]
  exact ⟨rfl, rfl⟩

end

/-! ## Runs -/

/-- Through these steps, nothing is done past the ledgers and no call for this account says which house was last left. -/
def World.staysAway (w : World) (account : String) : List (Setting × Step) → Bool
  | [] => true
  | (s, step) :: rest =>
    !step.bypasses &&
      (match step with
        | .call name _ c => !c.marks || w.accountAt name != some account
        | _ => true) && (w.after s step).staysAway account rest

/-- The player's record remembers the house, and so does every copy of it. -/
structure World.Remembers (player house : String) (w : World) : Prop where
  stored : ∃ h, w.store.holdings player = .ok (some h) ∧ h.Remembers house
  copied : ∀ name l, w.ledgers.lookup name = some l → accountName l.player = accountName player →
    l.copy = .unread ∨ ∃ h, l.copy = .present h ∧ h.Remembers house

namespace World.Remembers

variable {s : Setting} {w : World} {player house : String} {step : Step}

theorem visit {name : String} {l : Ledger} (hw : w.Remembers player house) (hl : w.ledgers.lookup name = some l)
    (hp : accountName l.player = accountName player) (b : Int64) : Remembering house (w.visit l b) := by
  obtain ⟨h, hstored, hr⟩ := hw.stored
  exact ⟨⟨h, (w.store.holdings_of_account hp).trans hstored, hr⟩, hw.copied name l hl hp⟩

theorem after (hw : w.Remembers player house) {rest : List (Setting × Step)}
    (hsteps : w.staysAway (accountName player) ((s, step) :: rest) = true) :
    (w.after s step).Remembers player house ∧ (w.after s step).staysAway (accountName player) rest = true := by
  simp only [staysAway, Bool.and_eq_true, Bool.not_eq_true'] at hsteps
  obtain ⟨⟨hb, hcall⟩, hrest⟩ := hsteps
  refine ⟨?_, hrest⟩
  generalize w.after s step = w', World.stepped s w hb = hstep
  cases hstep with
  | idle _ hstore hledgers => exact ⟨hstore ▸ hw.stored, hledgers ▸ hw.copied⟩
  | opened hstore hledgers =>
    refine ⟨hstore ▸ hw.stored, fun k l hl hp => ?_⟩
    rw [hledgers, lookup_assign] at hl
    split at hl
    · cases hl
      exact .inl rfl
    · exact hw.copied k l hl hp
  | @called name purse c l b hl hstore hledgers =>
    by_cases hp : accountName l.player = accountName player
    · have hc : c.marks = false := by simpa [World.accountAt, hl, hp] using hcall
      have hmade := (hw.visit hl hp b).made (s := s) hc
      have hplayer : accountName (c.made s (w.visit l b)).2.ledger.player = accountName player := by
        rw [c.player_made]
        exact hp
      refine ⟨?_, fun k l' hl' hp' => ?_⟩
      · obtain ⟨h, hstored, hr⟩ := hmade.stored
        refine ⟨h, ?_, hr⟩
        rw [hstore, ← hstored]
        exact Store.holdings_of_account _ hplayer.symm
      · rw [hledgers, lookup_assign] at hl'
        split at hl'
        · cases hl'
          exact hmade.copied
        · exact hw.copied k l' hl' hp'
    · -- a call of another player's
      have hne : accountName player ≠ accountName (w.visit l b).ledger.player := Ne.symm hp
      refine ⟨?_, fun k l' hl' hp' => ?_⟩
      · rw [hstore, c.holdings_made hne]
        exact hw.stored
      · rw [hledgers, lookup_assign] at hl'
        split at hl'
        · cases hl'
          rw [c.player_made] at hp'
          exact absurd hp' hp
        · exact hw.copied k l' hl' hp'

theorem run {steps : List (Setting × Step)} (hw : w.Remembers player house)
    (hsteps : w.staysAway (accountName player) steps = true) : (w.run steps).2.Remembers player house := by
  induction steps generalizing w with
  | nil => exact hw
  | cons p rest ih =>
    obtain ⟨s, step⟩ := p
    obtain ⟨hafter, hrest⟩ := hw.after hsteps
    rw [World.run_cons]
    exact ih hafter hrest

end World.Remembers

/-! ## The way back -/

/-- A departure from a house that the ledger shows its player to hold is remembered through every run on new ledgers in
    which the player neither departs again nor says another last house: whatever else is called for anybody, fails or
    stops, a new ledger of the player's goes back to the house and is then bound to it. -/
theorem the_hub_remembers_the_house {s s' : Setting} {v : Visit} {k : Holdings} {a : Answer} {terms : House}
    {purses : List (String × Int64)} {steps : List (Setting × Step)} {player house : String} {purse : Int64}
    (hheld : v.held = .ok (some k)) (howns : k.owns v.ledger.house = true)
    (hdepart : (Call.depart.made s v).1.answer = .ok a)
    (hsteps : World.staysAway { store := (Call.depart.made s v).2.store, purses } (accountName v.ledger.player) steps = true)
    (hplayer : accountName player = accountName v.ledger.player) (hget : s'.outage.get = false)
    (hterms : s'.catalog.find? v.ledger.house = some terms) :
    let w := (World.run { store := (Call.depart.made s v).2.store, purses } steps).2
    let back := (Call.goBack.made s' { store := w.store, ledger := { player, house }, purse }).1
    back.answer = .ok (.point? (some terms.fromHubPortal)) ∧ back.house = v.ledger.house := by
  intro w back
  have hstart : World.Remembers v.ledger.player v.ledger.house { store := (Call.depart.made s v).2.store, purses } :=
    ⟨⟨_, Call.holdings_depart hheld hdepart, rfl, howns⟩, fun _ _ hl => by cases hl⟩
  obtain ⟨h, hstored, hr⟩ := (hstart.run hsteps).stored
  exact Call.goBack_remembered hget rfl ((w.store.holdings_of_account hplayer).trans hstored) hr hterms

/-- Ann owns the shipped house. -/
def annsHouse : Visit :=
  { store := ((shippedWith {}).written .empty "Ann" ⟨[⟨"greyton", 1700000000⟩], none⟩).toOption.getD .empty,
    ledger := { player := "Ann", house := "greyton" } }

/-- Away from home Ann pays fees, from two new ledgers in turn and once in vain, and tries a house that is not there; Bob
    buys, departs and names another house. -/
def annIsAway : List (Setting × Step) :=
  [(shippedWith {}, .openLedger "a" "ann" "greyton"), (shippedWith {}, .openLedger "b" "ANN" "greyton"),
    (shippedWith {}, .openLedger "bob" "Bob" "greyton"), (shippedWith {}, .call "a" none .lastHouse),
    (shippedWith { put := true }, .call "a" none (.payFees 3)), (shippedWith {}, .call "bob" none .purchase),
    (shippedWith {}, .call "b" none (.payFees 1)), (shippedWith {}, .call "a" none (.bind "villa")),
    (shippedWith {}, .call "a" none .purchase), (shippedWith {}, .call "bob" none .depart),
    (shippedWith {}, .call "bob" none (.setLastHouse "villa")), (shippedWith {}, .call "b" none .goBack)]

theorem ann_finds_the_way_back :
    let w := (World.run { store := (Call.depart.made (shippedWith {}) annsHouse).2.store } annIsAway).2
    let back := (Call.goBack.made (shippedWith {}) { store := w.store, ledger := { player := "aNN", house := "villa" } }).1
    back.answer = .ok (.point? (some greyton.fromHubPortal)) ∧ back.house = "greyton" := by
  have hann : accountName "Ann" = "ann" := by decide +kernel
  have hann' : accountName "aNN" = "ann" := by decide +kernel
  have hheld : annsHouse.held = .ok (some ⟨[⟨"greyton", 1700000000⟩], none⟩) := by decide +kernel
  have hdepart : (Call.depart.made (shippedWith {}) annsHouse).1.answer = .ok (.point everlink) := by decide +kernel
  have hsteps : World.staysAway { store := (Call.depart.made (shippedWith {}) annsHouse).2.store }
      (accountName annsHouse.ledger.player) annIsAway = true := by decide +kernel
  have hterms : (shippedWith {}).catalog.find? annsHouse.ledger.house = some greyton := by decide +kernel
  exact the_hub_remembers_the_house hheld (by decide) hdepart hsteps (hann'.trans hann.symm) rfl hterms

/-- Ann's ledger `old` looks before she has a record, and another one buys the house. -/
def annLooksAndBuys : List (Setting × Step) :=
  [(shippedWith {}, .openLedger "old" "ann" "greyton"), (shippedWith {}, .call "old" none .hasHouse),
    (shippedWith {}, .openLedger "new" "ann" "greyton"), (shippedWith {}, .call "new" none .purchase)]

/-- The store says that Ann holds the house; a departure on her old ledger is answered, and she is not taken back. -/
theorem a_stale_departure_is_forgotten :
    let w := (World.run {} annLooksAndBuys).2
    let departure := Call.depart.made (shippedWith {})
      { store := w.store, ledger := { player := "ann", house := "greyton", copy := .absent } }
    w.ledgers.lookup "old" = some { player := "ann", house := "greyton", copy := .absent } ∧
      w.store.holdings "ann" = .ok (some ⟨[⟨"greyton", 1700864000⟩], none⟩) ∧
      departure.1.answer = .ok (.point everlink) ∧
      (Call.goBack.made (shippedWith {})
        { store := departure.2.store, ledger := { player := "ann", house := "greyton" } }).1.answer = .ok (.point? none) := by
  decide +kernel

end HouseLease
