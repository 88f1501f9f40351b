/-
  HouseLease.Proofs.World.Listed — the list of players is exact.

  Of all that calls leave in a store, everything was put there by writing the holdings of a ledger's
  player whole (`Call.store_made`). So what such writes keep, a run keeps from the first step on
  (`World.store_run`), whatever fails or stops on the way. In particular the store stays tidy.

  Then the players listed are those with a record, each once, every name opens its record, and to
  list them with their houses cannot fail (`listed_players_are_exact`).
-/

import HouseLease.Proofs.Console.Talking
import HouseLease.Proofs.Record.Names
import HouseLease.Proofs.World.Steps

namespace HouseLease

/-! ## What writes keep -/

section

variable {P : Store → Prop}

/-- `P` survives that the player's holdings are written. -/
def KeptByWrites (P : Store → Prop) (player : String) : Prop :=
  ∀ {store store' : Store} {wall : Instant} {h : Holdings}, P store →
    store.write wall player houseTag (HouseList.write h.leases) h.lastHouse = .ok store' → P store'

theorem KeptByWrites.created {s : Setting} {v : Visit} {r : Record} {store : Store}
    (hkeep : KeptByWrites P v.ledger.player) (hv : P v.store) (h : s.created v = .ok (r, store)) : P store := by
  obtain ⟨-, wall, -, hcreate⟩ := Setting.created_ok h
  exact hkeep (h := .empty) hv (Store.create_eq_ok hcreate).2

theorem Call.store_made {s : Setting} {v : Visit} (c : Call) (hkeep : KeptByWrites P v.ledger.player) (hv : P v.store) :
    P (c.made s v).2.store := by
  have hdraft : ∀ d, Drafts s v c d → P d.store := by
    intro d hd
    rcases hd.source with ⟨_, _, hstore⟩ | ⟨_, _, ⟨r, hc⟩, _⟩
    · exact hstore ▸ hv
    · exact hkeep.created hv hc
  cases c.leaves s v with
  | written hd hw =>
    obtain ⟨-, wall, -, hwrite⟩ := Setting.written_ok hw
    exact hkeep (hdraft _ hd) hwrite
  | unwritten hd _ hsame => exact hsame ▸ hdraft _ hd
  | enrolled he =>
    rcases Setting.enrolled_cases he with ⟨-, hsame⟩ | ⟨-, -, r, hc⟩
    · exact hsame ▸ hv
    · exact hkeep.created hv hc
  | stranded hst => exact hst.created.elim fun _ hc => hkeep.created hv hc
  | looked hsame => exact hsame ▸ hv

theorem World.store_after {w : World} (s : Setting) {step : Step} (hkeep : ∀ player, KeptByWrites P player)
    (hw : P w.store) (hb : step.bypasses = false) : P (w.after s step).store := by
  cases World.stepped s w hb with
  | idle _ hstore _ => exact hstore ▸ hw
  | opened hstore _ => exact hstore ▸ hw
  | called _ hstore _ => exact hstore ▸ Call.store_made _ (hkeep _) hw

theorem World.store_run {w : World} {steps : List (Setting × Step)} (hkeep : ∀ player, KeptByWrites P player)
    (hw : P w.store) (hsteps : ∀ p ∈ steps, p.2.bypasses = false) : P (w.run steps).2.store := by
  induction steps generalizing w with
  | nil => exact hw
  | cons p rest ih =>
    obtain ⟨s, step⟩ := p
    obtain ⟨hb, hrest⟩ := List.forall_mem_cons.mp hsteps
    rw [World.run_cons]
    exact ih (World.store_after s hkeep hw hb) hrest

end

/-! ## The list of players -/

/-- After any run on a new store the players listed are those with a record, each once and in lower case; a new ledger
    loads the record of every name listed, and telling the players with their houses comes to its end. -/
theorem listed_players_are_exact {purses : List (String × Int64)} {steps : List (Setting × Step)}
    (hsteps : ∀ p ∈ steps, p.2.bypasses = false) :
    let store := (World.run { purses } steps).2.store
    let names := store.players houseTag
    names.Nodup ∧
      (∀ name, name ∈ names ↔ ∃ player, accountName player = name ∧ (store.find? (recordKey player houseTag)).isSome) ∧
      (∀ name ∈ names, ∃ h, store.holdings name = .ok (some h) ∧ ∀ (s : Setting) (house : String),
        s.outage.get = false → ∃ v, Ledger.consult s { store, ledger := { player := name, house } } = .ok (some h) v) ∧
      ∀ s : Setting, s.outage.get = false → (Console.Errand.players.run s store).1 = .ok () := by
  intro store names
  have htidy : store.Tidy :=
    World.store_run (fun _ _ _ _ _ htidy hw => htidy.write hw) Store.Tidy.empty hsteps
  refine ⟨htidy.nodup_players, fun name => htidy.mem_players, fun name hname => ?_, fun s hget => ?_⟩
  · obtain ⟨h, hh⟩ := htidy.holdings_of_mem hname
    refine ⟨h, hh, fun s house hget => ?_⟩
    obtain ⟨log, hconsult⟩ := Ledger.consult_ok
      (Setting.held_new (v := { store, ledger := { player := name, house } }) hget rfl hh)
    exact ⟨_, hconsult⟩
  · exact Console.players_ok hget fun name => htidy.holdings_of_mem

/-- Names with colons, capitals and the tag itself, a purchase whose write fails and one that cannot create a record. -/
def oddNames : List (Setting × Step) :=
  [(shippedWith {}, .openLedger "a" "Ann" "greyton"), (shippedWith {}, .openLedger "b" "Bo:luxury_house" "greyton"),
    (shippedWith {}, .openLedger "c" "ÄNN:" "greyton"), (shippedWith {}, .openLedger "d" "aNN" "greyton"),
    (shippedWith {}, .call "d" none .hasHouse), (shippedWith {}, .call "a" none .purchase),
    (shippedWith { put := true }, .call "b" none .purchase), (shippedWith { create := true }, .call "c" none .purchase),
    (shippedWith {}, .call "d" none .purchase)]

theorem odd_names_listed :
    let store := (World.run {} oddNames).2.store
    store.players houseTag = ["ann", "bo:luxury_house"] ∧ (store.players houseTag).Nodup ∧
      (Console.Errand.players.run (shippedWith { put := true }) store).1 = .ok () := by
  obtain ⟨hnodup, -, -, htold⟩ := @listed_players_are_exact [] oddNames (by decide)
  exact ⟨by decide +kernel, hnodup, htold (shippedWith { put := true }) rfl⟩

end HouseLease
