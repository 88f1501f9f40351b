/-
  HouseLease.Proofs.Console.Unreadable — a record that cannot be loaded is never written over.

  Ledgers opened for its player and errands that name the player come to nothing: an errand stops at its
  first call that needs the record (`Errand.run_refused`), and a ledger never gets a copy to
  write from. So through any number of such moves, whatever fails and whatever the clocks and catalogs,
  the store stays as it was, byte for byte, no purse changes, and what needs the record is refused
  (`unreadable_records_stay`).
-/

import HouseLease.Console.Session
import HouseLease.Proofs.Visit.Refusals
import HouseLease.Proofs.World.Steps

namespace HouseLease

open Text (Bytes)

namespace Console

/-! ## Errands -/

/-- The talk ends in a refusal, the visit being as it was. -/
def Talk.Refused {α : Type} (s : Setting) (f : Fault) (talk : Talk α) (σ : Session) : Prop :=
  ∃ stop printed, talk σ = .error stop ⟨σ.visit, printed⟩ ∧ s.Refuses f σ.visit.ledger.house stop

namespace Talk.Refused

variable {α β : Type} {s : Setting} {f : Fault} {σ : Session}

theorem ask {act : Act α} {k : α → Talk β} (h : HouseLease.Refused s f act σ.visit) :
    Refused s f (Talk.ask act >>= k) σ := by
  obtain ⟨stop, hact, hstop⟩ := h
  exact ⟨stop, σ.printed, by simp only [bind, EStateM.bind, Talk.ask, hact], hstop⟩

/-- Lines printed before the refusal stay. -/
theorem behind_line {line : String} {k : Unit → Talk β} (hk : ∀ printed, Refused s f (k ()) ⟨σ.visit, printed⟩) :
    Refused s f (Talk.print line >>= k) σ :=
  hk (σ.printed ++ [line])

theorem behind_terms {k : House → Talk β} (hk : ∀ terms, Refused s f (k terms) σ) :
    Refused s f (Talk.ask s.terms >>= k) σ := by
  cases hterms : s.catalog.find? σ.visit.ledger.house with
  | none =>
    refine ⟨.fault (.unknownHouse σ.visit.ledger.house), σ.printed, ?_, .unknownHouse hterms⟩
    simp only [bind, EStateM.bind, Talk.ask, Setting.terms_apply, hterms]
  | some terms =>
    obtain ⟨stop, printed, hk, hstop⟩ := hk terms
    exact ⟨stop, printed, by simpa only [bind, EStateM.bind, Talk.ask, Setting.terms_apply, hterms] using hk, hstop⟩

end Talk.Refused

/-- The ledger an errand opens for the player it names, and the money in the purse. -/
def Errand.seat? : Errand → Option (Ledger × Int64)
  | .players => none
  | .status player house | .depart player house => some ({ player, house }, 0)
  | .buy player house funds | .pay player house _ funds | .exitCheck player house funds => some ({ player, house }, funds)
  | .goBack player | .lastHouse player _ => some ({ player, house := "" }, 0)

namespace Errand

variable {s : Setting} {store : Store} {f : Fault} {e : Errand}

theorem run_of_talk {v : Visit} {talk : Talk Unit} (h : Talk.Refused s f talk ⟨v, []⟩)
    (htalk : e.talk s ⟨{ store, ledger := { player := "", house := "" } }, []⟩ = talk ⟨v, []⟩) :
    ∃ stop printed, e.run s store = (.error stop, ⟨v, printed⟩) ∧ s.Refuses f v.ledger.house stop := by
  obtain ⟨stop, printed, hr, hstop⟩ := h
  exact ⟨stop, printed, by rw [run, htalk, hr], hstop⟩

/-- It has no copy yet. -/
theorem seat?_copy {l : Ledger} {funds : Int64} (h : e.seat? = some (l, funds)) : l.copy = .unread := by
  cases e with
  | players => cases h
  | status _ _ | depart _ _ | buy _ _ _ | pay _ _ _ _ | exitCheck _ _ _ | goBack _ | lastHouse _ _ =>
    cases h
    rfl

/-- An errand on a record that cannot be loaded stops with nothing paid and nothing stored. -/
theorem run_refused {l : Ledger} {funds : Int64} (hseat : e.seat? = some (l, funds))
    (hh : s.held { store, ledger := l, purse := funds } = .error (s.obstacle f)) :
    ∃ stop printed, e.run s store = (.error stop, ⟨{ store, ledger := l, purse := funds }, printed⟩) ∧
      s.Refuses f l.house stop := by
  cases e with
  | players => cases hseat
  | status player house =>
    cases hseat
    have htalk : Talk.Refused s f (Session.status s player) ⟨_, []⟩ :=
      .behind_terms fun _ => .behind_line fun _ => .ask (Call.refused (c := .hasHouse) hh rfl).of_map
    exact run_of_talk htalk rfl
  | buy player house funds =>
    cases hseat
    have htalk : Talk.Refused s f (Session.buy s player house funds) ⟨_, []⟩ :=
      .ask (Call.refused (c := .buyHouse) hh rfl).of_map
    exact run_of_talk htalk rfl
  | pay player house days funds =>
    cases hseat
    have htalk : Talk.Refused s f (Session.pay s player house days funds) ⟨_, []⟩ :=
      .ask (Call.refused (c := .prepayFees days) hh rfl).of_map
    exact run_of_talk htalk rfl
  | exitCheck player house funds =>
    cases hseat
    have htalk : Talk.Refused s f (Session.exitCheck s player house) ⟨_, []⟩ :=
      .ask (Call.refused (c := .checkExitFees) hh rfl).of_map
    exact run_of_talk htalk rfl
  | depart player house =>
    cases hseat
    have htalk : Talk.Refused s f (Talk.ask (Hub.depart s) >>= fun hub => Talk.print ("Teleport to " ++ hub.text))
        ⟨_, []⟩ := .ask (Call.refused (c := .depart) hh rfl).of_map
    exact run_of_talk htalk rfl
  | goBack player =>
    cases hseat
    have htalk : Talk.Refused s f (Session.goBack s player) ⟨_, []⟩ :=
      .ask (Call.refused (c := .goBack) hh rfl).of_map
    exact run_of_talk htalk rfl
  | lastHouse player value =>
    cases hseat
    cases value with
    | some value =>
      have htalk : Talk.Refused s f (Session.lastHouse s player (some value)) ⟨_, []⟩ :=
        .ask (Call.refused (c := .setLastHouse value) hh rfl).of_map
      exact run_of_talk htalk rfl
    | none =>
      have htalk : Talk.Refused s f (Session.lastHouse s player none) ⟨_, []⟩ :=
        .ask (Call.refused (c := .lastHouse) hh rfl).of_map
      exact run_of_talk htalk rfl

end Errand

end Console

/-! ## Moves -/

/-- What a player can have done to a store: a new ledger, a call on one, an errand. -/
inductive Move where
  | openLedger (name player house : String)
  | call (name : String) (purse : Option String) (c : Call)
  | errand (e : Console.Errand)

/-- The move is made for this player, however the name is spelled; calls are on ledgers that are open. -/
def Move.isFor (player : String) : Move → Prop
  | .openLedger _ p _ => accountName p = accountName player
  | .call _ _ _ => True
  | .errand e => ∃ seat ∈ e.seat?, accountName seat.1.player = accountName player

namespace World

/-- The world after a move; a call on a ledger that is not there is left out. -/
def moved (s : Setting) (w : World) : Move → World
  | .openLedger name player house => w.after s (.openLedger name player house)
  | .call name purse c => w.after s (.call name purse c)
  | .errand e => { w with store := (e.run s w.store).2.visit.store }

def moves (w : World) : List (Setting × Move) → World
  | [] => w
  | (s, m) :: rest => (w.moved s m).moves rest

end World

/-! ## Runs -/

/-- `w` is `w₀` with ledgers of the player that have no copy yet. -/
structure Barred (w₀ : World) (player : String) (w : World) : Prop where
  store : w.store = w₀.store
  purses : ∀ name, w.purses.lookup name = w₀.purses.lookup name
  ledgers : ∀ name l, w.ledgers.lookup name = some l →
    accountName l.player = accountName player ∧ l.copy = .unread

section

variable {s : Setting} {w₀ w : World} {player : String} {bytes : Bytes} {f : Fault}

theorem held_of_account {v : Visit} (hf : Unloadable bytes f)
    (hb : v.store.find? (recordKey player houseTag) = some bytes)
    (hp : accountName v.ledger.player = accountName player) (hcopy : v.ledger.copy = .unread) :
    s.held v = .error (s.obstacle f) := by
  refine Setting.held_of_unloadable hf ?_ hcopy
  rw [recordKey_inj.mpr hp]
  exact hb

namespace Barred

variable (hf : Unloadable bytes f) (hb : w₀.store.find? (recordKey player houseTag) = some bytes)

include hf hb

theorem visit_held (hw : Barred w₀ player w) {name : String} {l : Ledger} (hl : w.ledgers.lookup name = some l)
    (b : Int64) : s.held (w.visit l b) = .error (s.obstacle f) := by
  obtain ⟨hp, hcopy⟩ := hw.ledgers name l hl
  refine held_of_account hf ?_ hp hcopy
  rw [show (w.visit l b).store = w₀.store from hw.store]
  exact hb

theorem errand_refused (hw : Barred w₀ player w) {e : Console.Errand} {l : Ledger} {funds : Int64}
    (hseat : e.seat? = some (l, funds)) (hp : accountName l.player = accountName player) :
    ∃ stop printed, e.run s w.store = (.error stop, ⟨{ store := w.store, ledger := l, purse := funds }, printed⟩) ∧
      s.Refuses f l.house stop := by
  refine Console.Errand.run_refused hseat (held_of_account hf ?_ hp (Console.Errand.seat?_copy hseat))
  rw [← hw.store] at hb
  exact hb

/-- A call puts ledger and purse back as it found them, a binding to another house apart. -/
theorem call {name : String} {purse : Option String} {c : Call} (hw : Barred w₀ player w) :
    Barred w₀ player (w.after s (.call name purse c)) := by
  cases hcall : w.call s name purse c with
  | none =>
    rw [show w.after s (.call name purse c) = w from World.after_of_none hcall]
    exact hw
  | some p =>
    obtain ⟨reply, w'⟩ := p
    obtain ⟨l, b, hl, hpurse, -, rfl⟩ := World.call_eq_some hcall
    rw [show w.after s (.call name purse c) = _ from World.after_of_some hcall]
    have hspared := c.spared (hw.visit_held (s := s) hf hb hl b)
    refine ⟨?_, fun k => ?_, fun k l' hl' => ?_⟩
    · rw [World.putBack_store, hspared.store]
      exact hw.store
    · rw [World.putBack_purses, hspared.purse]
      cases purse with
      | none => exact hw.purses k
      | some q =>
        rw [lookup_assign]
        split
        · rename_i hk
          rw [hk, ← hw.purses q]
          exact hpurse.symm
        · exact hw.purses k
    · rw [World.putBack_ledgers, lookup_assign] at hl'
      split at hl'
      · cases hl'
        obtain ⟨hp, hcopy⟩ := hw.ledgers name l hl
        exact ⟨hspared.player ▸ hp, hspared.copy.trans hcopy⟩
      · exact hw.ledgers k l' hl'

theorem moved {m : Move} (hw : Barred w₀ player w) (hm : m.isFor player) : Barred w₀ player (w.moved s m) := by
  cases m with
  | openLedger name p house =>
    refine ⟨hw.store, hw.purses, fun k l hl => ?_⟩
    change (World.assign name { player := p, house } w.ledgers).lookup k = some l at hl
    rw [lookup_assign] at hl
    split at hl
    · cases hl
      exact ⟨hm, rfl⟩
    · exact hw.ledgers k l hl
  | call name purse c => exact hw.call hf hb
  | errand e =>
    obtain ⟨⟨l, funds⟩, hseat, hp⟩ := hm
    obtain ⟨stop, printed, hrun, -⟩ := hw.errand_refused (s := s) hf hb hseat hp
    refine ⟨?_, hw.purses, hw.ledgers⟩
    rw [World.moved, hrun]
    exact hw.store

theorem moves {moves : List (Setting × Move)} (hw : Barred w₀ player w) (hmoves : ∀ p ∈ moves, p.2.isFor player) :
    Barred w₀ player (w.moves moves) := by
  induction moves generalizing w with
  | nil => exact hw
  | cons p rest ih =>
    obtain ⟨s, m⟩ := p
    obtain ⟨hm, hrest⟩ := List.forall_mem_cons.mp hmoves
    exact ih (hw.moved hf hb hm) hrest

end Barred

end

/-- Where the bytes of a player's record do not load, no number of calls on the player's ledgers and of errands for the
    player changes a byte of the store or a purse, whatever the catalogs, clocks and outages; and after them every call
    that needs the record, and every errand, is refused: with what is wrong with the record, the store's own failure,
    or for a bound house that is not in the catalog. -/
theorem unreadable_records_stay {store : Store} {purses : List (String × Int64)} {player : String} {bytes : Bytes}
    {f : Fault} {moves : List (Setting × Move)} (hf : Unloadable bytes f)
    (hb : store.find? (recordKey player houseTag) = some bytes) (hmoves : ∀ p ∈ moves, p.2.isFor player) :
    let w := World.moves { store, purses } moves
    w.store = store ∧ (∀ name, w.purses.lookup name = purses.lookup name) ∧
      (∀ s name purse c reply w', c.needsRecord = true → w.step s (.call name purse c) = some (reply, w') →
        ∃ l stop, w.ledgers.lookup name = some l ∧ reply.answer = .error stop ∧ s.Refuses f l.house stop) ∧
      ∀ s (e : Console.Errand) l funds, e.seat? = some (l, funds) → accountName l.player = accountName player →
        ∃ stop printed, e.run s w.store = (.error stop, ⟨{ store, ledger := l, purse := funds }, printed⟩) ∧
          s.Refuses f l.house stop := by
  intro w
  have hfresh : Barred { store, purses } player { store, purses } :=
    ⟨rfl, fun _ => rfl, fun _ _ hl => (by cases hl)⟩
  have hend : Barred { store, purses } player w := hfresh.moves hf hb hmoves
  refine ⟨hend.store, hend.purses, ?_, ?_⟩
  · intro s name purse c reply w' hc hcall
    obtain ⟨l, b, hl, -, hanswer, -⟩ := World.call_eq_some hcall
    obtain ⟨stop, hrun, hstop⟩ := Call.refused (hend.visit_held (s := s) hf hb hl b) hc
    refine ⟨l, stop, hl, ?_, hstop⟩
    rw [hanswer, Call.made, hrun]
  · intro s e l funds hseat hp
    obtain ⟨stop, printed, hrun, hstop⟩ := hend.errand_refused (s := s) hf hb hseat hp
    refine ⟨stop, printed, ?_, hstop⟩
    rw [hrun, hend.store]

/-- Ann's record as a later version of the store would write it. -/
def laterBytes : Bytes := (Record.toBytes? ⟨"[[\"greyton\",1700864000]]", none, .epoch, 9⟩).getD []

def laterStore : Store := Store.empty.insert (recordKey "Ann" houseTag) laterBytes

/-- Ann tries to buy and to leave the house, with the store failing in between, and an operator tries for her. -/
def annsAttempts : List (Setting × Move) :=
  [(shippedWith {}, .openLedger "l" "Ann" "greyton"), (shippedWith {}, .call "l" (some "purse") .buyHouse),
    (shippedWith { get := true }, .call "l" (some "purse") (.prepayFees 3)), (shippedWith {}, .call "l" none .depart),
    (shippedWith {}, .errand (.buy "ANN" "greyton" 2000000)), (shippedWith {}, .errand (.lastHouse "ann" (some "greyton")))]

theorem a_later_record_stays :
    let w := World.moves { store := laterStore, purses := [("purse", 2000000)] } annsAttempts
    Unloadable laterBytes (.schemaMismatch 9) ∧ w.store = laterStore ∧ w.purses.lookup "purse" = some 2000000 ∧
      ∃ stop printed, (Console.Errand.buy "Ann" "greyton" 5).run (shippedWith {}) w.store
          = (.error stop, ⟨{ store := laterStore, ledger := { player := "Ann", house := "greyton" }, purse := 5 }, printed⟩) ∧
        (shippedWith {}).Refuses (.schemaMismatch 9) "greyton" stop := by
  intro w
  have hversion : (Record.ofBytes? laterBytes).map (·.version) = some 9 := by decide +kernel
  have hf : Unloadable laterBytes (.schemaMismatch 9) := by
    obtain ⟨r, hr, hv⟩ := Option.map_eq_some_iff.mp hversion
    rw [← hv]
    exact .version hr (by rw [hv]; decide)
  have hb : laterStore.find? (recordKey "Ann" houseTag) = some laterBytes := by
    rw [laterStore, Store.find?_insert, if_pos rfl]
  have hupper : accountName "ANN" = accountName "Ann" := String.toList_injective (by simp [accountName])
  have hlower : accountName "ann" = accountName "Ann" := String.toList_injective (by simp [accountName])
  have hmoves : ∀ p ∈ annsAttempts, p.2.isFor "Ann" := by
    simp only [annsAttempts, List.forall_mem_cons]
    exact ⟨rfl, trivial, trivial, trivial, ⟨_, rfl, hupper⟩, ⟨_, rfl, hlower⟩, List.forall_mem_nil _⟩
  obtain ⟨hstore, hpurses, -, herrands⟩ := unreadable_records_stay hf hb hmoves
  have hpurse := (hpurses "purse").trans (show [("purse", (2000000 : Int64))].lookup "purse" = some 2000000 by decide)
  exact ⟨hf, hstore, hpurse, herrands (shippedWith {}) (.buy "Ann" "greyton" 5) _ _ rfl rfl⟩

end HouseLease
