/-
  HouseLease.Proofs.Console.Readings — what never writes.

  A call writes nothing if it asks, if it answers that there was nothing to do or not enough to pay, or
  if it misses the house (`Idle`, `Call.store_of_idle`). A purchase makes a player's record before it
  writes the lease into it, but it has the terms of the house by then: a house that is missed is missed
  first. The commands that tell something make only calls that look, so a run with one of them leaves
  every store as it found it (`Directory.run_reads`), whatever it stumbles over.
-/

import HouseLease.Proofs.Console.Failures
import HouseLease.Proofs.Trade.Charges

namespace HouseLease

/-! ## Calls -/

/-- A house that is not there. -/
def Fault.misses : Fault → Bool
  | .unknownHouse _ | .missingLease _ => true
  | .schemaMismatch _ | .invalidCatalog _ | .timestampOutOfRange _ | .storeOffline | .storeUnflushed _ | .system _
  | .houseListUnreadable | .recordUnreadable | .recordTooLong => false

/-- The answers that say that nothing was done. -/
inductive Declines : Call → Answer → Prop
  | purchase : Declines .purchase (.flag false)
  | payFees {days} : Declines (.payFees days) (.flag false)
  | setLastHouse {value} : Declines (.setLastHouse value) (.flag false)
  | alreadyOwned : Declines .buyHouse (.purchase .alreadyOwned)
  | tooDear {cost} : Declines .buyHouse (.purchase (.insufficientFunds cost))
  | notPaidAhead {days} : Declines (.prepayFees days) (.prepay .notOwned)
  | capReached {days cap} : Declines (.prepayFees days) (.prepay (.capReached cap))
  | tooDearAhead {days n cost} : Declines (.prepayFees days) (.prepay (.insufficientFunds n cost))
  | notChecked : Declines .checkExitFees (.feeCheck .notOwned)
  | current : Declines .checkExitFees (.feeCheck .current)
  | unpaid {cost tile} : Declines .checkExitFees (.feeCheck (.unpaid cost tile))

/-- The ends of calls that have nothing to write. -/
inductive Idle (s : Setting) (v : Visit) : Call → Except Stop Answer → Prop
  | asked {c result} : c.asks = true → Idle s v c result
  | goneBack {result} : Idle s v .goBack result
  | declined {c a} : Declines c a → Idle s v c (.ok a)
  | missed {c} {f : Fault} : f.misses = true → Idle s v c (.error (.fault f))
  /-- The ledger finds no record to remember the house in. -/
  | departed {result} : (∀ h, s.held v ≠ .ok (some h)) → Idle s v .depart result

section

variable {s : Setting} {v w : Visit} {c : Call}

theorem Call.made_left (c : Call) (s : Setting) (v : Visit) : (c.made s v).2 = leftBy (c.run s v) := by
  unfold Call.made
  cases c.run s v <;> rfl

theorem Act.Still.map {α β : Type} {act : Act α} (h : act.Still) (g : α → β) : (g <$> act).Still := by
  intro v
  have hv := h v
  rw [Act.map_apply]
  generalize act v = r at hv ⊢
  cases r <;> exact hv

/-- A call that declines reports no change, and is no departure. -/
theorem Declines.unreported {a : Answer} (h : Declines c a) : c ≠ .depart ∧ c.reports a = false := by
  cases h <;> exact ⟨Call.noConfusion, rfl⟩

/-- A house is missed before anything is written. -/
theorem Call.store_of_missed {f : Fault} (h : c.run s v = .error (.fault f) w) (hf : f.misses = true) :
    w.store = v.store := by
  rcases Call.fault_cases h with ⟨-, hlook⟩ | ⟨d, hd⟩ | ⟨-, -, reason, rfl, -⟩
  · exact hlook.store
  · obtain ⟨_, _, hw, -⟩ := hd.fault h
    have hstore := Setting.wrote_ofStore hw
    cases f <;> cases hstore <;> cases hf
  · cases hf

theorem Hub.depart_left (hnone : ∀ h, s.held v ≠ .ok (some h)) : (leftBy (Hub.depart s v)).store = v.store := by
  rw [Hub.depart_apply, Act.map_apply]
  cases hh : s.held v with
  | error f =>
    simp only [Ledger.setLastHouse, Act.bind_apply, Ledger.consult_error hh]
    rfl
  | ok held =>
    cases held with
    | some h => exact absurd hh (hnone h)
    | none =>
      obtain ⟨log, hask⟩ := Ledger.consult_ok hh
      simp only [Ledger.setLastHouse, Act.bind_apply, hask]
      rfl

theorem Call.store_of_idle (h : Idle s v c (c.made s v).1.answer) : (c.made s v).2.store = v.store := by
  generalize hend : (c.made s v).1.answer = result at h
  cases h with
  | asked hasks =>
    rw [Call.made_left]
    exact Looks.still (Call.looks_of_asks hasks s) v
  | goneBack =>
    rw [Call.made_left]
    exact (Hub.goBack_still s).map Answer.point? v
  | declined hdeclines =>
    obtain ⟨hc, hsilent⟩ := hdeclines.unreported
    exact Call.unreported (Call.run_of_answered hend) hc hsilent
  | missed hf => exact Call.store_of_missed (Call.run_of_made hend) hf
  | departed hnone =>
    rw [Call.made_left, Call.run, Act.map_apply]
    have hleft := Hub.depart_left hnone
    generalize Hub.depart s v = r at hleft ⊢
    cases r <;> exact hleft

end

namespace Console

open Directory

/-! ## Commands -/

/-- The commands that tell something and do nothing. -/
def Command.reads : Command → Bool
  | .houses => true
  | .errand e => e.change?.isNone
  | .init => false

/-- An errand that only tells something leaves its store as it found it, whatever it ends with. -/
theorem Errand.run_reads {s : Setting} {e : Errand} (h : e.change? = none) (store : Store) :
    (e.run s store).2.visit.store = store := by
  have hstill := Errand.still (s := s) h { visit := { store, ledger := { player := "", house := "" } } }
  unfold Errand.run
  generalize e.talk s { visit := { store, ledger := { player := "", house := "" } } } = r at hstill ⊢
  cases r <;> exact hstill

/-- A run that comes to a task has the order for it. -/
theorem Directory.task?_ordered {d : Directory} {now : Option Instant} {words : List String} {t : Task}
    (h : d.task? now words = some t) : ∃ o, Request.ofWords? words = some (.order o) ∧ o.command = .errand t.errand := by
  unfold task? at h
  split at h
  · rename_i o hwords
    refine ⟨o, hwords, ?_⟩
    split at h
    · rename_i e hcommand
      -- the file, the settings, the catalog and the place of the store are there, or there is no task
      split at h
      · split at h
        · split at h
          · dsimp only at h
            split at h
            · cases h
              exact hcommand
            · cases h
          · cases h
        · cases h
      · cases h
    · cases h
  · cases h

/-- A run that only tells something leaves every store as it found it. -/
theorem Directory.run_reads (d : Directory) (now : Option Instant) {words : List String} {o : Order}
    (hwords : Request.ofWords? words = some (.order o)) (hreads : o.command.reads = true) :
    SameStores d (d.run now words).2 := by
  have htask := d.run_task now words
  cases ht : d.task? now words with
  | none =>
    rw [ht] at htask
    exact htask
  | some t =>
    rw [ht] at htask
    obtain ⟨o', hwords', hcommand⟩ := task?_ordered ht
    cases hwords.symm.trans hwords'
    rw [hcommand] at hreads
    exact htask.sameStores (Errand.run_reads (Option.isNone_iff_eq_none.mp hreads) _)

end Console

/-- Calls that ask, decline or miss the house write nothing, on any ledger and with any calls of the store failing, and
    neither does a run with a command that only tells something. -/
theorem readings_write_nothing :
    (∀ s v c, Idle s v c (c.made s v).1.answer → (c.made s v).2.store = v.store) ∧
      ∀ (d : Console.Directory) (now : Option Instant) (words : List String) (o : Console.Order),
        Console.Request.ofWords? words = some (.order o) → o.command.reads = true →
          Console.Directory.SameStores d (d.run now words).2 :=
  ⟨fun _ _ _ h => Call.store_of_idle h, fun d now _ _ hwords hreads => d.run_reads now hwords hreads⟩

/-- Ann cannot pay for the house, and no record is made of that; nor is one made by a look at the inn. -/
theorem ann_leaves_no_record :
    let v := annAtGreyton.withPurse 5
    let asks := ["-c", "c", "status", "--player", "ann", "--house", "inn"]
    (Call.buyHouse.made (shippedWith {}) v).1.answer = .ok (.purchase (.insufficientFunds 1500000)) ∧
      (Call.buyHouse.made (shippedWith {}) v).2.store = v.store ∧
      Console.Directory.SameStores Console.innkeeper (Console.innkeeper.run Console.aNight asks).2 := by
  intro v asks
  have hanswer : (Call.buyHouse.made (shippedWith {}) v).1.answer = .ok (.purchase (.insufficientFunds 1500000)) := by
    decide +kernel
  have hidle : Idle (shippedWith {}) v .buyHouse (Call.buyHouse.made (shippedWith {}) v).1.answer :=
    hanswer ▸ .declined .tooDear
  have hwords : Console.Request.ofWords? asks = some (.order ⟨"c", 0, .errand (.status "ann" "inn")⟩) := by
    decide +kernel
  exact ⟨hanswer, readings_write_nothing.1 _ _ _ hidle, readings_write_nothing.2 _ _ _ _ hwords rfl⟩

end HouseLease
