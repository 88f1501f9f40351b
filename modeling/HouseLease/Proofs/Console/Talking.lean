/-
  HouseLease.Proofs.Console.Talking — errands step by step.

  To ask makes a call of the visit and leaves the lines printed, to print leaves the visit, and a talk
  goes on after an answer and nowhere else. The players are told to the end if every name listed
  opens a record (`players_ok`).
-/

import HouseLease.Console.Session
import HouseLease.Proofs.Visit.Looking

namespace HouseLease

namespace Console

/-! ## One step after the other -/

namespace Talk

variable {α β : Type}

@[simp]
theorem bind_apply (x : Talk α) (f : α → Talk β) (σ : Session) :
    (x >>= f) σ = match x σ with
      | .ok a τ => f a τ
      | .error stop τ => .error stop τ := by
  cases h : x σ <;> simp [bind, EStateM.bind, h]

@[simp]
theorem pure_apply (a : α) (σ : Session) : (pure a : Talk α) σ = .ok a σ := rfl

@[simp]
theorem get_apply (σ : Session) : (get : Talk Session) σ = .ok σ σ := rfl

@[simp]
theorem print_apply (line : String) (σ : Session) :
    print line σ = .ok () { σ with printed := σ.printed ++ [line] } := rfl

@[simp]
theorem seat_apply (player house : String) (funds : Int64) (σ : Session) :
    seat player house funds σ = .ok () { σ with visit := { σ.visit with ledger := { player, house }, purse := funds } } :=
  rfl

@[simp]
theorem ask_apply (act : Act α) (σ : Session) :
    ask act σ = match act σ.visit with
      | .ok a visit => .ok a { σ with visit }
      | .error stop visit => .error stop { σ with visit } := rfl

@[simp]
theorem balance_apply (σ : Session) : balance σ = .ok (Text.numeral σ.visit.purse.toInt) σ := rfl

end Talk

/-! ## The players -/

section

variable {s : Setting}

theorem playerLine_ok {σ : Session} {player : String} {h : Holdings} (hget : s.outage.get = false)
    (hh : σ.visit.store.holdings player = .ok (some h)) :
    ∃ σ', playerLine s player σ = .ok () σ' ∧ σ'.visit.store = σ.visit.store := by
  obtain ⟨log, hleases⟩ := Ledger.leases_ok
    (Setting.held_new (v := { σ.visit with ledger := { player, house := "" }, purse := 0 }) hget rfl hh)
  simp [playerLine, hleases]

theorem playerLines_ok {names : List String} (hget : s.outage.get = false) (σ : Session)
    (hnames : ∀ name ∈ names, ∃ h, σ.visit.store.holdings name = .ok (some h)) :
    ∃ σ', playerLines s names σ = .ok () σ' := by
  induction names generalizing σ with
  | nil => exact ⟨σ, rfl⟩
  | cons name rest ih =>
    obtain ⟨⟨h, hh⟩, hrest⟩ := List.forall_mem_cons.mp hnames
    obtain ⟨σ₁, hline, hstore⟩ := playerLine_ok hget hh
    obtain ⟨σ', hlines⟩ := ih σ₁ (by rwa [hstore])
    exact ⟨σ', by simp only [playerLines, Talk.bind_apply, hline, hlines]⟩

/-- The players are told to the end if every name listed opens a record. -/
theorem players_ok {store : Store} (hget : s.outage.get = false)
    (hnames : ∀ name ∈ store.players houseTag, ∃ h, store.holdings name = .ok (some h)) :
    (Errand.players.run s store).1 = .ok () := by
  obtain ⟨σ', hlines⟩ := playerLines_ok hget ⟨{ store, ledger := { player := "", house := "" } }, []⟩ hnames
  by_cases hnone : store.players houseTag = []
  · simp [Errand.run, Errand.talk, hnone, playerLines]
  · simp [Errand.run, Errand.talk, hnone, hlines]

end

end Console

end HouseLease
