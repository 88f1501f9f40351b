/-
  HouseLease.Proofs.World.Steps — what one step does to a world.

  A call on a ledger is `Call.made` on the visit the world has for it, ledger and purse being put
  back after it (`World.call_apply`). Of the other steps one opens a ledger and the rest move money.
  `Stepped` says once what that means for store and ledgers, for every step that does not go past
  the ledgers to the store, made or left out (`World.stepped`). A run is these steps one after the
  other (`World.run_cons`, `World.run_append`).
-/

import HouseLease.Proofs.Visit.Runs

namespace HouseLease

/-! ## Names and what they stand for -/

/-- An entry put in front of those with other keys. -/
theorem lookup_cons_filter {κ α : Type} [BEq κ] [LawfulBEq κ] [DecidableEq κ] (key k : κ) (v : α)
    (entries : List (κ × α)) :
    ((key, v) :: entries.filter (·.1 != key)).lookup k = if k = key then some v else entries.lookup k := by
  by_cases hk : k = key
  · simp [hk]
  · have hb : (k == key) = false := beq_eq_false_iff_ne.mpr hk
    rw [List.lookup_cons, hb, if_neg hk]
    induction entries with
    | nil => rfl
    | cons e es ih =>
      obtain ⟨n, a⟩ := e
      by_cases hn : n = key
      · simp [hn, List.lookup_cons, hb, ih]
      · simp [hn, List.lookup_cons, ih]

theorem lookup_assign {α : Type} (name k : String) (v : α) (entries : List (String × α)) :
    (World.assign name v entries).lookup k = if k = name then some v else entries.lookup k :=
  lookup_cons_filter ..

/-! ## Calls -/

/-- The steps that go to the store past the ledgers. -/
def Step.bypasses : Step → Bool
  | .getRecord _ _ | .createRecord _ _ | .putRecord _ _ _ _ => true
  | .openLedger _ _ _ | .openPurse _ _ | .pay _ _ | .refund _ _ | .balance _ | .call _ _ _ => false

/-- The purse that a step looks into or changes without a ledger. -/
def Step.till? : Step → Option String
  | .pay name _ | .refund name _ | .balance name => some name
  | .openLedger _ _ _ | .openPurse _ _ | .call _ _ _ | .getRecord _ _ | .createRecord _ _ | .putRecord _ _ _ _ => none

/-- What such a step answers to a balance, and the balance after it. -/
def Step.atTill (b : Int64) : Step → Except Stop Answer × Int64
  | .pay _ amount =>
    match Purse.pay? b amount with
    | some b' => (.ok (.flag true), b')
    | none => (.ok (.flag false), b)
  | .refund _ amount =>
    match Purse.refund b amount with
    | .ok b' => (.ok .done, b')
    | .error op => (.error (.overflow op), b)
  | .openLedger _ _ _ | .openPurse _ _ | .balance _ | .call _ _ _ | .getRecord _ _ | .createRecord _ _
  | .putRecord _ _ _ _ => (.ok (.number b), b)

namespace World

/-- What a call on the ledger finds. -/
def visit (w : World) (l : Ledger) (balance : Int64) : Visit := { store := w.store, ledger := l, purse := balance }

section

variable (w : World) (name : String) (purse : Option String) (v : Visit)

@[simp]
theorem putBack_store : (w.putBack name purse v).store = v.store := by
  cases purse <;> rfl

@[simp]
theorem putBack_ledgers : (w.putBack name purse v).ledgers = assign name v.ledger w.ledgers := by
  cases purse <;> rfl

@[simp]
theorem putBack_purses :
    (w.putBack name purse v).purses = match purse with
      | none => w.purses
      | some p => assign p v.purse w.purses := by
  cases purse <;> rfl

end

variable {s : Setting} {w : World} {name : String} {purse : Option String} {c : Call}

theorem call_apply {l : Ledger} {b : Int64} (hl : w.ledgers.lookup name = some l) (hb : w.purseOf? purse = some b) :
    ∃ log, w.call s name purse c
      = some (⟨(c.made s (w.visit l b)).1.answer, log⟩, w.putBack name purse (c.made s (w.visit l b)).2) := by
  simp only [call, hl, hb, Option.bind_eq_bind, Option.bind_some, Call.made, visit]
  cases c.run s _ with
  | ok a v => exact ⟨v.log, rfl⟩
  | error e v => exact ⟨v.log, rfl⟩

theorem call_eq_some {reply : Reply} {w' : World} (h : w.call s name purse c = some (reply, w')) :
    ∃ l b, w.ledgers.lookup name = some l ∧ w.purseOf? purse = some b ∧
      reply.answer = (c.made s (w.visit l b)).1.answer ∧ w' = w.putBack name purse (c.made s (w.visit l b)).2 := by
  cases hl : w.ledgers.lookup name with
  | none => simp [call, hl] at h
  | some l =>
    cases hb : w.purseOf? purse with
    | none => simp [call, hl, hb] at h
    | some b =>
      obtain ⟨log, hcall⟩ := call_apply (s := s) (c := c) hl hb
      rw [hcall] at h
      cases h
      exact ⟨l, b, rfl, rfl, rfl, rfl⟩

/-! ## Money -/

theorem step_till_none (s : Setting) {step : Step} {name : String} (h : step.till? = some name)
    (hb : w.purses.lookup name = none) : w.step s step = none := by
  cases step with
  | pay _ _ | refund _ _ | balance _ =>
    cases h
    simp [World.step, hb]
  | openLedger _ _ _ | openPurse _ _ | call _ _ _ | getRecord _ _ | createRecord _ _ | putRecord _ _ _ _ => cases h

/-- Such a step answers by the balance alone, and changes nothing else. -/
theorem step_till_some (s : Setting) {step : Step} {name : String} {b : Int64} (h : step.till? = some name)
    (hb : w.purses.lookup name = some b) :
    ∃ w', w.step s step = some (⟨(step.atTill b).1, []⟩, w') ∧ w'.store = w.store ∧ w'.ledgers = w.ledgers ∧
      ∀ k, w'.purses.lookup k = if k = name then some (step.atTill b).2 else w.purses.lookup k := by
  have hkeep : ∀ k, w.purses.lookup k = if k = name then some b else w.purses.lookup k := by
    intro k
    split
    · rename_i hk
      rw [hk, hb]
    · rfl
  cases step with
  | balance n =>
    cases h
    exact ⟨w, by simp [World.step, hb, Step.atTill], rfl, rfl, hkeep⟩
  | pay n amount =>
    cases h
    cases hp : Purse.pay? b amount with
    | none =>
      exact ⟨w, by simp [World.step, hb, hp, Step.atTill], rfl, rfl, by simpa [hp, Step.atTill] using hkeep⟩
    | some b' =>
      refine ⟨w.keepPurse name b', by simp [World.step, hb, hp, Step.atTill], rfl, rfl, fun k => ?_⟩
      simp [keepPurse, lookup_assign, hp, Step.atTill]
  | refund n amount =>
    cases h
    cases hp : Purse.refund b amount with
    | error op =>
      exact ⟨w, by simp [World.step, hb, hp, Step.atTill], rfl, rfl, by simpa [hp, Step.atTill] using hkeep⟩
    | ok b' =>
      refine ⟨w.keepPurse name b', by simp [World.step, hb, hp, Step.atTill], rfl, rfl, fun k => ?_⟩
      simp [keepPurse, lookup_assign, hp, Step.atTill]
  | openLedger _ _ _ | openPurse _ _ | call _ _ _ | getRecord _ _ | createRecord _ _ | putRecord _ _ _ _ => cases h

/-! ## Steps -/

/-- The world after a step, which may be left out. -/
def after (w : World) (s : Setting) (step : Step) : World :=
  match w.step s step with
  | some (_, w') => w'
  | none => w

theorem after_of_some {step : Step} {reply : Reply} {w' : World} (h : w.step s step = some (reply, w')) :
    w.after s step = w' := by
  rw [after, h]

theorem after_of_none {step : Step} (h : w.step s step = none) : w.after s step = w := by
  rw [after, h]

/-- What a step that does not go past the ledgers does to store and ledgers. -/
inductive Stepped (s : Setting) (w w' : World) : Step → Prop
  /-- Money is moved, or the step is left out. -/
  | idle {step : Step} :
      (∀ name player house, step ≠ .openLedger name player house) → w'.store = w.store → w'.ledgers = w.ledgers →
      Stepped s w w' step
  | opened {name player house : String} :
      w'.store = w.store → w'.ledgers = assign name { player, house } w.ledgers →
      Stepped s w w' (.openLedger name player house)
  | called {name : String} {purse : Option String} {c : Call} {l : Ledger} {b : Int64} :
      w.ledgers.lookup name = some l → w'.store = (c.made s (w.visit l b)).2.store →
      w'.ledgers = assign name (c.made s (w.visit l b)).2.ledger w.ledgers → Stepped s w w' (.call name purse c)

theorem Stepped.left {step : Step} (hnew : ∀ name player house, step ≠ .openLedger name player house) :
    Stepped s w w step :=
  .idle hnew rfl rfl

theorem stepped_till {step : Step} {purse : String} (h : step.till? = some purse) :
    Stepped s w (w.after s step) step := by
  have hnew : ∀ name player house, step ≠ .openLedger name player house := by
    rintro name player house rfl
    cases h
  cases hb : w.purses.lookup purse with
  | none =>
    rw [after_of_none (step_till_none s h hb)]
    exact .left hnew
  | some b =>
    obtain ⟨w', hstep, hstore, hledgers, -⟩ := step_till_some s h hb
    rw [after_of_some hstep]
    exact .idle hnew hstore hledgers

theorem stepped (s : Setting) (w : World) {step : Step} (h : step.bypasses = false) :
    Stepped s w (w.after s step) step := by
  cases step with
  | openLedger name player house => exact .opened rfl rfl
  | openPurse name balance => exact .idle (fun _ _ _ => Step.noConfusion) rfl rfl
  | pay _ _ | refund _ _ | balance _ => exact stepped_till rfl
  | call name purse c =>
    cases hcall : w.call s name purse c with
    | none =>
      rw [show w.after s (.call name purse c) = w from after_of_none hcall]
      exact .left fun _ _ _ => Step.noConfusion
    | some p =>
      obtain ⟨reply, w'⟩ := p
      obtain ⟨l, b, hl, -, -, rfl⟩ := call_eq_some hcall
      rw [show w.after s (.call name purse c) = _ from after_of_some hcall]
      exact .called hl (w.putBack_store _ _ _) (w.putBack_ledgers _ _ _)
  | getRecord _ _ | createRecord _ _ | putRecord _ _ _ _ => cases h

/-! ## Runs -/

theorem run_cons (w : World) (s : Setting) (step : Step) (rest : List (Setting × Step)) :
    (w.run ((s, step) :: rest)).2 = ((w.after s step).run rest).2 := by
  rw [run, after]
  cases w.step s step <;> rfl

theorem run_append (w : World) (a b : List (Setting × Step)) : (w.run (a ++ b)).2 = ((w.run a).2.run b).2 := by
  induction a generalizing w with
  | nil => rfl
  | cons p a ih =>
    obtain ⟨s, step⟩ := p
    rw [List.cons_append, run_cons, run_cons, ih]

end World

end HouseLease
