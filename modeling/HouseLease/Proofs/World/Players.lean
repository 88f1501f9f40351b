/-
  HouseLease.Proofs.World.Players — players do not interfere.

  `World.deeds` makes a run and notes of each step for which account it is and what came of it. Take
  the deeds of some accounts alone, with names respelled (`Respelled`), and make them again: as far
  as these accounts go the second world mirrors the first (`Mirrors`), whether a step is for one of
  them (`Mirrors.kept`) or for another (`Mirrors.others`), so the deeds come to the same
  (`Mirrors.run`).

  Taken for one account, that says that it cannot tell what others do; taken for all, that nothing
  but asking for a name tells how it is spelled (`players_do_not_interfere`).
-/

import HouseLease.Proofs.Visit.Kindred
import HouseLease.Proofs.World.Steps
import Mathlib.Data.List.Forall2

namespace HouseLease

/-! ## Deeds -/

/-- The account of the ledger of this name. -/
def World.accountAt (w : World) (name : String) : Option String :=
  (w.ledgers.lookup name).map (accountName ·.player)

/-- A step, for whose account it was made and what came of it. -/
structure Deed where
  /-- None for a call on a ledger that is not there. -/
  account : Option String
  setting : Setting
  step : Step
  /-- None for a step that was left out. -/
  answer : Option (Except Stop Answer)

def Deed.request (d : Deed) : Setting × Step := (d.setting, d.step)

/-- The purse a call spends from. -/
def Step.purse? : Step → Option String
  | .call _ purse _ => purse
  | _ => none

namespace World

variable (owner : String → String)

/-- The account a step is made for, when it is known whose account owns the purses. -/
def accountOf (w : World) : Step → Option String
  | .openLedger _ player _ => some (accountName player)
  | .openPurse name _ | .pay name _ | .refund name _ | .balance name => some (owner name)
  | .call name _ _ => w.accountAt name
  | .getRecord player _ | .createRecord player _ | .putRecord player _ _ _ => some (accountName player)

/-- What comes of a step. -/
def deed (w : World) (s : Setting) (step : Step) : Deed :=
  { account := w.accountOf owner step, setting := s, step, answer := (w.step s step).map (·.1.answer) }

/-- A run, deed by deed. -/
def deeds (w : World) : List (Setting × Step) → List Deed
  | [] => []
  | (s, step) :: rest => w.deed owner s step :: (w.after s step).deeds rest

theorem deeds_request (w : World) (steps : List (Setting × Step)) :
    (w.deeds owner steps).map Deed.request = steps := by
  induction steps generalizing w with
  | nil => rfl
  | cons p rest ih =>
    obtain ⟨s, step⟩ := p
    rw [deeds, List.map_cons, ih]
    rfl

end World

/-! ## Spellings -/

/-- Which names to take for spellings of which, all of one account. -/
structure Spelling where
  Spells : String → String → Prop
  refl (p : String) : Spells p p
  account {p q : String} : Spells p q → accountName q = accountName p

namespace Spelling

/-- Every name is spelled as it is. -/
def exact : Spelling := ⟨Eq, fun _ => rfl, fun h => congrArg accountName h.symm⟩

/-- Names of one account are spellings of each other. -/
def free : Spelling := ⟨fun p q => accountName q = accountName p, fun _ => rfl, fun h => h⟩

end Spelling

/-- The same step, or the same ledger opened under another spelling of the player's name. -/
inductive Respelled (spelling : Spelling) : Step → Step → Prop
  | same (step : Step) : Respelled spelling step step
  | opened {name p q house : String} :
      spelling.Spells p q → Respelled spelling (.openLedger name p house) (.openLedger name q house)

/-- The deed with names respelled, and with the same answer, unless the name was asked for. -/
structure Deed.Echoes (spelling : Spelling) (d d' : Deed) : Prop where
  account : d'.account = d.account
  setting : d'.setting = d.setting
  step : Respelled spelling d.step d'.step
  answer : d'.answer = d.answer ∨ ∃ name purse p q, d.step = .call name purse .player ∧ spelling.Spells p q ∧
    d.answer = some (.ok (.text p)) ∧ d'.answer = some (.ok (.text q))

theorem Deed.Echoes.eq {d d' : Deed} (h : Deed.Echoes .exact d d') : d = d' := by
  obtain ⟨account, setting, step, answer⟩ := d
  obtain ⟨account', setting', step', answer'⟩ := d'
  obtain ⟨haccount, hsetting, hstep, hanswer⟩ := h
  have hstep : step = step' := by
    cases hstep with
    | same => rfl
    | opened h => rw [h]
  have hanswer : answer' = answer := by
    rcases hanswer with h | ⟨_, _, p, q, -, rfl, h, h'⟩
    · exact h
    · exact h'.trans h.symm
  rw [Deed.mk.injEq]
  exact ⟨haccount.symm, hsetting.symm, hstep, hanswer.symm⟩

/-! ## Mirrors -/

/-- The ledger under another spelling of its player's name. -/
def Ledger.Renamed (spelling : Spelling) (l l' : Ledger) : Prop :=
  ∃ q, spelling.Spells l.player q ∧ l' = { l with player := q }

theorem Kindred.renamed_made {spelling : Spelling} {v v' : Visit} (h : Kindred v v')
    (hs : spelling.Spells v.ledger.player v'.ledger.player) (s : Setting) (c : Call) :
    (c.made s v).2.ledger.Renamed spelling (c.made s v').2.ledger := by
  have hmade := (h.made s c).1
  refine ⟨v'.ledger.player, by rw [c.player_made]; exact hs, ?_⟩
  rw [← hmade.house, ← hmade.copy, ← c.player_made s v']

/-- What `w` has for the accounts to keep, `w'` has too. -/
structure Mirrors (spelling : Spelling) (owner : String → String) (keep : Option String → Bool)
    (w w' : World) : Prop where
  store : ∀ key, (∀ player, key = recordKey player houseTag → keep (some (accountName player)) = true) →
    w'.store.find? key = w.store.find? key
  ledgers : ∀ name, keep (w.accountAt name) = true →
    Option.Rel (Ledger.Renamed spelling) (w.ledgers.lookup name) (w'.ledgers.lookup name)
  purses : ∀ name, keep (some (owner name)) = true → w'.purses.lookup name = w.purses.lookup name

/-- Kept calls spend kept money and others do not. -/
def Deed.OwnPurse (owner : String → String) (keep : Option String → Bool) (d : Deed) : Prop :=
  ∀ purse ∈ d.step.purse?, ∀ account ∈ d.account, keep (some (owner purse)) = keep (some account)

namespace Mirrors

variable {spelling : Spelling} {owner : String → String} {keep : Option String → Bool}
  {s : Setting} {w w' : World} {step step' : Step}

theorem assign_ledgers (h : Mirrors spelling owner keep w w') {name : String} {l l' : Ledger}
    (hl : l.Renamed spelling l') (k : String)
    (hk : keep (((World.assign name l w.ledgers).lookup k).map (accountName ·.player)) = true) :
    Option.Rel (Ledger.Renamed spelling) ((World.assign name l w.ledgers).lookup k)
      ((World.assign name l' w'.ledgers).lookup k) := by
  rw [lookup_assign] at hk
  rw [lookup_assign, lookup_assign]
  split
  · exact .some hl
  · rename_i hne
    rw [if_neg hne] at hk
    exact h.ledgers k hk

theorem accountAt (h : Mirrors spelling owner keep w w') {name : String} (hk : keep (w.accountAt name) = true) :
    w'.accountAt name = w.accountAt name := by
  have hrel := h.ledgers name hk
  unfold World.accountAt
  generalize w.ledgers.lookup name = a at hrel
  generalize w'.ledgers.lookup name = b at hrel
  cases hrel with
  | none => rfl
  | some hl =>
    obtain ⟨q, hq, rfl⟩ := hl
    exact congrArg some (spelling.account hq)

theorem ledger (h : Mirrors spelling owner keep w w') {name : String} {l : Ledger} (hl : w.ledgers.lookup name = some l)
    (hk : keep (w.accountAt name) = true) :
    ∃ q, spelling.Spells l.player q ∧ w'.ledgers.lookup name = some { l with player := q } := by
  have hrel := h.ledgers name hk
  rw [hl] at hrel
  generalize w'.ledgers.lookup name = r at hrel
  cases hrel with
  | some hr =>
    obtain ⟨q, hq, rfl⟩ := hr
    exact ⟨q, hq, rfl⟩

/-- Visits that are mirrored are, put back into mirrored worlds. -/
theorem putBack (h : Mirrors spelling owner keep w w') (name : String) (purse : Option String) {v v' : Visit}
    (hstore : ∀ key, (∀ player, key = recordKey player houseTag → keep (some (accountName player)) = true) →
      v'.store.find? key = v.store.find? key)
    (hledger : v.ledger.Renamed spelling v'.ledger) (hpurse : v'.purse = v.purse) :
    Mirrors spelling owner keep (w.putBack name purse v) (w'.putBack name purse v') where
  store key hkey := by
    rw [World.putBack_store, World.putBack_store]
    exact hstore key hkey
  ledgers k hk := by
    rw [World.accountAt, World.putBack_ledgers] at hk
    rw [World.putBack_ledgers, World.putBack_ledgers]
    exact h.assign_ledgers hledger k hk
  purses k hk := by
    rw [World.putBack_purses, World.putBack_purses]
    cases purse with
    | none => exact h.purses k hk
    | some p =>
      simp only [lookup_assign, hpurse]
      split
      · rfl
      · exact h.purses k hk

theorem opened (h : Mirrors spelling owner keep w w') {name p q house : String} (hpq : spelling.Spells p q) :
    Mirrors spelling owner keep (w.after s (.openLedger name p house)) (w'.after s (.openLedger name q house)) :=
  ⟨h.store, h.assign_ledgers (show Ledger.Renamed spelling ⟨p, house, .unread⟩ ⟨q, house, .unread⟩ from ⟨q, hpq, rfl⟩),
    h.purses⟩

/-- Money alone is moved. -/
theorem moved {w₁ w₁' : World} (h : Mirrors spelling owner keep w w') (hstore : w₁.store = w.store)
    (hstore' : w₁'.store = w'.store) (hledgers : w₁.ledgers = w.ledgers) (hledgers' : w₁'.ledgers = w'.ledgers)
    (hpurses : ∀ k, keep (some (owner k)) = true → w₁'.purses.lookup k = w₁.purses.lookup k) :
    Mirrors spelling owner keep w₁ w₁' where
  store := by
    rw [hstore, hstore']
    exact h.store
  ledgers := by
    rw [hledgers']
    unfold World.accountAt
    rw [hledgers]
    exact h.ledgers
  purses := hpurses

/-! ### Steps for accounts to keep -/

theorem echoes (haccount : w'.accountOf owner step = w.accountOf owner step)
    (hanswer : (w'.step s step).map (·.1.answer) = (w.step s step).map (·.1.answer)) :
    Deed.Echoes spelling (w.deed owner s step) (w'.deed owner s step) :=
  ⟨haccount, rfl, .same step, Or.inl hanswer⟩

/-- A step that both worlds leave out. -/
theorem left_out (h : Mirrors spelling owner keep w w') (haccount : w'.accountOf owner step = w.accountOf owner step)
    (hw : w.step s step = none) (hw' : w'.step s step = none) :
    Mirrors spelling owner keep (w.after s step) (w'.after s step) ∧
      Deed.Echoes spelling (w.deed owner s step) (w'.deed owner s step) := by
  rw [World.after_of_none hw, World.after_of_none hw']
  exact ⟨h, echoes haccount (by rw [hw, hw'])⟩

theorem kindred (h : Mirrors spelling owner keep w w') {l : Ledger} {q : String}
    (hk : keep (some (accountName l.player)) = true) (hq : spelling.Spells l.player q) (b : Int64) :
    Kindred (w.visit l b) (w'.visit { l with player := q } b) := by
  refine ⟨rfl, rfl, rfl, ?_⟩
  show w'.store.find? (recordKey q houseTag) = w.store.find? (recordKey l.player houseTag)
  rw [recordKey_inj.mpr (spelling.account hq)]
  refine h.store _ fun player hplayer => ?_
  rw [← recordKey_inj.mp hplayer]
  exact hk

theorem call (h : Mirrors spelling owner keep w w') {name : String} {purse : Option String} {c : Call}
    (hk : keep (w.accountAt name) = true) (hown : (w.deed owner s (.call name purse c)).OwnPurse owner keep) :
    Mirrors spelling owner keep (w.after s (.call name purse c)) (w'.after s (.call name purse c)) ∧
      Deed.Echoes spelling (w.deed owner s (.call name purse c)) (w'.deed owner s (.call name purse c)) := by
  have hat : w'.accountAt name = w.accountAt name := h.accountAt hk
  cases hl : w.ledgers.lookup name with
  | none =>
    have hl' : w'.ledgers.lookup name = none := by simpa [World.accountAt, hl] using hat
    exact h.left_out hat (by simp [World.step, World.call, hl]) (by simp [World.step, World.call, hl'])
  | some l =>
    have haccountAt : w.accountAt name = some (accountName l.player) := by rw [World.accountAt, hl, Option.map_some]
    obtain ⟨q, hq, hl'⟩ := h.ledger hl hk
    rw [haccountAt] at hk
    have hpurse : w'.purseOf? purse = w.purseOf? purse := by
      cases purse with
      | none => rfl
      | some p => exact h.purses p ((hown p rfl _ haccountAt).trans hk)
    cases hb : w.purseOf? purse with
    | none =>
      exact h.left_out hat (by simp [World.step, World.call, hl, hb])
        (by simp [World.step, World.call, hl', hpurse, hb])
    | some b =>
      obtain ⟨log, hstep⟩ : ∃ log, w.step s (.call name purse c) = some (⟨_, log⟩, _) := World.call_apply hl hb
      obtain ⟨log', hstep'⟩ : ∃ log, w'.step s (.call name purse c) = some (⟨_, log⟩, _) :=
        World.call_apply hl' (hpurse.trans hb)
      obtain ⟨hmade, hanswer⟩ := (h.kindred hk hq b).made s c
      constructor
      · rw [World.after_of_some hstep, World.after_of_some hstep']
        refine h.putBack name purse (fun key hkey => ?_) ((h.kindred hk hq b).renamed_made hq s c) hmade.purse
        exact (h.kindred hk hq b).find?_made (spelling.account hq) s c fun _ => h.store key hkey
      · refine ⟨hat, rfl, .same _, ?_⟩
        simp only [World.deed, hstep, hstep', Option.map_some]
        rcases hanswer with hanswer | ⟨rfl, hp, hp'⟩
        · exact Or.inl (congrArg some hanswer)
        · exact Or.inr ⟨name, purse, l.player, q, rfl, hq, congrArg some hp, congrArg some hp'⟩

theorem till (h : Mirrors spelling owner keep w w') {name : String} (htill : step.till? = some name)
    (hk : keep (some (owner name)) = true) :
    Mirrors spelling owner keep (w.after s step) (w'.after s step) ∧
      Deed.Echoes spelling (w.deed owner s step) (w'.deed owner s step) := by
  have haccount : w'.accountOf owner step = w.accountOf owner step := by
    cases step <;> first | rfl | cases htill
  have hsame : w'.purses.lookup name = w.purses.lookup name := h.purses name hk
  cases hb : w.purses.lookup name with
  | none => exact h.left_out haccount (World.step_till_none s htill hb) (World.step_till_none s htill (hsame.trans hb))
  | some b =>
    obtain ⟨w₁, hstep, hstore, hledgers, hpurses⟩ := World.step_till_some s htill hb
    obtain ⟨w₁', hstep', hstore', hledgers', hpurses'⟩ := World.step_till_some s htill (hsame.trans hb)
    refine ⟨?_, echoes haccount (by rw [hstep, hstep']; rfl)⟩
    rw [World.after_of_some hstep, World.after_of_some hstep']
    refine h.moved hstore hstore' hledgers hledgers' fun k hk => ?_
    rw [hpurses, hpurses', h.purses k hk]

/-- A step for an account to keep, in both worlds. -/
theorem kept (h : Mirrors spelling owner keep w w') (hb : step.bypasses = false)
    (hk : keep (w.accountOf owner step) = true) (hown : (w.deed owner s step).OwnPurse owner keep)
    (hstep : Respelled spelling step step') :
    Mirrors spelling owner keep (w.after s step) (w'.after s step') ∧
      Deed.Echoes spelling (w.deed owner s step) (w'.deed owner s step') := by
  cases hstep with
  | opened hpq => exact ⟨h.opened hpq, congrArg some (spelling.account hpq), rfl, .opened hpq, Or.inl rfl⟩
  | same =>
    cases step with
    | openLedger name player house => exact ⟨h.opened (spelling.refl player), echoes rfl rfl⟩
    | openPurse name balance =>
      refine ⟨h.moved rfl rfl rfl rfl fun k hk => ?_, echoes rfl rfl⟩
      show (World.assign name balance w'.purses).lookup k = (World.assign name balance w.purses).lookup k
      rw [lookup_assign, lookup_assign, h.purses k hk]
    | pay _ _ | refund _ _ | balance _ => exact h.till rfl hk
    | call name purse c => exact h.call hk hown
    | getRecord _ _ | createRecord _ _ | putRecord _ _ _ _ => cases hb

/-! ### Steps for others -/

theorem others_call (h : Mirrors spelling owner keep w w') {name : String} {purse : Option String} {c : Call}
    (hk : keep (w.accountAt name) = false) (hown : (w.deed owner s (.call name purse c)).OwnPurse owner keep) :
    Mirrors spelling owner keep (w.after s (.call name purse c)) w' := by
  cases hstep : w.step s (.call name purse c) with
  | none =>
    rw [World.after_of_none hstep]
    exact h
  | some p =>
    obtain ⟨reply, w₁⟩ := p
    obtain ⟨l, b, hl, -, -, rfl⟩ := World.call_eq_some hstep
    have haccountAt : w.accountAt name = some (accountName l.player) := by rw [World.accountAt, hl, Option.map_some]
    rw [haccountAt] at hk
    rw [World.after_of_some hstep]
    constructor
    · intro key hkey
      have hne : key ≠ recordKey l.player houseTag := by
        intro heq
        exact Bool.noConfusion (hk.symm.trans (hkey _ heq))
      rw [World.putBack_store, c.find?_made (v := w.visit l b) hne]
      exact h.store key hkey
    · intro k hkeep
      rw [World.accountAt, World.putBack_ledgers, lookup_assign] at hkeep
      rw [World.putBack_ledgers, lookup_assign]
      split at hkeep
      · rw [Option.map_some, c.player_made] at hkeep
        exact Bool.noConfusion (hk.symm.trans hkeep)
      · rename_i hne
        rw [if_neg hne]
        exact h.ledgers k hkeep
    · intro k hkeep
      rw [World.putBack_purses]
      cases purse with
      | none => exact h.purses k hkeep
      | some p =>
        simp only [lookup_assign]
        split
        · rename_i heq
          subst heq
          have hfalse := (hown k rfl _ haccountAt).trans hk
          exact Bool.noConfusion (hfalse.symm.trans hkeep)
        · exact h.purses k hkeep

theorem others_money {w₁ : World} (h : Mirrors spelling owner keep w w') {name : String} {b : Int64}
    (hk : keep (some (owner name)) = false) (hstore : w₁.store = w.store)
    (hledgers : w₁.ledgers = w.ledgers)
    (hpurses : ∀ k, w₁.purses.lookup k = if k = name then some b else w.purses.lookup k) :
    Mirrors spelling owner keep w₁ w' := by
  refine h.moved hstore rfl hledgers rfl fun k hkeep => ?_
  have hne : k ≠ name := by
    rintro rfl
    exact Bool.noConfusion (hk.symm.trans hkeep)
  rw [hpurses, if_neg hne]
  exact h.purses k hkeep

theorem others_till (h : Mirrors spelling owner keep w w') {name : String} (htill : step.till? = some name)
    (hk : keep (some (owner name)) = false) : Mirrors spelling owner keep (w.after s step) w' := by
  cases hb : w.purses.lookup name with
  | none =>
    rw [World.after_of_none (World.step_till_none s htill hb)]
    exact h
  | some b =>
    obtain ⟨w₁, hstep, hstore, hledgers, hpurses⟩ := World.step_till_some s htill hb
    rw [World.after_of_some hstep]
    exact h.others_money hk hstore hledgers hpurses

theorem others (h : Mirrors spelling owner keep w w') (hb : step.bypasses = false)
    (hk : keep (w.accountOf owner step) = false) (hown : (w.deed owner s step).OwnPurse owner keep) :
    Mirrors spelling owner keep (w.after s step) w' := by
  cases step with
  | openLedger name player house =>
    refine ⟨h.store, fun k hkeep => ?_, h.purses⟩
    change keep (Option.map _ ((World.assign name _ w.ledgers).lookup k)) = true at hkeep
    show Option.Rel _ ((World.assign name _ w.ledgers).lookup k) _
    rw [lookup_assign] at hkeep ⊢
    split at hkeep
    · exact Bool.noConfusion (hk.symm.trans hkeep)
    · rename_i hne
      rw [if_neg hne]
      exact h.ledgers k hkeep
  | openPurse name balance =>
    exact h.others_money hk rfl rfl fun k => lookup_assign name k balance w.purses
  | pay _ _ | refund _ _ | balance _ => exact h.others_till rfl hk
  | call name purse c => exact h.others_call hk hown
  | getRecord _ _ | createRecord _ _ | putRecord _ _ _ _ => cases hb

/-! ### Runs -/

theorem refl (owner : String → String) (keep : Option String → Bool) (w : World) :
    Mirrors spelling owner keep w w where
  store _ _ := rfl
  ledgers name _ := by
    cases w.ledgers.lookup name with
    | none => exact .none
    | some l => exact .some ⟨l.player, spelling.refl l.player, rfl⟩
  purses _ _ := rfl

/-- A run, and one of its deeds for accounts to keep with names respelled. -/
theorem run {steps others : List (Setting × Step)} (h : Mirrors spelling owner keep w w')
    (hsteps : ∀ p ∈ steps, p.2.bypasses = false) (hown : ∀ d ∈ w.deeds owner steps, d.OwnPurse owner keep)
    (hothers : List.Forall₂ (fun d p => p.1 = d.setting ∧ Respelled spelling d.step p.2)
      ((w.deeds owner steps).filter (keep ·.account)) others) :
    List.Forall₂ (Deed.Echoes spelling) ((w.deeds owner steps).filter (keep ·.account)) (w'.deeds owner others) ∧
      Mirrors spelling owner keep (w.run steps).2 (w'.run others).2 := by
  induction steps generalizing w w' others with
  | nil =>
    cases hothers
    exact ⟨.nil, h⟩
  | cons p rest ih =>
    obtain ⟨s, step⟩ := p
    obtain ⟨hb, hrest⟩ := List.forall_mem_cons.mp hsteps
    obtain ⟨howned, hownrest⟩ := List.forall_mem_cons.mp hown
    rw [World.deeds] at hothers ⊢
    rw [World.run_cons]
    cases hk : keep (w.accountOf owner step) with
    | true =>
      rw [List.filter_cons_of_pos (p := fun d : Deed => keep d.account) hk] at hothers ⊢
      cases hothers with
      | @cons _ p' _ others hp hothers =>
        obtain ⟨s', step'⟩ := p'
        obtain ⟨hs, hstep⟩ := hp
        cases hs
        obtain ⟨hafter, hecho⟩ := h.kept hb hk howned hstep
        obtain ⟨hechoes, hend⟩ := ih hafter hrest hownrest hothers
        rw [World.deeds, World.run_cons]
        exact ⟨.cons hecho hechoes, hend⟩
    | false =>
      rw [List.filter_cons_of_neg (p := fun d : Deed => keep d.account) (Bool.eq_false_iff.mp hk)] at hothers ⊢
      exact ih (h.others hb hk howned) hrest hownrest hothers

end Mirrors

/-! ## Players -/

/-- Every purse is its owner's: no call of another account spends from it. -/
def PursesApart (owner : String → String) (deeds : List Deed) : Prop :=
  ∀ d ∈ deeds, ∀ purse ∈ d.step.purse?, ∀ account ∈ d.account, owner purse = account

instance (owner : String → String) (deeds : List Deed) : Decidable (PursesApart owner deeds) :=
  inferInstanceAs (Decidable (∀ d ∈ deeds, ∀ purse ∈ d.step.purse?, ∀ account ∈ d.account, _))

/-- The deeds of one player made again without those of all others come to the same: each is answered the same, and the
    player's purses and record are in the end as they were. And a run made again with names respelled comes to the
    same, but for the name that is given when it is asked for. -/
theorem players_do_not_interfere (owner : String → String) (w : World) {steps : List (Setting × Step)}
    (hsteps : ∀ p ∈ steps, p.2.bypasses = false) :
    (∀ player, PursesApart owner (w.deeds owner steps) →
      let own := (w.deeds owner steps).filter (·.account == some (accountName player))
      let alone := (w.run (own.map Deed.request)).2
      w.deeds owner (own.map Deed.request) = own ∧
        (∀ purse, owner purse = accountName player →
          alone.purses.lookup purse = (w.run steps).2.purses.lookup purse) ∧
        alone.store.find? (recordKey player houseTag) = (w.run steps).2.store.find? (recordKey player houseTag)) ∧
    (∀ respelled, List.Forall₂ (fun p q => q.1 = p.1 ∧ Respelled .free p.2 q.2) steps respelled →
      List.Forall₂ (Deed.Echoes .free) (w.deeds owner steps) (w.deeds owner respelled) ∧
        (∀ purse, (w.run respelled).2.purses.lookup purse = (w.run steps).2.purses.lookup purse) ∧
        ∀ key, (w.run respelled).2.store.find? key = (w.run steps).2.store.find? key) := by
  refine ⟨fun player hapart => ?_, fun respelled hrespelled => ?_⟩
  · intro own alone
    have hown : ∀ d ∈ w.deeds owner steps, d.OwnPurse owner (· == some (accountName player)) := by
      intro d hd purse hpurse account haccount
      rw [hapart d hd purse hpurse account haccount]
    have hsame : List.Forall₂ (fun d p => p.1 = d.setting ∧ Respelled .exact d.step p.2) own (own.map Deed.request) :=
      List.forall₂_map_right_iff.mpr (List.forall₂_same.mpr fun d _ => ⟨rfl, .same d.step⟩)
    have hstart : Mirrors .exact owner (· == some (accountName player)) w w := .refl owner _ w
    obtain ⟨hechoes, hend⟩ := hstart.run hsteps hown hsame
    refine ⟨?_, fun purse hpurse => hend.purses purse (by simp [hpurse]), hend.store _ fun q hq => ?_⟩
    · have heq := hechoes.imp fun _ _ h => h.eq
      rw [List.forall₂_eq_eq_eq] at heq
      exact heq.symm
    · simp [recordKey_inj.mp hq]
  · have hall : (w.deeds owner steps).filter (fun _ => true) = w.deeds owner steps := List.filter_true _
    rw [← World.deeds_request owner w steps, List.forall₂_map_left_iff, ← hall] at hrespelled
    have hstart : Mirrors .free owner (fun _ => true) w w := .refl owner _ w
    obtain ⟨hechoes, hend⟩ := hstart.run hsteps (fun _ _ _ _ _ _ => rfl) hrespelled
    rw [hall] at hechoes
    exact ⟨hechoes, fun purse => hend.purses purse rfl, fun key => hend.store key fun _ _ => rfl⟩

/-- Two purses, Ann's and that of a player whose name ends like her key. -/
def neighboursPurses (purse : String) : String := if purse = "a" then "ann" else "ann:luxury_house"

/-- Ann buys a house and is charged a day later on. Her neighbour's first purchase is not written, and the second is made
    on a ledger in place of hers. -/
def neighbours (ann : String) : List (Setting × Step) :=
  let later : Setting := { shippedWith {} with now := some 1701000000 }
  [(shippedWith {}, .openPurse "a" 2000000), (shippedWith {}, .openPurse "b" 2000000),
    (shippedWith {}, .openLedger "l" ann "greyton"), (shippedWith {}, .call "l" (some "a") .buyHouse),
    (shippedWith {}, .call "l" none .player), (shippedWith {}, .openLedger "m" "ann:LUXURY_HOUSE" "greyton"),
    (shippedWith { put := true }, .call "m" (some "b") .buyHouse), (later, .openLedger "m" "ANN" "greyton"),
    (later, .call "m" (some "a") .checkExitFees), (later, .openLedger "l" "ann:luxury_house" "greyton"),
    (later, .call "l" (some "b") .buyHouse), (later, .balance "a")]

theorem neighbours_do_not_meet :
    let own := (World.deeds neighboursPurses {} (neighbours "Ann")).filter (·.account == some (accountName "Ann"))
    own.map (·.answer) =
        [some (.ok .done), some (.ok .done), some (.ok (.purchase (.bought 1500000 1700864000))),
          some (.ok (.text "Ann")), some (.ok .done), some (.ok (.feeCheck (.charged 7500))),
          some (.ok (.number 492500))] ∧
      World.deeds neighboursPurses {} (own.map Deed.request) = own ∧
      List.Forall₂ (Deed.Echoes .free) (World.deeds neighboursPurses {} (neighbours "Ann"))
        (World.deeds neighboursPurses {} (neighbours "aNN")) := by
  have hann : accountName "Ann" = "ann" := by decide +kernel
  have hrespelled : Spelling.free.Spells "Ann" "aNN" := by
    have hann' : accountName "aNN" = "ann" := by decide +kernel
    exact hann'.trans hann.symm
  have hapart : PursesApart neighboursPurses (World.deeds neighboursPurses {} (neighbours "Ann")) := by decide +kernel
  have hsteps : ∀ p ∈ neighbours "Ann", p.2.bypasses = false := by decide
  obtain ⟨halone, hall⟩ := players_do_not_interfere neighboursPurses {} hsteps
  refine ⟨?_, (halone "Ann" hapart).1, (hall (neighbours "aNN") ?_).1⟩
  · rw [hann]
    decide +kernel
  · refine .cons ⟨rfl, .same _⟩ (.cons ⟨rfl, .same _⟩ (.cons ⟨rfl, .opened hrespelled⟩ ?_))
    exact List.forall₂_same.mpr fun p _ => ⟨rfl, .same p.2⟩

end HouseLease
