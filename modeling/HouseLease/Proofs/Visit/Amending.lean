/-
  HouseLease.Proofs.Visit.Amending — how a draft changes the list of leases.

  A draft's list is the one the ledger showed, or that one with a house behind the others that was
  not on it, or that one with the first lease on a house moved on by days of fees (`Amended`,
  `Drafts.amended`).
-/

import HouseLease.Proofs.Visit.Drafts

namespace HouseLease

/-- The leases held, none by a player without a record. -/
def leasesOf (held : Option Holdings) : List Lease := (held.map (·.leases)).getD []

theorem not_mem_of_owns {h : Holdings} {house : String} (hn : h.owns house = false) :
    house ∉ h.leases.map (·.house) := by
  simpa [Holdings.owns, Holdings.paidUntil?] using hn

theorem mem_extendFirst {house : String} {t : Int64} {l : Lease} {ls : List Lease} (hl : l ∈ extendFirst house t ls) :
    l ∈ ls ∨ l = ⟨house, t⟩ := by
  induction ls with
  | nil => cases hl
  | cons k ks ih =>
    rw [extendFirst] at hl
    split at hl
    · rename_i hk
      rcases List.mem_cons.mp hl with rfl | hl
      · rw [eq_of_beq hk]
        exact Or.inr rfl
      · exact Or.inl (List.mem_cons_of_mem _ hl)
    · rcases List.mem_cons.mp hl with rfl | hl
      · exact Or.inl List.mem_cons_self
      · exact (ih hl).imp_left (List.mem_cons_of_mem _)

/-- A lease moved on twice is where it was moved the second time. -/
theorem Holdings.extend_extend (h : Holdings) (house : String) (t t' : Int64) :
    (h.extend house t).extend house t' = h.extend house t' := by
  obtain ⟨ls, last⟩ := h
  suffices hls : extendFirst house t' (extendFirst house t ls) = extendFirst house t' ls by
    simp [extend, hls]
  induction ls with
  | nil => rfl
  | cons l ls ih =>
    by_cases hl : (l.house == house) = true
    · simp [extendFirst, hl]
    · simp [extendFirst, hl, ih]

/-- A lease moved to where it ends stays as it is. -/
theorem Holdings.extend_self {h : Holdings} {house : String} {t : Int64} (hp : h.paidUntil? house = some t) :
    h.extend house t = h := by
  obtain ⟨ls, last⟩ := h
  obtain ⟨l, hl, rfl⟩ := Option.map_eq_some_iff.mp hp
  suffices hls : extendFirst house l.paidUntil ls = ls by
    simp [extend, hls]
  clear hp
  induction ls with
  | nil => cases hl
  | cons k ks ih =>
    rw [extendFirst]
    by_cases hk : (k.house == house) = true
    · rw [List.find?_cons_of_pos (by simpa using hk)] at hl
      cases hl
      rw [if_pos hk]
    · rw [List.find?_cons_of_neg (by simpa using hk)] at hl
      rw [if_neg hk, ih hl]

theorem extendFirst_append {before : List Lease} {house : String} (hbefore : ∀ l ∈ before, l.house ≠ house)
    (t t' : Int64) (after : List Lease) :
    extendFirst house t' (before ++ ⟨house, t⟩ :: after) = before ++ ⟨house, t'⟩ :: after := by
  induction before with
  | nil => simp [extendFirst]
  | cons l before ih =>
    obtain ⟨hl, hbefore⟩ := List.forall_mem_cons.mp hbefore
    simp [extendFirst, hl, ih hbefore]

/-- The first lease on the house ends at `t` in the one list and at `t'` in the other; nothing else differs. -/
def Moves (house : String) (t t' : Int64) (ls ls' : List Lease) : Prop :=
  ∃ before after, (∀ l ∈ before, l.house ≠ house) ∧ ls = before ++ ⟨house, t⟩ :: after ∧
    ls' = before ++ ⟨house, t'⟩ :: after

/-- The lease that is looked up is the one that is moved. -/
theorem Holdings.moves_extend {h : Holdings} {house : String} {t : Int64} (hp : h.paidUntil? house = some t)
    (t' : Int64) : Moves house t t' h.leases (h.extend house t').leases := by
  obtain ⟨l, hl, rfl⟩ := Option.map_eq_some_iff.mp hp
  obtain ⟨hhouse, before, after, hleases, hbefore⟩ := List.find?_eq_some_iff_append.mp hl
  cases eq_of_beq hhouse
  have hbefore : ∀ k ∈ before, k.house ≠ l.house := fun k hk => by simpa using hbefore k hk
  refine ⟨before, after, hbefore, hleases, ?_⟩
  rw [extend, hleases]
  exact extendFirst_append hbefore _ t' after

/-- What holds of every lease, with one more. -/
theorem forall_mem_acquired {P : Lease → Prop} {house : String} {t : Int64} {ls : List Lease} (h : ∀ l ∈ ls, P l)
    (ht : P ⟨house, t⟩) : ∀ l ∈ ls ++ [⟨house, t⟩], P l :=
  List.forall_mem_append.mpr ⟨h, List.forall_mem_singleton.mpr ht⟩

/-- What holds of every lease, with one of them extended. -/
theorem forall_mem_extendFirst {P : Lease → Prop} {house : String} {t : Int64} {ls : List Lease}
    (h : ∀ l ∈ ls, P l) (ht : P ⟨house, t⟩) : ∀ l ∈ extendFirst house t ls, P l := by
  intro l hl
  rcases mem_extendFirst hl with hl | rfl
  · exact h l hl
  · exact ht

/-- What one change can make of a list. -/
inductive Amended (ls : List Lease) : List Lease → Prop
  | same : Amended ls ls
  | acquired {house : String} {t : Int64} : house ∉ ls.map (·.house) → Amended ls (ls ++ [⟨house, t⟩])
  | extended {house : String} {l : Lease} {days : UInt32} {t : Int64} :
      ls.find? (·.house == house) = some l → addDays l.paidUntil days = .ok t → Amended ls (extendFirst house t ls)

section

variable {s : Setting} {v : Visit}

/-- A new record lists what the player held without one. -/
theorem Setting.leases_enrolled {h : Holdings} {store : Store} (he : s.enrolled v = .ok (h, store)) :
    ∃ held, s.held v = .ok held ∧ h.leases = leasesOf held := by
  rcases Setting.enrolled_cases he with ⟨hh, -⟩ | ⟨hh, rfl, -⟩
  · exact ⟨some h, hh, rfl⟩
  · exact ⟨none, hh, rfl⟩

theorem Setting.lists_enrolled {P : List Lease → Prop} {held : Option Holdings} {h : Holdings} {store : Store}
    (hh : s.held v = .ok held) (he : s.enrolled v = .ok (h, store)) (hp : P (leasesOf held)) : P h.leases := by
  obtain ⟨held', hh', hleases⟩ := Setting.leases_enrolled he
  cases hh.symm.trans hh'
  exact hleases ▸ hp

theorem Amended.extend {h : Holdings} {house : String} {t t' : Int64} {days : UInt32}
    (hp : h.paidUntil? house = some t) (ht : addDays t days = .ok t') : Amended h.leases (h.extend house t').leases := by
  obtain ⟨l, hl, rfl⟩ := Option.map_eq_some_iff.mp hp
  exact .extended hl ht

theorem Drafts.amended {c : Call} {d : Draft} (hd : Drafts s v c d) :
    ∃ held, s.held v = .ok held ∧ Amended (leasesOf held) d.holdings.leases := by
  cases hd with
  | purchase _ he hnew _ _ | buyHouse _ he hnew _ _ _ =>
    obtain ⟨held, hh, hleases⟩ := Setting.leases_enrolled he
    refine ⟨held, hh, ?_⟩
    rw [← hleases]
    exact .acquired (not_mem_of_owns hnew)
  | payFees hh hp ht => exact ⟨_, hh, .extend hp ht⟩
  | prepayFees _ hh hp _ _ _ _ _ _ ht => exact ⟨_, hh, .extend hp ht⟩
  | checkExitFees hh hp _ _ _ _ _ ht => exact ⟨_, hh, .extend hp ht⟩
  | setLastHouse hh | depart hh => exact ⟨_, hh, .same⟩

end

end HouseLease
