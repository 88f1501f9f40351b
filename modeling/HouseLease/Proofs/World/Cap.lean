/-
  HouseLease.Proofs.World.Cap — how far ahead a lease can be paid.

  A lease comes with no more days than may be paid ahead, a payment ahead fits whole days under the
  cap (`Trade.daysAllowed_fits`), and the exit collects a day only on a lease that has run out, which
  leaves less than a day. So every draft keeps a list under the cap at the clock it reads
  (`Drafts.capped`), and a clock that does not go back only shortens what is left (`Capped.mono`).
  Each copy of a record keeps to the cap by itself: it does not matter how many ledgers a player has,
  or what writes have failed (`paid_ahead_under_cap`).

  Paying fees is not capped by itself, only when it is asked for ahead or at the exit.
-/

import HouseLease.Proofs.House.Admission
import HouseLease.Proofs.World.Lists

namespace HouseLease

/-! ## Days that fit -/

namespace Trade

/-- Days that are allowed fit under the cap together with the time paid ahead already. -/
theorem daysAllowed_fits {cap days : UInt32} {remaining : Int64} (hle : days ≤ daysAllowed cap remaining)
    (hne : days ≠ 0) : daySeconds * days.toNat + max remaining.toInt 0 ≤ daySeconds * cap.toNat := by
  have hpos : 0 < days.toNat := Nat.pos_of_ne_zero fun h => hne (UInt32.toNat_inj.mp h)
  have hle : days.toNat ≤ (daysAllowed cap remaining).toNat := UInt32.le_iff_toNat_le.mp hle
  unfold daysAllowed daySeconds at *
  cases hq : uint32? (max ((86400 * cap.toNat - max remaining.toInt 0) / 86400) 0) with
  | none =>
    rw [hq, Option.getD_none] at hle
    exact absurd hle (Nat.not_le.mpr hpos)
  | some allowed =>
    rw [hq, Option.getD_some] at hle
    have hallowed := uint32?_eq_some.mp hq
    omega

end Trade

/-! ## Lists under the cap -/

/-- Each house of the list has terms, and is paid ahead at most as long as they allow, or for what is left of a
    day collected at the exit. -/
def Capped (catalog : Catalog) (now : Int64) (ls : List Lease) : Prop :=
  ∀ l ∈ ls, ∃ terms, catalog.find? l.house = some terms ∧
    l.paidUntil.toInt - now.toInt ≤ max (terms.maxPrepaidDays.toNat * 86400) 86399

theorem Capped.nil (catalog : Catalog) (now : Int64) : Capped catalog now [] := nofun

theorem Capped.mono {catalog : Catalog} {now later : Int64} {ls : List Lease} (h : Capped catalog now ls)
    (hle : now ≤ later) : Capped catalog later ls := by
  intro l hl
  obtain ⟨terms, hterms, hcap⟩ := h l hl
  have hle := Int64.le_iff_toInt_le.mp hle
  exact ⟨terms, hterms, by omega⟩

section

variable {catalog : Catalog} {now : Int64} {ls : List Lease} {house : String} {t : Int64} {terms : House}

theorem Capped.acquired (h : Capped catalog now ls) (hterms : catalog.find? house = some terms)
    (hcap : t.toInt - now.toInt ≤ max (terms.maxPrepaidDays.toNat * 86400) 86399) :
    Capped catalog now (ls ++ [⟨house, t⟩]) :=
  forall_mem_acquired h ⟨terms, hterms, hcap⟩

theorem Capped.extended (h : Capped catalog now ls) (hterms : catalog.find? house = some terms)
    (hcap : t.toInt - now.toInt ≤ max (terms.maxPrepaidDays.toNat * 86400) 86399) :
    Capped catalog now (extendFirst house t ls) :=
  forall_mem_extendFirst h ⟨terms, hterms, hcap⟩

end

/-! ## Drafts -/

/-- The calls that keep to the cap: all but paying fees outright. -/
def Call.keepsCap : Call → Bool
  | .payFees _ => false
  | _ => true

/-- A purchase comes with days that may be paid ahead. -/
theorem addDays_prepaid {terms : House} {now t : Int64} (hf : terms.flaw? = none)
    (ht : addDays now terms.prepaidDaysOnPurchase = .ok t) :
    t.toInt - now.toInt ≤ max (terms.maxPrepaidDays.toNat * 86400) 86399 := by
  have hcap := House.prepaid_le_cap hf
  have hsum := checked_eq_ok.mp ht
  unfold daySeconds at hsum
  omega

theorem Drafts.capped {s : Setting} {v : Visit} {c : Call} {d : Draft} {held : Option Holdings} {now : Int64}
    (hd : Drafts s v c d) (hflaw : s.catalog.Flawless) (hc : c.keepsCap = true)
    (hnow : ∀ t, s.now = some t → t = now) (hh : s.held v = .ok held) (hp : Capped s.catalog now (leasesOf held)) :
    Capped s.catalog now d.holdings.leases := by
  cases hd with
  | payFees _ _ _ => cases hc
  | setLastHouse hh' | depart hh' =>
    cases hh.symm.trans hh'
    exact hp
  | purchase hterms he _ ht hadd =>
    cases hnow _ ht
    exact Capped.acquired (Setting.lists_enrolled hh he hp) hterms (addDays_prepaid (hflaw.flaw? hterms) hadd)
  | buyHouse hterms he _ _ ht hadd =>
    cases hnow _ ht
    exact Capped.acquired (Setting.lists_enrolled hh he hp) hterms (addDays_prepaid (hflaw.flaw? hterms) hadd)
  | prepayFees hterms hh' _ ht hsub hdays hne _ _ hadd =>
    cases hnow _ ht
    cases hh.symm.trans hh'
    refine hp.extended hterms ?_
    have hfits := Trade.daysAllowed_fits (hdays ▸ Std.min_le_right) hne
    have hremaining := checked_eq_ok.mp hsub
    have hsum := checked_eq_ok.mp hadd
    unfold daySeconds at hfits hsum
    omega
  | checkExitFees hh' _ ht hlt hterms _ _ hadd =>
    cases hnow _ ht
    cases hh.symm.trans hh'
    refine hp.extended hterms ?_
    -- the lease ran out before the clock, by a second at least
    have hlapsed := Int64.lt_iff_toInt_lt.mp hlt
    have hsum := checked_eq_ok.mp hadd
    have hday : (1 : UInt32).toNat = 1 := rfl
    rw [hday] at hsum
    unfold daySeconds at hsum
    omega

/-! ## Runs -/

/-- The times that the clocks of a run show. -/
def clocks (steps : List (Setting × Step)) : List Int64 := steps.filterMap (·.1.now)

theorem clocks_cons_none {s : Setting} (h : s.now = none) (step : Step) (rest : List (Setting × Step)) :
    clocks ((s, step) :: rest) = clocks rest :=
  List.filterMap_cons_none (a := (s, step)) h

theorem clocks_cons_some {s : Setting} {t : Int64} (h : s.now = some t) (step : Step) (rest : List (Setting × Step)) :
    clocks ((s, step) :: rest) = t :: clocks rest :=
  List.filterMap_cons_some (a := (s, step)) h

def Step.keepsCap : Step → Bool
  | .call _ _ c => c.keepsCap
  | step => !step.bypasses

theorem Step.not_bypasses {step : Step} (h : step.keepsCap = true) : step.bypasses = false := by
  cases step <;> first | rfl | cases h

theorem World.Lists.after_capped {s : Setting} {w : World} {step : Step} {now : Int64}
    (hw : w.Lists (Capped s.catalog now)) (hflaw : s.catalog.Flawless) (hstep : step.keepsCap = true)
    (hnow : ∀ t, s.now = some t → t = now) :
    (w.after s step).Lists (Capped s.catalog now) := by
  refine hw.after (.nil _ _) (Step.not_bypasses hstep) ?_
  rintro name purse c rfl v d held hd hh hp
  exact hd.capped hflaw hstep hnow hh hp

/-- Lists that are under the cap at every clock from here on, at the end are under it at the last. -/
theorem World.Lists.run_capped {catalog : Catalog} {steps : List (Setting × Step)} {now : Int64} {w : World}
    (hflaw : catalog.Flawless) (hsteps : ∀ p ∈ steps, p.1.catalog = catalog ∧ p.2.keepsCap = true)
    (hclock : (clocks steps ++ [now]).Pairwise (· ≤ ·))
    (hw : ∀ t ∈ clocks steps ++ [now], w.Lists (Capped catalog t)) :
    (w.run steps).2.Lists (Capped catalog now) := by
  induction steps generalizing w with
  | nil => exact hw now (by simp)
  | cons p rest ih =>
    obtain ⟨s, step⟩ := p
    obtain ⟨⟨rfl, hkeeps⟩, hrest⟩ := List.forall_mem_cons.mp hsteps
    rw [World.run_cons]
    cases hnow : s.now with
    | none =>
      rw [clocks_cons_none hnow] at hclock hw
      refine ih hrest hclock fun t ht => ?_
      refine (hw t ht).after_capped hflaw hkeeps fun t' ht' => ?_
      rw [hnow] at ht'
      cases ht'
    | some t₀ =>
      rw [clocks_cons_some hnow, List.cons_append] at hclock hw
      obtain ⟨hfirst, hclock⟩ := List.pairwise_cons.mp hclock
      have hafter : (w.after s step).Lists (Capped s.catalog t₀) := by
        refine (hw t₀ List.mem_cons_self).after_capped hflaw hkeeps fun t' ht' => ?_
        exact Option.some.inj (ht'.symm.trans hnow)
      refine ih hrest hclock fun t ht => ?_
      exact hafter.imp fun ls h => h.mono (hfirst t ht)

/-- Whatever players buy, pay ahead or are charged at exits, on any number of ledgers and with whatever failing: as
    long as the clock does not go back, no stored lease is ever paid further ahead than the terms of its house allow,
    or than what is left of a day collected at the exit. -/
theorem paid_ahead_under_cap {houses : List House} {hub : Point} {catalog : Catalog} {purses : List (String × Int64)}
    {steps : List (Setting × Step)} {now : Int64} (hcatalog : Catalog.ofHouses houses hub = .ok catalog)
    (hsteps : ∀ p ∈ steps, p.1.catalog = catalog ∧ p.2.keepsCap = true)
    (hclock : (clocks steps ++ [now]).Pairwise (· ≤ ·)) {player : String} {h : Holdings} {l : Lease}
    (hstored : (World.run { purses } steps).2.store.holdings player = .ok (some h)) (hl : l ∈ h.leases) :
    ∃ terms, catalog.find? l.house = some terms ∧
      l.paidUntil.toInt - now.toInt ≤ max (terms.maxPrepaidDays.toNat * 86400) 86399 := by
  have hfresh : ∀ t, World.Lists (Capped catalog t) { purses } := fun t =>
    ⟨fun _ _ hk => (by cases hk), fun _ _ hk => (by cases hk)⟩
  have hend := World.Lists.run_capped (Catalog.flawless_ofHouses hcatalog) hsteps hclock fun t _ => hfresh t
  exact hend.stored player h hstored l hl

/-- A house whose fees cannot be paid ahead, and which comes with no days. -/
def cabin : House := { greyton with id := "cabin", maxPrepaidDays := 0, prepaidDaysOnPurchase := 0 }

/-- Ann buys the cabin, may not pay ahead for it, and a second later is charged a day at the exit. -/
def cabinNights : List (Setting × Step) :=
  let s : Setting := { catalog := ⟨[cabin, greyton], everlink⟩, now := some 1700000000 }
  let later : Setting := { s with now := some 1700000001 }
  [(s, .openLedger "l" "Ann" "cabin"), (s, .call "l" (some "purse") .buyHouse),
    (s, .call "l" (some "purse") (.prepayFees 500)), (later, .call "l" (some "purse") .checkExitFees),
    (later, .call "l" (some "purse") .checkExitFees)]

theorem a_day_at_the_exit_is_the_most :
    (World.run { purses := [("purse", 2000000)] } cabinNights).2.store.holdings "Ann"
        = .ok (some ⟨[⟨"cabin", 1700086400⟩], none⟩) ∧
      ∃ terms, Catalog.find? ⟨[cabin, greyton], everlink⟩ "cabin" = some terms ∧
        (1700086400 : Int64).toInt - (1700000001 : Int64).toInt ≤ max (terms.maxPrepaidDays.toNat * 86400) 86399 := by
  have hcatalog : Catalog.ofHouses [greyton, cabin] everlink = .ok ⟨[cabin, greyton], everlink⟩ := by decide +kernel
  have hstored : (World.run { purses := [("purse", 2000000)] } cabinNights).2.store.holdings "Ann"
      = .ok (some ⟨[⟨"cabin", 1700086400⟩], none⟩) := by decide +kernel
  refine ⟨hstored, ?_⟩
  exact paid_ahead_under_cap hcatalog (by decide +kernel) (by decide +kernel) hstored List.mem_cons_self

end HouseLease
