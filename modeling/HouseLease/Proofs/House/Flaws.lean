/-
  HouseLease.Proofs.House.Flaws — the rules for the terms of a house.

  A house is `Sound` if its id is more than blanks, it comes with no more days than may be paid ahead, and
  none of its prices is negative: in those houses and no others `House.flaw?` finds nothing
  (`flaw?_eq_none`). Behind other houses it must not have the id of one of them either. `House.Breaks`
  says which of these rules a house is the first to break; that about the id of another comes last.
-/

import HouseLease.House.Catalog
import Mathlib.Data.List.DropRight

namespace HouseLease

/-! ## Names -/

/-- The text without the blanks before and behind it. -/
def Text.trimmed (s : String) : String := String.ofList ((skipBlanks s.toList).rdropWhile isBlank)

theorem Text.trimmed_eq_empty {s : String} : trimmed s = "" ↔ allBlank s = true := by
  unfold trimmed allBlank
  rw [String.ofList_eq_empty_iff, List.rdropWhile_eq_nil_iff, List.all_eq_true]
  constructor
  · intro hrest
    -- what is left once leading blanks are gone does not begin with one
    apply List.dropWhile_eq_nil_iff.mp
    apply Classical.byContradiction
    intro hne
    have hfirst := List.head_dropWhile_not isBlank hne
    rw [hrest _ (List.head_mem hne)] at hfirst
    cases hfirst
  · intro hall c hc
    exact hall c ((List.dropWhile_suffix _).mem hc)

namespace House

/-! ## Rules -/

structure Sound (h : House) : Prop where
  named : Text.trimmed h.id ≠ ""
  prepaid : h.prepaidDaysOnPurchase ≤ h.maxPrepaidDays
  dailyFee : 0 ≤ h.dailyFee
  purchaseCost : 0 ≤ h.purchaseCost

/-- The first rule that `h` breaks, if the houses `before` it are on offer. -/
inductive Breaks (before : List House) (h : House) : Flaw → Prop
  | blankId : Text.trimmed h.id = "" → Breaks before h .blankId
  | prepaid : Text.trimmed h.id ≠ "" → h.maxPrepaidDays < h.prepaidDaysOnPurchase →
      Breaks before h (.prepaidAboveCap h.id h.prepaidDaysOnPurchase h.maxPrepaidDays)
  | cost : Text.trimmed h.id ≠ "" → h.prepaidDaysOnPurchase ≤ h.maxPrepaidDays → h.dailyFee < 0 ∨ h.purchaseCost < 0 →
      Breaks before h (.negativeCost h.id)
  | duplicate : h.Sound → h.id ∈ before.map (·.id) → Breaks before h (.duplicate h.id)

variable {before : List House} {h : House} {flaw : Flaw}

theorem flaw?_eq_none : h.flaw? = none ↔ h.Sound := by
  constructor
  · intro hf
    unfold flaw? at hf
    split at hf
    · cases hf
    · rename_i hblank
      split at hf
      · cases hf
      · rename_i hprepaid
        split at hf
        · cases hf
        · rename_i hcosts
          obtain ⟨hfee, hcost⟩ := not_or.mp hcosts
          exact ⟨mt Text.trimmed_eq_empty.mp hblank, UInt32.not_lt.mp hprepaid, Int64.not_lt.mp hfee,
            Int64.not_lt.mp hcost⟩
  · intro hs
    have hcosts : ¬ (h.dailyFee < 0 ∨ h.purchaseCost < 0) :=
      not_or.mpr ⟨Int64.not_lt.mpr hs.dailyFee, Int64.not_lt.mpr hs.purchaseCost⟩
    rw [flaw?, if_neg (mt Text.trimmed_eq_empty.mpr hs.named), if_neg (UInt32.not_lt.mpr hs.prepaid), if_neg hcosts]

theorem breaks_of_flaw? (hf : h.flaw? = some flaw) (before : List House) : h.Breaks before flaw := by
  unfold flaw? at hf
  split at hf
  · rename_i hblank
    cases hf
    exact .blankId (Text.trimmed_eq_empty.mpr hblank)
  · rename_i hblank
    have hnamed := mt Text.trimmed_eq_empty.mp hblank
    split at hf
    · rename_i hprepaid
      cases hf
      exact .prepaid hnamed hprepaid
    · rename_i hprepaid
      split at hf
      · rename_i hcosts
        cases hf
        exact .cost hnamed (UInt32.not_lt.mp hprepaid) hcosts
      · cases hf

/-- A rule that is broken is one for the terms, or the one against a second house of an id. -/
theorem breaks_iff : h.Breaks before flaw ↔
    h.flaw? = some flaw ∨ h.Sound ∧ h.id ∈ before.map (·.id) ∧ flaw = .duplicate h.id := by
  constructor
  · intro hb
    cases hb with
    | blankId hblank =>
      left
      rw [flaw?, if_pos (Text.trimmed_eq_empty.mp hblank)]
    | prepaid hnamed hprepaid =>
      left
      rw [flaw?, if_neg (mt Text.trimmed_eq_empty.mpr hnamed), if_pos hprepaid]
    | cost hnamed hprepaid hcosts =>
      left
      rw [flaw?, if_neg (mt Text.trimmed_eq_empty.mpr hnamed), if_neg (UInt32.not_lt.mpr hprepaid), if_pos hcosts]
    | duplicate hs hid => exact Or.inr ⟨hs, hid, rfl⟩
  · intro hb
    rcases hb with hf | ⟨hs, hid, rfl⟩
    · exact breaks_of_flaw? hf before
    · exact .duplicate hs hid

theorem prepaid_le_cap (hf : h.flaw? = none) : h.prepaidDaysOnPurchase.toNat ≤ h.maxPrepaidDays.toNat :=
  UInt32.le_iff_toNat_le.mp (flaw?_eq_none.mp hf).prepaid

theorem dailyFee_nonneg (hf : h.flaw? = none) : 0 ≤ h.dailyFee.toInt :=
  Int64.le_iff_toInt_le.mp (flaw?_eq_none.mp hf).dailyFee

end House

end HouseLease
