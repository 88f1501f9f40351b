/-
  HouseLease.Proofs.Text.Numerals — written numbers are read back.

  A run of digits ends at the first character that is none (`spanDigits_append`), and the
  digits of a number, padded or not, have its value (`ofDigits_digits`, `ofDigits_padded`).
-/

import HouseLease.Text.Digits

namespace HouseLease.Text

theorem isDigit_of_mem_digits {n : Nat} {c : Char} (h : c ∈ digits n) : c.isDigit = true :=
  Nat.isDigit_of_mem_toDigits (by decide) (by decide) h

theorem digits_ne_nil (n : Nat) : digits n ≠ [] := Nat.toDigits_ne_nil

theorem isDigit_of_mem_padded {w n : Nat} {c : Char} (h : c ∈ padded w n) : c.isDigit = true := by
  rcases List.mem_append.mp h with h | h
  · rw [List.eq_of_mem_replicate h]; rfl
  · exact isDigit_of_mem_digits h

theorem ofDigits_padded (w n : Nat) : ofDigits (padded w n) = n := by
  simp [ofDigits, padded, digits, List.leftpad, Nat.ofDigitChars_append]

theorem padded_ne_nil (w n : Nat) : padded w n ≠ [] := by
  intro h
  exact digits_ne_nil n (List.append_eq_nil_iff.mp h).2

theorem length_padded {w n : Nat} (hw : 0 < w) (h : n < Nat.pow 10 w) : (padded w n).length = w := by
  have : (digits n).length ≤ w := (Nat.length_toDigits_le_iff (by decide) hw).mpr h
  simp only [padded, List.leftpad, List.length_append, List.length_replicate]
  omega

theorem length_padded_le {w k n : Nat} (hw : w ≤ k) (hk : 0 < k) (h : n < Nat.pow 10 k) : (padded w n).length ≤ k := by
  have : (digits n).length ≤ k := (Nat.length_toDigits_le_iff (by decide) hk).mpr h
  simp only [padded, List.leftpad, List.length_append, List.length_replicate]
  omega

theorem ofDigits_append (as bs : List Char) :
    ofDigits (as ++ bs) = Nat.pow 10 bs.length * ofDigits as + ofDigits bs := by
  rw [ofDigits, Nat.ofDigitChars_append, Nat.ofDigitChars_eq_ofDigitChars_zero]
  rfl

/-- Only the number nought begins with a nought. -/
theorem digits_head (n : Nat) {cs : List Char} (h : digits n = '0' :: cs) : n = 0 ∧ cs = [] := by
  by_cases hn : n < 10
  · have hd : digits n = [n.digitChar] := Nat.toDigits_of_lt_base hn
    rw [hd] at h
    injection h with hc hcs
    refine ⟨?_, hcs.symm⟩
    have := Nat.toNat_digitChar_sub_48_of_lt_ten hn
    rw [hc] at this
    exact this.symm
  · exfalso
    have hd : digits n = digits (n / 10) ++ [(n % 10).digitChar] := Nat.toDigits_of_base_le (by decide) (by omega)
    rcases hq : digits (n / 10) with _ | ⟨q, qs⟩
    · exact digits_ne_nil _ hq
    · rw [hd, hq] at h
      injection h with hc hcs
      have := digits_head (n / 10) (hc ▸ hq)
      omega
termination_by n

/-- Nothing is lost at the end of the digits. -/
theorem spanDigits_split (cs : List Char) : (spanDigits cs).1 ++ (spanDigits cs).2 = cs :=
  List.takeWhile_append_dropWhile

theorem isDigit_of_mem_spanDigits {cs : List Char} {c : Char} (h : c ∈ (spanDigits cs).1) : c.isDigit = true :=
  List.all_eq_true.mp List.all_takeWhile c h

/-- The continuation of a number does not begin with a digit. -/
theorem spanDigits_append {ds : List Char} (hd : ∀ c ∈ ds, c.isDigit = true) {c : Char} (hc : c.isDigit = false)
    (rest : List Char) : spanDigits (ds ++ c :: rest) = (ds, c :: rest) := by
  simp only [spanDigits, List.takeWhile_append_of_pos hd, List.dropWhile_append_of_pos hd]
  simp [hc]

/-- The number of a character has just this character. -/
theorem scalar?_toNat (c : Char) : scalar? c.toNat = some c := by
  have h : c.toNat.isValidChar := c.valid
  rw [scalar?, dif_pos h]
  rfl

theorem intText_cases (n : Int) :
    (∃ k : Nat, n = k ∧ intText n = digits k) ∨ ∃ k : Nat, n = -(k : Int) ∧ 0 < k ∧ intText n = '-' :: digits k := by
  cases n with
  | ofNat k => exact Or.inl ⟨k, rfl, rfl⟩
  | negSucc k => exact Or.inr ⟨k + 1, rfl, Nat.succ_pos k, rfl⟩

end HouseLease.Text
