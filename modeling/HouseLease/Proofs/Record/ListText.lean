/-
  HouseLease.Proofs.Record.ListText — a written house list is read back (`read?_write`).

  What is written for a character is one of its spellings, for a lease a pair, and so on up to the
  list, which is a text of the language (`listing_listText`). So two lists of leases never share a
  text (`write_inj`), and the holdings written into a record are those that it says (`ofRecord_intoRecord`).
-/

import HouseLease.Proofs.Record.ListGrammar

namespace HouseLease.HouseList

/-! ## Characters and numbers -/

theorem hexDigit_digitChar {n : Nat} (h : n < 16) : HexDigit n.digitChar n := ⟨h, Or.inl rfl⟩

/-- The four digits of a control character. -/
theorem fourHex_control {c : Char} (h : c.toNat < 0x20) :
    FourHex ['0', '0', Nat.digitChar (c.toNat / 16), Nat.digitChar (c.toNat % 16)] c.toNat := by
  have hfour := FourHex.digits (hexDigit_digitChar (n := 0) (by decide)) (hexDigit_digitChar (n := 0) (by decide))
    (hexDigit_digitChar (n := c.toNat / 16) (by omega)) (hexDigit_digitChar (n := c.toNat % 16) (by omega))
  rwa [show 16 * (16 * (16 * 0 + 0) + c.toNat / 16) + c.toNat % 16 = c.toNat by omega] at hfour

theorem escapeLetters_short {c e : Char} (h : shortEscape? c = some e) : (e, c) ∈ escapeLetters := by
  unfold shortEscape? at h
  repeat' split at h
  all_goals first
    | (cases h; done)
    | (cases h; subst_vars; simp [escapeLetters])

theorem spelling_escapeChar (c : Char) : Spelling (escapeChar c) c := by
  unfold escapeChar
  split
  · subst_vars
    exact .escape (.letter (by simp [escapeLetters]))
  · rename_i hq
    split
    · subst_vars
      exact .escape (.letter (by simp [escapeLetters]))
    · rename_i hb
      split
      · rename_i e he
        exact .escape (.letter (escapeLetters_short he))
      · split
        · rename_i hn
          exact .escape (.unicode (fourHex_control hn))
        · rename_i hn
          exact .plain hq hb (Nat.not_lt.mp hn)

theorem content_escaped (s : List Char) : Content (s.flatMap escapeChar) s := by
  induction s with
  | nil => exact .nil
  | cons c s ih => exact .cons (spelling_escapeChar c) ih

theorem digits_digits (n : Nat) : Digits (Text.digits n) :=
  ⟨Text.digits_ne_nil n, fun _ hc => Text.isDigit_of_mem_digits hc, fun _ hmore => (Text.digits_head n hmore).2⟩

theorem numeral_intText (n : Int) : Numeral (Text.intText n) n := by
  rcases Text.intText_cases n with ⟨k, rfl, hk⟩ | ⟨k, rfl, hpos, hk⟩
  · have hplus := Numeral.plus (digits_digits k)
    rwa [Text.ofDigits_digits, ← hk] at hplus
  · have h0 : Text.digits k ≠ ['0'] := by
      intro h
      have := (Text.digits_head k h).1
      omega
    have hminus := Numeral.minus (digits_digits k) h0
    rwa [Text.ofDigits_digits, ← hk] at hminus

/-! ## Leases -/

theorem pair_pairText (l : Lease) : Pair (pairText l) l := by
  have hpair : Pair _ l := .pair .nil (content_escaped l.house.toList) .nil .nil (numeral_intText l.paidUntil.toInt) .nil
  simpa [pairText, quote] using hpair

/-- The pairs of a list, up to its closing bracket. -/
theorem pairs_tailText (l : Lease) (ls : List Lease) :
    ∃ ps, Pairs ps (l :: ls) ∧ pairText l ++ tailText ls = ps ++ [']'] := by
  induction ls generalizing l with
  | nil =>
    have hone := Pairs.one .nil (pair_pairText l) .nil
    exact ⟨_, hone, by simp [tailText]⟩
  | cons k ls ih =>
    obtain ⟨ps, hps, htext⟩ := ih k
    have hmore := Pairs.more .nil (pair_pairText l) .nil hps
    exact ⟨_, hmore, by simp [tailText, htext]⟩

theorem listing_listText (ls : List Lease) : Listing (listText ls) ls := by
  cases ls with
  | nil => exact Listing.empty .nil .nil .nil
  | cons l ls =>
    obtain ⟨ps, hps, htext⟩ := pairs_tailText l ls
    have hlisting := Listing.pairs .nil hps .nil
    simpa [listText, htext] using hlisting

theorem read?_write (ls : List Lease) : read? (write ls) = some ls := by
  refine read?_eq_some_iff.mpr (Or.inr ?_)
  rw [write, String.toList_ofList]
  exact listing_listText ls

theorem write_inj {ls ks : List Lease} : write ls = write ks ↔ ls = ks := by
  constructor
  · intro h
    have hread := read?_write ls
    rw [h, read?_write] at hread
    exact (Option.some.inj hread).symm
  · rintro rfl
    rfl

end HouseLease.HouseList

namespace HouseLease

/-! ## Records -/

theorem Holdings.ofRecord_intoRecord (h : Holdings) (r : Record) : Holdings.ofRecord (h.intoRecord r) = .ok h := by
  simp [Holdings.ofRecord, Holdings.intoRecord, HouseList.read?_write]

/-- The record with its house list written anew. -/
def Record.rewritten (r : Record) : Except Fault Record := (Holdings.ofRecord r).map (·.intoRecord r)

/-- Nothing of what is written into a record is lost, and the text that is written is the same for the same leases
    only. So a list that is read and written anew has a text that depends on its leases alone, and writing it anew once
    more changes nothing. -/
theorem house_lists_lose_nothing (r : Record) :
    (∀ h : Holdings, Holdings.ofRecord (h.intoRecord r) = .ok h) ∧
      (∀ (h k : Holdings) (q : Record), (h.intoRecord r).houses = (k.intoRecord q).houses ↔ h.leases = k.leases) ∧
      r.rewritten.bind Record.rewritten = r.rewritten := by
  refine ⟨fun h => h.ofRecord_intoRecord r, fun h k q => HouseList.write_inj, ?_⟩
  unfold Record.rewritten
  cases Holdings.ofRecord r with
  | error f => rfl
  | ok h =>
    simp only [Except.map, Except.bind, h.ofRecord_intoRecord r]
    rfl

end HouseLease
