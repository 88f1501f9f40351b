/-
  HouseLease.Proofs.Record.ListGrammar — the language of house lists.

  `Listing` says which text lists which leases, as a grammar: an array of pairs, each of a text in
  quotes, whose characters have several spellings (`Spelling`), and a whole number (`Numeral`), with
  blanks between the tokens and around the list.

  A text that is read is cut into words, each of which writes its token (`words_of_tokens?`); a text of
  the language has just one way to be cut, because a number ends where its digits do
  (`tokens?_numeral`). So the texts of the language are the ones that are read, but for those of blanks
  alone (`read?_eq_some_iff`), and a record loads exactly if its list is such a text
  (`records_load_iff_listed`).
-/

import HouseLease.Proofs.Text.Numerals
import HouseLease.Record.Entry

namespace HouseLease.HouseList

/-! ## The grammar -/

/-- The blanks of JSON, any number of them. -/
def Spaces (cs : List Char) : Prop := ∀ c ∈ cs, c = ' ' ∨ c = '\n' ∨ c = '\r' ∨ c = '\t'

/-- A hexadecimal digit, in either case, of value `n`. -/
def HexDigit (c : Char) (n : Nat) : Prop := n < 16 ∧ (c = n.digitChar ∨ c = n.digitChar.toUpper)

/-- Four hexadecimal digits and the number they write. -/
inductive FourHex : List Char → Nat → Prop
  | digits {a b c d : Char} {k l m n : Nat} :
      HexDigit a k → HexDigit b l → HexDigit c m → HexDigit d n →
      FourHex [a, b, c, d] (16 * (16 * (16 * k + l) + m) + n)

/-- The letters that may stand behind a backslash, and what they stand for there. -/
def escapeLetters : List (Char × Char) :=
  [('"', '"'), ('\\', '\\'), ('/', '/'), ('b', '\x08'), ('f', '\x0c'), ('n', '\n'), ('r', '\r'), ('t', '\t')]

/-- What may stand behind a backslash for one character. A surrogate is no character: two of them, the
    high one first, write one above U+FFFF. -/
inductive Escape : List Char → Char → Prop
  | letter {e c : Char} : (e, c) ∈ escapeLetters → Escape [e] c
  | unicode {ds : List Char} {c : Char} : FourHex ds c.toNat → Escape ('u' :: ds) c
  | surrogates {ds es : List Char} {hi lo : Nat} {c : Char} :
      FourHex ds hi → FourHex es lo → 0xD800 ≤ hi ∧ hi ≤ 0xDBFF → 0xDC00 ≤ lo ∧ lo ≤ 0xDFFF →
      c.toNat = 0x10000 + (hi - 0xD800) * 0x400 + (lo - 0xDC00) → Escape ('u' :: ds ++ '\\' :: 'u' :: es) c

/-- The ways to write one character between quotes. -/
inductive Spelling : List Char → Char → Prop
  | plain {c : Char} : c ≠ '"' → c ≠ '\\' → 0x20 ≤ c.toNat → Spelling [c] c
  | escape {w : List Char} {c : Char} : Escape w c → Spelling ('\\' :: w) c

/-- What may stand between two quotes, and the text it writes. -/
inductive Content : List Char → List Char → Prop
  | nil : Content [] []
  | cons {w cs s : List Char} {c : Char} : Spelling w c → Content cs s → Content (w ++ cs) (c :: s)

/-- Decimal digits; a nought stands in front only where it stands alone. -/
structure Digits (ds : List Char) : Prop where
  nonempty : ds ≠ []
  digits : ∀ c ∈ ds, c.isDigit = true
  plain : ∀ more, ds = '0' :: more → more = []

/-- The whole numbers, without fraction and exponent; `-0` is none. -/
inductive Numeral : List Char → Int → Prop
  | plus {ds : List Char} : Digits ds → Numeral ds (Text.ofDigits ds)
  | minus {ds : List Char} : Digits ds → ds ≠ ['0'] → Numeral ('-' :: ds) (-(Text.ofDigits ds : Int))

/-- A pair of a house and a number of 64 bits. -/
inductive Pair : List Char → Lease → Prop
  | pair {a b c d content number : List Char} {house : String} {paidUntil : Int64} :
      Spaces a → Content content house.toList → Spaces b → Spaces c → Numeral number paidUntil.toInt → Spaces d →
      Pair ('[' :: a ++ '"' :: content ++ '"' :: b ++ ',' :: c ++ number ++ d ++ [']']) ⟨house, paidUntil⟩

/-- One pair or more, with commas between them. -/
inductive Pairs : List Char → List Lease → Prop
  | one {a p b : List Char} {l : Lease} : Spaces a → Pair p l → Spaces b → Pairs (a ++ p ++ b) [l]
  | more {a p b ps : List Char} {l : Lease} {ls : List Lease} :
      Spaces a → Pair p l → Spaces b → Pairs ps ls → Pairs (a ++ p ++ b ++ ',' :: ps) (l :: ls)

/-- The texts of house lists, and the leases they list. -/
inductive Listing : List Char → List Lease → Prop
  | empty {a b c : List Char} : Spaces a → Spaces b → Spaces c → Listing (a ++ '[' :: b ++ ']' :: c) []
  | pairs {a ps b : List Char} {ls : List Lease} :
      Spaces a → Pairs ps ls → Spaces b → Listing (a ++ '[' :: ps ++ ']' :: b) ls

/-! ## Escapes -/

section

variable {c : Char} {n : Nat} {cs w s rest : List Char}

theorem hexDigit_values :
    ∀ n < 16, Text.hexValue? n.digitChar = some n ∧ Text.hexValue? n.digitChar.toUpper = some n := by
  decide

/-- The letters for ten and above, by their code points. -/
theorem hexDigit_letters :
    ∀ n < 16, 10 ≤ n → n.digitChar.toNat = n - 10 + 97 ∧ n.digitChar.toUpper.toNat = n - 10 + 65 := by
  decide

theorem hexValue?_eq_some : Text.hexValue? c = some n ↔ HexDigit c n := by
  constructor
  · intro h
    unfold Text.hexValue? at h
    split at h
    · rename_i hd
      simp only [Char.isDigit, Bool.and_eq_true, decide_eq_true_eq] at hd
      have h1 : 48 ≤ c.toNat := hd.1
      have h2 : c.toNat ≤ 57 := hd.2
      have hn : c.toNat - 48 = n := Option.some.inj h
      refine ⟨by omega, Or.inl (Char.toNat_inj.mp ?_)⟩
      rw [Nat.toNat_digitChar_of_lt_ten (by omega)]
      omega
    · split at h
      · rename_i hl
        have h1 : 97 ≤ c.toNat := hl.1
        have h2 : c.toNat ≤ 102 := hl.2
        have hn : c.toNat - 97 + 10 = n := Option.some.inj h
        have hletter := (hexDigit_letters n (by omega) (by omega)).1
        exact ⟨by omega, Or.inl (Char.toNat_inj.mp (by omega))⟩
      · split at h
        · rename_i hl
          have h1 : 65 ≤ c.toNat := hl.1
          have h2 : c.toNat ≤ 70 := hl.2
          have hn : c.toNat - 65 + 10 = n := Option.some.inj h
          have hletter := (hexDigit_letters n (by omega) (by omega)).2
          exact ⟨by omega, Or.inr (Char.toNat_inj.mp (by omega))⟩
        · cases h
  · rintro ⟨hn, rfl | rfl⟩
    · exact (hexDigit_values n hn).1
    · exact (hexDigit_values n hn).2

theorem ofHex?_four {a b c d : Char} : Text.ofHex? [a, b, c, d] = some n ↔ FourHex [a, b, c, d] n := by
  constructor
  · intro h
    simp only [Text.ofHex?, List.foldlM_cons, List.foldlM_nil, Option.bind_eq_bind, Option.pure_def,
      Option.bind_eq_some_iff, Option.map_eq_some_iff, Nat.mul_zero, Nat.zero_add] at h
    obtain ⟨_, ⟨k, ha, rfl⟩, _, ⟨l, hb, rfl⟩, _, ⟨m, hc, rfl⟩, _, ⟨n, hd, rfl⟩, h⟩ := h
    cases h
    exact .digits (hexValue?_eq_some.mp ha) (hexValue?_eq_some.mp hb) (hexValue?_eq_some.mp hc)
      (hexValue?_eq_some.mp hd)
  · rintro ⟨ha, hb, hc, hd⟩
    simp [Text.ofHex?, hexValue?_eq_some.mpr ha, hexValue?_eq_some.mpr hb, hexValue?_eq_some.mpr hc,
      hexValue?_eq_some.mpr hd]

theorem takeHex?_four : Text.takeHex? 4 cs = some (n, rest) ↔ ∃ ds, FourHex ds n ∧ cs = ds ++ rest := by
  constructor
  · intro h
    match cs with
    | a :: b :: c :: d :: r =>
      obtain ⟨n', hn, he⟩ := Option.map_eq_some_iff.mp h
      cases he
      exact ⟨[a, b, c, d], ofHex?_four.mp hn, rfl⟩
    | [] | [_] | [_, _] | [_, _, _] => simp [Text.takeHex?] at h
  · rintro ⟨ds, hds, rfl⟩
    cases id hds with
    | digits => simp [Text.takeHex?, ofHex?_four.mpr hds]

theorem scalar?_eq_some : Text.scalar? n = some c ↔ c.toNat = n := by
  constructor
  · intro h
    unfold Text.scalar? at h
    by_cases hvalid : n.isValidChar
    · rw [dif_pos hvalid] at h
      cases h
      rfl
    · rw [dif_neg hvalid] at h
      cases h
  · rintro rfl
    exact Text.scalar?_toNat c

theorem unicode?_eq_some : unicode? cs = some (c, rest) ↔ ∃ w, Escape ('u' :: w) c ∧ cs = w ++ rest := by
  constructor
  · intro h
    simp only [unicode?, Option.bind_eq_bind, Option.bind_eq_some_iff] at h
    obtain ⟨⟨hi, r⟩, hhi, h⟩ := h
    obtain ⟨ds, hds, rfl⟩ := takeHex?_four.mp hhi
    simp only at h
    split at h
    · rename_i hhigh
      split at h
      · obtain ⟨⟨lo, r⟩, hlo, hpair⟩ := Option.bind_eq_some_iff.mp h
        obtain ⟨es, hes, rfl⟩ := takeHex?_four.mp hlo
        split at hpair
        · rename_i hlow
          obtain ⟨c, hc, he⟩ := Option.map_eq_some_iff.mp hpair
          cases he
          exact ⟨_, .surrogates hds hes hhigh hlow (scalar?_eq_some.mp hc), by simp⟩
        · cases hpair
      · cases h
    · obtain ⟨c, hc, he⟩ := Option.map_eq_some_iff.mp h
      cases he
      obtain rfl := scalar?_eq_some.mp hc
      exact ⟨ds, .unicode hds, rfl⟩
  · rintro ⟨w, hw, rfl⟩
    cases hw with
    | letter hmem => simp [escapeLetters] at hmem
    | unicode hds =>
      -- no character is a surrogate
      have hchar : ¬(0xD800 ≤ c.toNat ∧ c.toNat ≤ 0xDBFF) := by
        have hvalid : c.toNat < 0xD800 ∨ 0xDFFF < c.toNat ∧ c.toNat < 0x110000 := c.valid
        omega
      simp [unicode?, takeHex?_four.mpr ⟨w, hds, rfl⟩, hchar, Text.scalar?_toNat]
    | @surrogates ds es hi lo _ hds hes hhigh hlow hc =>
      have htake := takeHex?_four.mpr ⟨ds, hds, (rfl : ds ++ '\\' :: 'u' :: (es ++ rest) = _)⟩
      have htake' := takeHex?_four.mpr ⟨es, hes, (rfl : es ++ rest = _)⟩
      simp [unicode?, htake, hhigh, htake', hlow, scalar?_eq_some.mpr hc]

theorem escape?_letter {e : Char} (hu : e ≠ 'u') (h : escape? (e :: cs) = some (c, rest)) :
    (e, c) ∈ escapeLetters ∧ cs = rest := by
  simp only [escape?] at h
  split at h
  · rename_i hself
    cases h
    rcases hself with rfl | rfl | rfl <;> simp [escapeLetters]
  · repeat' split at h
    all_goals first
      | exact absurd ‹_› hu
      | (cases h; subst_vars; simp [escapeLetters])
      | cases h

theorem escape?_eq_some : escape? cs = some (c, rest) ↔ ∃ w, Escape w c ∧ cs = w ++ rest := by
  constructor
  · intro h
    cases cs with
    | nil => cases h
    | cons e r =>
      by_cases hu : e = 'u'
      · subst hu
        obtain ⟨w, hw, rfl⟩ := unicode?_eq_some.mp h
        exact ⟨'u' :: w, hw, rfl⟩
      · obtain ⟨hmem, rfl⟩ := escape?_letter hu h
        exact ⟨[e], .letter hmem, rfl⟩
  · rintro ⟨w, hw, rfl⟩
    cases id hw with
    | letter hmem =>
      have hread : ∀ p ∈ escapeLetters, ∀ r, escape? (p.1 :: r) = some (p.2, r) := by
        simp [escapeLetters, escape?]
      exact hread _ hmem rest
    | unicode => exact unicode?_eq_some.mpr ⟨_, hw, rfl⟩
    | surrogates => exact unicode?_eq_some.mpr ⟨_, hw, by simp⟩

/-! ## Texts in quotes -/

theorem body?_escape {w : List Char} (hw : Escape w c) (rest : List Char) :
    body? ('\\' :: w ++ rest) = (body? rest).map fun (s, r) => (c :: s, r) := by
  have he := escape?_eq_some.mpr ⟨w, hw, (rfl : w ++ rest = _)⟩
  rw [List.cons_append, body?]
  simp only [Char.reduceEq, if_false, if_true]
  split
  · rename_i he'
    rw [he] at he'
    cases he'
    rfl
  · rename_i he'
    rw [he] at he'
    cases he'

/-- Reading past one character. -/
theorem body?_spelling (hw : Spelling w c) (rest : List Char) :
    body? (w ++ rest) = (body? rest).map fun (s, r) => (c :: s, r) := by
  cases hw with
  | plain hq hb hn =>
    rw [List.singleton_append, body?]
    simp [hq, hb, Nat.not_lt.mpr hn]
  | escape hw => exact body?_escape hw rest

theorem body?_eq_some : body? cs = some (s, rest) ↔ ∃ w, Content w s ∧ cs = w ++ '"' :: rest := by
  constructor
  · intro h
    fun_induction body? cs generalizing s with
    | case1 => cases h
    | case2 r =>
      cases h
      exact ⟨[], .nil, rfl⟩
    | case3 r e r' he _ ih =>
      obtain ⟨⟨s', rest'⟩, hbody, hcons⟩ := Option.map_eq_some_iff.mp h
      cases hcons
      obtain ⟨w, hw, rfl⟩ := ih hbody
      obtain ⟨w', hw', rfl⟩ := escape?_eq_some.mp he
      exact ⟨'\\' :: w' ++ w, .cons (.escape hw') hw, by simp⟩
    | case4 => cases h
    | case5 => cases h
    | case6 c r hq hb hn ih =>
      obtain ⟨⟨s', rest'⟩, hbody, hcons⟩ := Option.map_eq_some_iff.mp h
      cases hcons
      obtain ⟨w, hw, rfl⟩ := ih hbody
      exact ⟨[c] ++ w, .cons (.plain hq hb (Nat.not_lt.mp hn)) hw, by simp⟩
  · rintro ⟨w, hw, rfl⟩
    induction hw with
    | nil => rw [List.nil_append, body?]; simp
    | cons hspell _ ih => rw [List.append_assoc, body?_spelling hspell, ih]; rfl

end

/-! ## Words -/

/-- What writes a token. -/
inductive Word : List Char → Token → Prop
  | opening : Word ['['] .opening
  | closing : Word [']'] .closing
  | comma : Word [','] .comma
  | text {content : List Char} {s : String} : Content content s.toList → Word ('"' :: content ++ ['"']) (.text s)
  | number {w : List Char} {n : Int} : Numeral w n → Word w (.number n)

/-- A text cut into words, with blanks in front of each and at the end. -/
inductive Words : List Char → List Token → Prop
  | nil {a : List Char} : Spaces a → Words a []
  | cons {a w rest : List Char} {t : Token} {ts : List Token} :
      Spaces a → Word w t → Words rest ts → Words (a ++ w ++ rest) (t :: ts)

section

variable {c : Char} {n : Int} {a cs ds r w : List Char} {t : Token} {ts : List Token}

theorem isSpace_iff : isSpace c = true ↔ c = ' ' ∨ c = '\n' ∨ c = '\r' ∨ c = '\t' := by
  simp [isSpace, or_assoc]

theorem Spaces.cons (hc : isSpace c = true) (ha : Spaces a) : Spaces (c :: a) :=
  List.forall_mem_cons.mpr ⟨isSpace_iff.mp hc, ha⟩

theorem Spaces.nil : Spaces [] := List.forall_mem_nil _

theorem Words.space (hc : isSpace c = true) (h : Words cs ts) : Words (c :: cs) ts := by
  cases h with
  | nil ha => exact .nil (ha.cons hc)
  | cons ha hw hrest => exact .cons (ha.cons hc) hw hrest

theorem Words.word (hw : Word w t) (h : Words cs ts) : Words (w ++ cs) (t :: ts) := .cons .nil hw h

theorem Word.content {s : String} (h : Word w (.text s)) :
    ∃ content, Content content s.toList ∧ w = '"' :: content ++ ['"'] := by
  cases h with
  | text hs => exact ⟨_, hs, rfl⟩

theorem Word.numeral (h : Word w (.number n)) : Numeral w n := by
  cases h with
  | number hn => exact hn

theorem Words.uncons (h : Words cs (t :: ts)) :
    ∃ a w rest, Spaces a ∧ Word w t ∧ Words rest ts ∧ cs = a ++ w ++ rest := by
  cases h with
  | cons ha hw hrest => exact ⟨_, _, _, ha, hw, hrest, rfl⟩

theorem Words.spaces (h : Words cs []) : Spaces cs := by
  cases h with
  | nil hcs => exact hcs

theorem digits_iff (hd : ∀ c ∈ ds, c.isDigit = true) : plainDigits ds = true ↔ Digits ds := by
  constructor
  · intro h
    refine ⟨?_, hd, ?_⟩
    · rintro rfl
      cases h
    · rintro more rfl
      simpa [plainDigits] using h
  · intro h
    unfold plainDigits
    split
    · exact absurd rfl h.nonempty
    · rename_i more
      rw [h.plain more rfl]
      rfl
    · rfl

theorem number?_plus (hd : ∀ c ∈ ds, c.isDigit = true) (h : number? false ds = some n) : Numeral ds n := by
  unfold number? at h
  split at h
  · rename_i hplain
    cases h
    exact .plus ((digits_iff hd).mp hplain)
  · cases h

theorem number?_minus (hd : ∀ c ∈ ds, c.isDigit = true) (h : number? true ds = some n) : Numeral ('-' :: ds) n := by
  unfold number? at h
  split at h
  · rename_i hplain
    simp only [if_true] at h
    split at h
    · cases h
    · rename_i hne
      cases h
      exact .minus ((digits_iff hd).mp hplain) hne
  · cases h

/-- The words of a text are those it is read by. -/
theorem words_of_tokens? (h : tokens? cs = some ts) : Words cs ts := by
  fun_induction tokens? cs generalizing ts with
  | case1 =>
    cases h
    exact .nil .nil
  | case2 c r hc ih => exact (ih h).space hc
  | case3 r _ ih =>
    obtain ⟨ts, hr, rfl⟩ := Option.map_eq_some_iff.mp h
    exact .word .opening (ih hr)
  | case4 r _ _ ih =>
    obtain ⟨ts, hr, rfl⟩ := Option.map_eq_some_iff.mp h
    exact .word .closing (ih hr)
  | case5 r _ _ _ ih =>
    obtain ⟨ts, hr, rfl⟩ := Option.map_eq_some_iff.mp h
    exact .word .comma (ih hr)
  | case6 r s rest hbody _ _ _ _ ih =>
    obtain ⟨ts, hr, rfl⟩ := Option.map_eq_some_iff.mp h
    obtain ⟨content, hcontent, rfl⟩ := body?_eq_some.mp hbody
    have hword : Word ('"' :: content ++ ['"']) (.text (String.ofList s)) := .text (by rwa [String.toList_ofList])
    simpa using Words.word hword (ih hr)
  | case7 => cases h
  | case8 r _ _ _ _ _ ih =>
    obtain ⟨n, hn, h⟩ := Option.bind_eq_some_iff.mp h
    obtain ⟨ts, hr, rfl⟩ := Option.map_eq_some_iff.mp h
    have hw := number?_minus (fun c hc => Text.isDigit_of_mem_spanDigits hc) hn
    have hwords := Words.word (.number hw) (ih hr)
    rwa [List.cons_append, Text.spanDigits_split] at hwords
  | case9 d r _ _ _ _ _ _ hdigit ih =>
    obtain ⟨n, hn, h⟩ := Option.bind_eq_some_iff.mp h
    obtain ⟨ts, hr, rfl⟩ := Option.map_eq_some_iff.mp h
    have hdigits : ∀ c ∈ d :: (Text.spanDigits r).1, c.isDigit = true :=
      List.forall_mem_cons.mpr ⟨hdigit, fun c hc => Text.isDigit_of_mem_spanDigits hc⟩
    have hwords := Words.word (.number (number?_plus hdigits hn)) (ih hr)
    rwa [List.cons_append, Text.spanDigits_split] at hwords
  | case10 => cases h

end

/-! ## Reading a word -/

section

variable {c : Char} {n : Int} {a cs w : List Char}

theorem tokens?_opening (r : List Char) : tokens? ('[' :: r) = (tokens? r).map (.opening :: ·) := by
  rw [tokens?]; simp [isSpace]

theorem tokens?_closing (r : List Char) : tokens? (']' :: r) = (tokens? r).map (.closing :: ·) := by
  rw [tokens?]; simp [isSpace]

theorem tokens?_comma (r : List Char) : tokens? (',' :: r) = (tokens? r).map (.comma :: ·) := by
  rw [tokens?]; simp [isSpace]

theorem tokens?_spaces (ha : Spaces a) (r : List Char) : tokens? (a ++ r) = tokens? r := by
  induction a with
  | nil => rfl
  | cons c a ih =>
    obtain ⟨hc, ha⟩ := List.forall_mem_cons.mp ha
    rw [List.cons_append, tokens?, if_pos (isSpace_iff.mpr hc), ih ha]

theorem tokens?_end (ha : Spaces a) : tokens? a = some [] := by
  have h := tokens?_spaces ha []
  rwa [List.append_nil, tokens?] at h

theorem tokens?_text {content : List Char} {s : String} (hs : Content content s.toList) (r : List Char) :
    tokens? ('"' :: content ++ '"' :: r) = (tokens? r).map (.text s :: ·) := by
  have hbody := body?_eq_some.mpr ⟨content, hs, (rfl : content ++ '"' :: r = _)⟩
  rw [List.cons_append, tokens?]
  simp only [isSpace, Char.reduceEq, decide_false, Bool.or_self, Bool.false_eq_true, if_false, if_true]
  split
  · rename_i hread
    rw [hbody] at hread
    cases hread
    rw [String.ofList_toList]
  · rename_i hread
    rw [hbody] at hread
    cases hread

/-- A number ends at the first character that is no digit. -/
theorem tokens?_numeral (hw : Numeral w n) (hc : c.isDigit = false) (r : List Char) :
    tokens? (w ++ c :: r) = (tokens? (c :: r)).map (.number n :: ·) := by
  cases hw with
  | plus hds =>
    have hnum : number? false w = some (Text.ofDigits w : Int) := by
      rw [number?, if_pos ((digits_iff hds.digits).mpr hds)]
      rfl
    cases w with
    | nil => exact absurd rfl hds.nonempty
    | cons d ds =>
      obtain ⟨hd, hmore⟩ := List.forall_mem_cons.mp hds.digits
      -- a digit is none of the characters that are tried before
      have hne : ∀ x : Char, x.isDigit = false → d ≠ x := fun x hx h => by rw [h, hx] at hd; cases hd
      have hspan := Text.spanDigits_append hmore hc r
      rw [List.cons_append, tokens?]
      simp [isSpace, hne, hd, hspan, hnum]
  | @minus ds hds hzero =>
    have hnum : number? true ds = some (-(Text.ofDigits ds : Int)) := by
      rw [number?, if_pos ((digits_iff hds.digits).mpr hds), if_pos rfl, if_neg hzero]
    have hspan := Text.spanDigits_append hds.digits hc r
    rw [List.cons_append, tokens?]
    simp [isSpace, hspan, hnum]

end

/-! ## Pairs -/

def pairTokens (l : Lease) : List Token := [.opening, .text l.house, .comma, .number l.paidUntil.toInt, .closing]

/-- The tokens behind the first pair. -/
def tailTokens : List Lease → List Token
  | [] => [.closing]
  | l :: ls => .comma :: pairTokens l ++ tailTokens ls

section

variable {a b cs p ps : List Char} {l : Lease} {ls : List Lease} {ts : List Token}

theorem tokens?_lastNumber {number d : List Char} {n : Int} (hn : Numeral number n) (hd : Spaces d) (r : List Char) :
    tokens? (number ++ (d ++ ']' :: r)) = (tokens? r).map (.number n :: .closing :: ·) := by
  have hrest : tokens? (d ++ ']' :: r) = (tokens? r).map (.closing :: ·) := by
    rw [tokens?_spaces hd, tokens?_closing]
  suffices hnumber : tokens? (number ++ (d ++ ']' :: r)) = (tokens? (d ++ ']' :: r)).map (.number n :: ·) by
    rw [hnumber, hrest, Option.map_map]
    rfl
  cases d with
  | nil => exact tokens?_numeral hn (by decide) r
  | cons c d =>
    have hc : c.isDigit = false := by
      rcases hd c List.mem_cons_self with rfl | rfl | rfl | rfl <;> rfl
    exact tokens?_numeral hn hc (d ++ ']' :: r)

theorem tokens?_pair (hp : Pair p l) (r : List Char) : tokens? (p ++ r) = (tokens? r).map (pairTokens l ++ ·) := by
  cases hp with
  | @pair a b c d content number house t ha hs hb hc hn hd =>
    have hsplit : '[' :: a ++ '"' :: content ++ '"' :: b ++ ',' :: c ++ number ++ d ++ [']'] ++ r =
        '[' :: (a ++ ('"' :: content ++ '"' :: (b ++ ',' :: (c ++ (number ++ (d ++ ']' :: r)))))) := by
      simp
    rw [hsplit, tokens?_opening, tokens?_spaces ha, tokens?_text hs, tokens?_spaces hb, tokens?_comma,
      tokens?_spaces hc, tokens?_lastNumber hn hd]
    cases tokens? r <;> simp [pairTokens]

theorem tokens?_pairs (hp : Pairs ps ls) (hb : Spaces b) :
    ∃ l ks, ls = l :: ks ∧ tokens? (ps ++ ']' :: b) = some (pairTokens l ++ tailTokens ks) := by
  induction hp with
  | @one a p c l ha hp hc =>
    refine ⟨l, [], rfl, ?_⟩
    rw [List.append_assoc, List.append_assoc, tokens?_spaces ha, tokens?_pair hp, tokens?_spaces hc, tokens?_closing,
      tokens?_end hb]
    rfl
  | @more a p c ps l ls ha hp hc _ ih =>
    obtain ⟨k, ks, rfl, hmore⟩ := ih
    refine ⟨l, k :: ks, rfl, ?_⟩
    rw [List.append_assoc, List.append_assoc, List.append_assoc, tokens?_spaces ha, tokens?_pair hp,
      tokens?_spaces hc, List.cons_append, tokens?_comma, hmore]
    rfl

/-- The words of a pair make a pair. -/
theorem pair_of_words (h : Words cs (pairTokens l ++ ts)) :
    ∃ a p rest, Spaces a ∧ Pair p l ∧ Words rest ts ∧ cs = a ++ p ++ rest := by
  obtain ⟨_, _, _, hfront, ⟨⟩, htext, rfl⟩ := h.uncons
  obtain ⟨_, _, _, ha, hword, hcomma, rfl⟩ := htext.uncons
  obtain ⟨content, hs, rfl⟩ := hword.content
  obtain ⟨_, _, _, hb, ⟨⟩, hnumber, rfl⟩ := hcomma.uncons
  obtain ⟨number, _, _, hc, hword, hclosing, rfl⟩ := hnumber.uncons
  have hn := hword.numeral
  obtain ⟨_, _, _, hd, ⟨⟩, hrest, rfl⟩ := hclosing.uncons
  exact ⟨_, _, _, hfront, .pair ha hs hb hc hn hd, hrest, by simp⟩

theorem pairs_of_words {ks : List Lease} (h : Words cs (pairTokens l ++ tailTokens ks)) :
    ∃ ps b, Pairs ps (l :: ks) ∧ Spaces b ∧ cs = ps ++ ']' :: b := by
  induction ks generalizing l cs with
  | nil =>
    obtain ⟨a, p, rest, ha, hp, hrest, rfl⟩ := pair_of_words h
    obtain ⟨_, _, _, hb, ⟨⟩, hend, rfl⟩ := hrest.uncons
    exact ⟨_, _, .one ha hp hb, hend.spaces, by simp⟩
  | cons k ks ih =>
    obtain ⟨a, p, rest, ha, hp, hrest, rfl⟩ := pair_of_words h
    obtain ⟨_, _, _, hb, ⟨⟩, hmore, rfl⟩ := hrest.uncons
    obtain ⟨ps, b, hps, hend, rfl⟩ := ih hmore
    exact ⟨_, b, .more ha hp hb hps, hend, by simp⟩

/-! ## Lists -/

theorem rows?_pairTokens (l : Lease) (ls : List Lease) : rows? (pairTokens l ++ tailTokens ls) = some (l :: ls) := by
  have hn (l : Lease) : int64? l.paidUntil.toInt = some l.paidUntil := int64?_eq_some.mpr rfl
  induction ls generalizing l with
  | nil => simp [pairTokens, tailTokens, rows?, hn]
  | cons k ls ih =>
    have hk := ih k
    simp only [pairTokens, tailTokens, List.cons_append, List.nil_append] at hk ⊢
    simp [rows?, hn, hk]

theorem rows?_eq_some (h : rows? ts = some ls) : ∃ l ks, ls = l :: ks ∧ ts = pairTokens l ++ tailTokens ks := by
  fun_induction rows? ts generalizing ls with
  | case1 house n t hn =>
    cases h
    obtain rfl := int64?_eq_some.mp hn
    exact ⟨⟨house, t⟩, [], rfl, rfl⟩
  | case2 house n t more hn ih =>
    obtain ⟨ls, hmore, rfl⟩ := Option.map_eq_some_iff.mp h
    obtain ⟨l, ks, rfl, rfl⟩ := ih hmore
    obtain rfl := int64?_eq_some.mp hn
    exact ⟨⟨house, t⟩, l :: ks, rfl, rfl⟩
  | case3 => cases h
  | case4 => cases h

theorem ofTokens?_eq_some (h : ofTokens? ts = some ls) :
    (ls = [] ∧ ts = [.opening, .closing]) ∨ ∃ l ks, ls = l :: ks ∧ ts = .opening :: (pairTokens l ++ tailTokens ks) := by
  unfold ofTokens? at h
  split at h
  · cases h
    exact Or.inl ⟨rfl, rfl⟩
  · obtain ⟨l, ks, rfl, rfl⟩ := rows?_eq_some h
    exact Or.inr ⟨l, ks, rfl, rfl⟩
  · cases h

theorem listing_of_tokens? (hcs : tokens? cs = some ts) (hts : ofTokens? ts = some ls) : Listing cs ls := by
  have hwords := words_of_tokens? hcs
  rcases ofTokens?_eq_some hts with ⟨rfl, rfl⟩ | ⟨l, ks, rfl, rfl⟩
  · obtain ⟨_, _, _, ha, ⟨⟩, hrest, rfl⟩ := hwords.uncons
    obtain ⟨_, _, _, hb, ⟨⟩, hend, rfl⟩ := hrest.uncons
    simpa using Listing.empty ha hb hend.spaces
  · obtain ⟨_, _, _, ha, ⟨⟩, hrest, rfl⟩ := hwords.uncons
    obtain ⟨ps, b, hps, hb, rfl⟩ := pairs_of_words hrest
    simpa using Listing.pairs ha hps hb

theorem Listing.read (h : Listing cs ls) : (tokens? cs).bind ofTokens? = some ls := by
  cases h with
  | @empty a b c ha hb hc =>
    rw [List.append_assoc, tokens?_spaces ha, List.cons_append, tokens?_opening, tokens?_spaces hb, tokens?_closing,
      tokens?_end hc]
    rfl
  | @pairs a ps b ls ha hps hb =>
    obtain ⟨l, ks, rfl, hread⟩ := tokens?_pairs hps hb
    rw [List.append_assoc, tokens?_spaces ha, List.cons_append, tokens?_opening, hread]
    exact rows?_pairTokens l ks

theorem Listing.not_blank (h : Listing cs ls) : ¬∀ c ∈ cs, Text.isBlank c = true := by
  intro hblank
  have hmem : '[' ∈ cs := by cases h <;> simp
  exact absurd (hblank '[' hmem) (by decide)

theorem allBlank_iff {s : String} : Text.allBlank s = true ↔ ∀ c ∈ s.toList, Text.isBlank c = true := List.all_eq_true

/-- The texts that are read are those of the language, and those of blanks alone. -/
theorem read?_eq_some_iff {s : String} :
    read? s = some ls ↔ (Text.allBlank s = true ∧ ls = []) ∨ Listing s.toList ls := by
  unfold read?
  constructor
  · intro h
    split at h
    · rename_i hblank
      cases h
      exact Or.inl ⟨hblank, rfl⟩
    · obtain ⟨ts, htokens, hts⟩ := Option.bind_eq_some_iff.mp h
      exact Or.inr (listing_of_tokens? htokens hts)
  · rintro (⟨hblank, rfl⟩ | hlisting)
    · rw [if_pos hblank]
    · rw [if_neg (mt allBlank_iff.mp hlisting.not_blank), hlisting.read]

/-- A character above U+FFFF is written by two surrogates, the high one first. -/
example : read? "[[\"\\ud83C\\uDFE0\" , -9223372036854775808 ] ]\n" = some [⟨"🏠", Int64.minValue⟩] ∧
    read? "[[\"\\uDFE0\\ud83C\",0]]" = none := by
  decide +kernel

end

end HouseLease.HouseList

namespace HouseLease

open HouseList (Listing)

/-- What comes of loading a record. -/
inductive Loads (r : Record) : Except Fault Holdings → Prop
  | blank : (∀ c ∈ r.houses.toList, Text.isBlank c = true) → Loads r (.ok ⟨[], r.lastHouse⟩)
  | listed {leases : List Lease} : Listing r.houses.toList leases → Loads r (.ok ⟨leases, r.lastHouse⟩)
  | unreadable :
      (¬∀ c ∈ r.houses.toList, Text.isBlank c = true) → (∀ leases, ¬Listing r.houses.toList leases) →
      Loads r (.error .houseListUnreadable)

theorem Loads.eq {r : Record} {result : Except Fault Holdings} (h : Loads r result) :
    Holdings.ofRecord r = result := by
  unfold Holdings.ofRecord
  cases h with
  | blank hblank => rw [HouseList.read?_eq_some_iff.mpr (Or.inl ⟨HouseList.allBlank_iff.mpr hblank, rfl⟩)]
  | listed hlisting => rw [HouseList.read?_eq_some_iff.mpr (Or.inr hlisting)]
  | unreadable hblank hno =>
    cases hread : HouseList.read? r.houses with
    | none => rfl
    | some leases =>
      rcases HouseList.read?_eq_some_iff.mp hread with ⟨hall, -⟩ | hlisting
      · exact absurd (HouseList.allBlank_iff.mp hall) hblank
      · exact absurd hlisting (hno leases)

theorem Loads.total (r : Record) : ∃ result, Loads r result := by
  by_cases hblank : ∀ c ∈ r.houses.toList, Text.isBlank c = true
  · exact ⟨_, .blank hblank⟩
  · by_cases hlisting : ∃ leases, Listing r.houses.toList leases
    · obtain ⟨leases, hlisting⟩ := hlisting
      exact ⟨_, .listed hlisting⟩
    · exact ⟨_, .unreadable hblank (not_exists.mp hlisting)⟩

/-- A list of blanks alone is empty. Any other list is a text of the language, which lists one list of leases only,
    or it is unreadable. -/
theorem records_load_iff_listed (r : Record) (result : Except Fault Holdings) :
    Holdings.ofRecord r = result ↔ Loads r result := by
  constructor
  · rintro rfl
    obtain ⟨result, hloads⟩ := Loads.total r
    exact hloads.eq ▸ hloads
  · exact Loads.eq

end HouseLease
