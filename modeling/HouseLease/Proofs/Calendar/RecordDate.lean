/-
  HouseLease.Proofs.Calendar.RecordDate — the date in a record is read back: the text of an
  instant is the text of one at the same moment (`ofText?_recordText`). A fraction of a
  whole second or more that lies in no leap second moves into the seconds.
-/

import HouseLease.Proofs.Calendar.DayNumbers
import HouseLease.Proofs.Text.Numerals

namespace HouseLease.Instant

/-! ## Numbers and marks -/

theorem isBlank_of_isDigit {c : Char} (h : c.isDigit = true) : Text.isBlank c = false := by
  simp only [Char.isDigit, Bool.and_eq_true, decide_eq_true_eq] at h
  have h1 : 48 ≤ c.toNat := h.1
  have h2 : c.toNat ≤ 57 := h.2
  simp only [Text.isBlank, Bool.or_eq_false_iff, Bool.and_eq_false_iff, decide_eq_false_iff_not, beq_eq_false_iff_ne]
  omega

theorem skipBlanks_cons {c : Char} (h : Text.isBlank c = false) (r : List Char) :
    Text.skipBlanks (c :: r) = c :: r := by
  simp [Text.skipBlanks, h]

theorem skipBlanks_digits {ds : List Char} (hd : ∀ c ∈ ds, c.isDigit = true) (hne : ds ≠ []) (r : List Char) :
    Text.skipBlanks (ds ++ r) = ds ++ r := by
  cases ds with
  | nil => exact absurd rfl hne
  | cons d ds => exact skipBlanks_cons (isBlank_of_isDigit (hd d List.mem_cons_self)) _

theorem number?_padded {w n : Nat} (hw : 0 < w) (h : n < Nat.pow 10 w) (r : List Char) :
    number? w (Text.padded w n ++ r) = some (n, r) := by
  have hd : ∀ c ∈ Text.padded w n, c.isDigit = true := fun c hc => Text.isDigit_of_mem_padded hc
  have hne := Text.padded_ne_nil w n
  have hl := Text.length_padded hw h
  have htake : (Text.padded w n ++ r).take w = Text.padded w n := List.take_left' hl
  have hall : (Text.padded w n).takeWhile Char.isDigit = Text.padded w n := by
    have h := @List.takeWhile_append_of_pos _ Char.isDigit (Text.padded w n) [] hd
    rwa [List.append_nil, List.takeWhile_nil, List.append_nil] at h
  have hdrop : (Text.padded w n ++ r).drop w = r := List.drop_left' hl
  simp only [number?, skipBlanks_digits hd hne, htake, hall, hl, hdrop, Text.ofDigits_padded]
  rw [if_neg (by simpa using hne)]

theorem mark?_hyphen (r : List Char) : mark? '-' ('-' :: r) = some r := by
  simp [mark?, skipBlanks_cons (c := '-') (by decide)]

theorem mark?_colon (r : List Char) : mark? ':' (':' :: r) = some r := by
  simp [mark?, skipBlanks_cons (c := ':') (by decide)]

theorem signed_padded (w n : Nat) (r : List Char) :
    year?.signed (Text.padded w n ++ '-' :: r) = some (n, '-' :: r) := by
  have hspan := Text.spanDigits_append (fun c (hc : c ∈ Text.padded w n) => Text.isDigit_of_mem_padded hc)
    (c := '-') (by decide) r
  simp [year?.signed, hspan, Text.padded_ne_nil, Text.ofDigits_padded]

theorem year?_yearText (y : Int) (r : List Char) : year? (yearText y ++ '-' :: r) = some (y, '-' :: r) := by
  unfold yearText
  split
  · rename_i hneg
    simp only [List.cons_append, year?, skipBlanks_cons (c := '-') (by decide), if_true, signed_padded, Option.map_some]
    rw [show -(y.natAbs : Int) = y by omega]
  · split
    · rename_i hbig
      simp only [List.cons_append, year?, skipBlanks_cons (c := '+') (by decide), Char.reduceEq, if_false, if_true,
        signed_padded, Option.map_some]
      rw [show (y.natAbs : Int) = y by omega]
    · have hd : ∀ c ∈ Text.padded 4 y.natAbs, c.isDigit = true := fun c hc => Text.isDigit_of_mem_padded hc
      have hskip := skipBlanks_digits hd (Text.padded_ne_nil 4 y.natAbs) ('-' :: r)
      have hsmall : y.natAbs < 10000 := by omega
      have hnum := number?_padded (w := 4) (n := y.natAbs) (by decide) hsmall ('-' :: r)
      rcases hp : Text.padded 4 y.natAbs with _ | ⟨d, ds⟩
      · exact absurd hp (Text.padded_ne_nil _ _)
      · rw [hp] at hd hskip hnum
        have hdig := hd d List.mem_cons_self
        have hne : ∀ x : Char, x.isDigit = false → d ≠ x := fun x hx h => by rw [h, hx] at hdig; cases hdig
        rw [List.cons_append] at hskip hnum
        simp only [List.cons_append, year?, hskip, hne '-' (by decide), hne '+' (by decide), if_false, hnum,
          Option.map_some]
        rw [show (y.natAbs : Int) = y by omega]

theorem fraction?_padded {w k : Nat} (hw : 0 < w ∧ w ≤ 9) (h : k < Nat.pow 10 w) :
    fraction? ('.' :: Text.padded w k ++ ['Z']) = some (Nat.pow 10 (9 - w) * k, ['Z']) := by
  have hspan := Text.spanDigits_append (fun c (hc : c ∈ Text.padded w k) => Text.isDigit_of_mem_padded hc)
    (c := 'Z') (by decide) []
  have hl := Text.length_padded hw.1 h
  have htake : (Text.padded w k).take 9 = Text.padded w k := List.take_of_length_le (by omega)
  have hval : Text.ofDigits ((Text.padded w k).rightpad 9 '0') = Nat.pow 10 (9 - w) * k := by
    rw [List.rightpad, hl, Text.ofDigits_append, Text.ofDigits_padded, List.length_replicate, Text.ofDigits,
      Nat.ofDigitChars_replicate_zero, Nat.mul_zero, Nat.add_zero]
  simp only [List.cons_append, fraction?, hspan, htake, hval]
  rw [if_neg (by simpa using Text.padded_ne_nil w k)]

theorem fraction?_fractionText (i : Instant) :
    fraction? (i.fractionText ++ ['Z']) = some (i.nanos % 1000000000, ['Z']) := by
  obtain ⟨n, hn⟩ : ∃ n, n = i.nanos % 1000000000 := ⟨_, rfl⟩
  unfold fractionText
  rw [← hn]
  simp only
  split
  · rename_i h0
    rw [h0]
    rfl
  · split
    · have hmillis : n / 1000000 < 1000 := by omega
      have hback : 1000000 * (n / 1000000) = n := by omega
      rw [fraction?_padded (by decide) hmillis]
      exact congrArg (fun k => some (k, ['Z'])) hback
    · split
      · have hmicros : n / 1000 < 1000000 := by omega
        have hback : 1000 * (n / 1000) = n := by omega
        rw [fraction?_padded (by decide) hmicros]
        exact congrArg (fun k => some (k, ['Z'])) hback
      · have hnanos : n < 1000000000 := by omega
        rw [fraction?_padded (by decide) hnanos]
        exact congrArg (fun k => some (k, ['Z'])) (Nat.one_mul n)

/-! ## The whole text -/

theorem bind_of_some {α β : Type} {x : Option α} {a : α} (h : x = some a) (f : α → Option β) : (x >>= f) = f a := by
  rw [h]
  rfl

/-- The parts that the text names. -/
theorem ofText?_parts (i : Instant) :
    ofText? i.recordText =
      ofParts? i.date i.clock.1 i.clock.2.1 i.clock.2.2 (i.nanos % 1000000000) 0 := by
  have hn := i.nanos_lt
  obtain ⟨hm, hd⟩ := isValid_bounds (isValid_ofDayNumber (i.seconds / 86400))
  have hmonth : i.date.month < 100 := Nat.lt_of_le_of_lt hm (by decide)
  have hday : i.date.day < 100 := Nat.lt_of_le_of_lt hd (by decide)
  have hhour : i.clock.1 < 100 := by simp only [clock]; omega
  have hminute : i.clock.2.1 < 100 := by simp only [clock]; omega
  have hsecond : i.clock.2.2 < 100 := by simp only [clock]; omega
  have htext : i.recordText.toList = yearText i.date.year ++ '-' :: (Text.padded 2 i.date.month ++ '-' ::
      (Text.padded 2 i.date.day ++ 'T' :: (Text.padded 2 i.clock.1 ++ ':' :: (Text.padded 2 i.clock.2.1 ++ ':' ::
        (Text.padded 2 i.clock.2.2 ++ (i.fractionText ++ ['Z'])))))) := by
    simp [recordText, secondText, timeText]
  have hzone : zone? (Text.skipBlanks ['Z']) = some (0, []) := by decide
  have hrest : (Text.skipBlanks []).isEmpty = true := rfl
  rw [ofText?, ofChars?, htext]
  refine (bind_of_some (year?_yearText _ _) _).trans ?_
  refine (bind_of_some (mark?_hyphen _) _).trans ?_
  refine (bind_of_some (number?_padded (by decide) hmonth _) _).trans ?_
  refine (bind_of_some (mark?_hyphen _) _).trans ?_
  refine (bind_of_some (number?_padded (by decide) hday _) _).trans ?_
  -- the mark between date and time
  refine (if_pos (by decide)).trans ?_
  refine (bind_of_some (number?_padded (by decide) hhour _) _).trans ?_
  refine (bind_of_some (mark?_colon _) _).trans ?_
  refine (bind_of_some (number?_padded (by decide) hminute _) _).trans ?_
  refine (bind_of_some (mark?_colon _) _).trans ?_
  refine (bind_of_some (number?_padded (by decide) hsecond _) _).trans ?_
  refine (bind_of_some (fraction?_fractionText i) _).trans ?_
  refine (bind_of_some hzone _).trans ?_
  exact if_pos hrest

theorem make?_moment {s m : Int} {n : Nat} (hs : earliestSecond ≤ s ∧ s ≤ latestSecond) (hn : n < 2000000000)
    (hm : s * 1000000000 + n = m) : ∃ j, make? s n = some j ∧ j.seconds * 1000000000 + j.nanos = m :=
  ⟨⟨s, n, hs, hn⟩, dif_pos ⟨hs, hn⟩, hm⟩

/-- The text of an instant is that of one at the same moment. -/
theorem ofText?_recordText (i : Instant) :
    ∃ j, ofText? i.recordText = some j ∧ j.seconds * 1000000000 + j.nanos = i.seconds * 1000000000 + i.nanos := by
  have hn := i.nanos_lt
  have hr := i.seconds_range
  have hyear := yearInRange_ofDayNumber hr
  have hnum := dayNumber_ofDayNumber (i.seconds / 86400)
  have hc : i.clock = ((i.seconds % 86400).toNat / 3600, (i.seconds % 86400).toNat / 60 % 60,
      (i.seconds % 86400).toNat % 60 + i.nanos / 1000000000) := rfl
  have hok : (i.date.isValid && yearInRange i.date.year && decide (i.clock.1 ≤ 23) && decide (i.clock.2.1 ≤ 59)
      && decide (i.clock.2.2 ≤ 60) && decide (-86400 < (0 : Int)) && decide ((0 : Int) < 86400)) = true := by
    simp only [Bool.and_eq_true, decide_eq_true_eq, hc]
    refine ⟨⟨⟨⟨⟨⟨isValid_ofDayNumber _, hyear⟩, ?_⟩, ?_⟩, ?_⟩, by decide⟩, by decide⟩ <;> omega
  rw [ofText?_parts, ofParts?, if_pos hok, hc, date, hnum]
  obtain ⟨t, ht⟩ : ∃ t, t = (i.seconds % 86400).toNat := ⟨_, rfl⟩
  have hs : i.seconds = i.seconds / 86400 * 86400 + t := by omega
  have hday : t / 3600 * 3600 + t / 60 % 60 * 60 + t % 60 = t := by omega
  have hlast : t % 60 = 59 ∨ i.seconds < latestSecond := by
    unfold latestSecond at hr ⊢
    omega
  simp only [← ht]
  by_cases hleap : t % 60 + i.nanos / 1000000000 = 60
  · rw [if_pos hleap]
    exact make?_moment (by omega) (by omega) (by omega)
  · rw [if_neg hleap]
    exact make?_moment (by omega) (by omega) (by omega)

end HouseLease.Instant
