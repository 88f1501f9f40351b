/-
  HouseLease.Proofs.Calendar.DayNumbers — dates and day numbers.

  `Date.ofDayNumber` finds a date that exists (`isValid_ofDayNumber`) and whose day number
  is the given one (`dayNumber_ofDayNumber`); the days of the representable years are those
  between the first and the last representable second (`yearInRange_ofDayNumber`).

  The day number is what counting gives: `Date.next` goes on to the next day of the month, the next
  month or the next year, whichever comes first, and so many steps lead from 1970-01-01 to a date or
  back (`isDay_iff`).
-/

import HouseLease.Calendar.Reading

namespace HouseLease

/-! ## Years -/

theorem isLeap_iff (y : Int) : isLeap y = true ↔ y % 4 = 0 ∧ (y % 100 ≠ 0 ∨ y % 400 = 0) := by
  simp [isLeap]

/-- The days of a year. -/
def yearLength (y : Int) : Int := if isLeap y then 366 else 365

theorem daysBeforeYear_succ (y : Int) : daysBeforeYear (y + 1) = daysBeforeYear y + yearLength y := by
  have hl := isLeap_iff y
  unfold daysBeforeYear yearLength
  by_cases h : isLeap y = true
  · have := hl.mp h
    rw [if_pos h]
    omega
  · have hn : ¬ (y % 4 = 0 ∧ (y % 100 ≠ 0 ∨ y % 400 = 0)) := fun h' => h (hl.mpr h')
    rw [if_neg h]
    omega

theorem daysBeforeYear_mono {x y : Int} (h : x ≤ y) : daysBeforeYear x ≤ daysBeforeYear y := by
  unfold daysBeforeYear
  omega

/-- The whole cycles of 400, 100, 4 and 1 years in `n` days, and the `k` days after the fours. -/
theorem splitYears_cycles (n : Int) :
    ∃ q c f r k, splitYears n = (400 * q + 100 * c + 4 * f + r, k - 365 * r) ∧
      n = 146097 * q + 36524 * c + 1461 * f + k ∧ (0 ≤ c ∧ c ≤ 3) ∧ (0 ≤ f ∧ f ≤ 24) ∧ (0 ≤ r ∧ r ≤ 3) ∧
      (365 * r ≤ k ∧ k ≤ 365 * r + 365) ∧ (k = 365 * r + 365 → r = 3) ∧ (f = 24 → k = 1460 → c = 3) := by
  obtain ⟨m, hm⟩ : ∃ m, m = n % 146097 := ⟨_, rfl⟩
  obtain ⟨c, hc⟩ : ∃ c, c = min (m / 36524) 3 := ⟨_, rfl⟩
  obtain ⟨f, hf⟩ : ∃ f, f = (m - 36524 * c) / 1461 := ⟨_, rfl⟩
  obtain ⟨k, hk⟩ : ∃ k, k = (m - 36524 * c) % 1461 := ⟨_, rfl⟩
  obtain ⟨r, hr⟩ : ∃ r, r = min (k / 365) 3 := ⟨_, rfl⟩
  have hs : splitYears n = (400 * (n / 146097) + 100 * c + 4 * f + r, k - 365 * r) := by
    simp only [splitYears, hm, hc, hf, hk, hr]
  have hn : n = 146097 * (n / 146097) + m := by omega
  have hmr : 0 ≤ m ∧ m < 146097 := by omega
  have hcr : (0 ≤ c ∧ c ≤ 3) ∧ 36524 * c ≤ m ∧ (c ≠ 3 → m - 36524 * c < 36524) ∧ m - 36524 * c ≤ 36524 := by
    clear hs hn hr hk hf
    omega
  have hfk : m - 36524 * c = 1461 * f + k ∧ 0 ≤ k ∧ k < 1461 := by
    clear hs hn hr hc
    omega
  have hrr : (0 ≤ r ∧ r ≤ 3) ∧ (365 * r ≤ k ∧ k ≤ 365 * r + 365) ∧ (k = 365 * r + 365 → r = 3) := by
    clear hs hn hk hf hc hm
    omega
  clear hr hk hf hc hm
  exact ⟨n / 146097, c, f, r, k, hs, by omega, hcr.1, by omega, hrr.1, hrr.2.1, hrr.2.2, by omega⟩

/-- The last year of a cycle of four years is a leap year, but for those that end the first three centuries of four. -/
theorem isLeap_fourth {q c f : Int} (hc : 0 ≤ c) (hf : 0 ≤ f ∧ f ≤ 24) (h : f = 24 → c = 3) :
    isLeap (400 * q + 100 * c + 4 * f + 4) = true := by
  rw [isLeap_iff]
  refine ⟨by omega, ?_⟩
  by_cases hf24 : f = 24
  · have hc3 := h hf24
    subst hf24 hc3
    right
    omega
  · left
    have hmod : (400 * q + 100 * c + 4 * f + 4) % 100 = 4 * f + 4 := by
      rw [show 400 * q + 100 * c + 4 * f + 4 = 4 * f + 4 + (4 * q + c) * 100 by omega, Int.add_mul_emod_self_right]
      omega
    omega

/-- `splitYears` leaves a day of the year it finds. -/
theorem splitYears_spec (n : Int) :
    daysBeforeYear ((splitYears n).1 + 1) + (splitYears n).2 = n ∧ 0 ≤ (splitYears n).2 ∧
      (splitYears n).2 < yearLength ((splitYears n).1 + 1) := by
  obtain ⟨q, c, f, r, k, hs, hn, hc, hf, hr, hk, h365, hcentury⟩ := splitYears_cycles n
  rw [hs]
  have h4 : (400 * q + 100 * c + 4 * f + r) / 4 = 100 * q + 25 * c + f := by omega
  have h100 : (400 * q + 100 * c + 4 * f + r) / 100 = 4 * q + c := by omega
  have h400 : (400 * q + 100 * c + 4 * f + r) / 400 = q := by omega
  have hsum : daysBeforeYear (400 * q + 100 * c + 4 * f + r + 1) + (k - 365 * r) = n := by
    simp only [daysBeforeYear, Int.add_sub_cancel, h4, h100, h400]
    omega
  -- day 365 is the last of a cycle of four years, and of 400 if it is the last of a century
  have hleap : k - 365 * r = 365 → isLeap (400 * q + 100 * c + 4 * f + r + 1) = true := by
    intro he
    have hr3 : r = 3 := h365 (by omega)
    rw [hr3, Int.add_assoc]
    exact isLeap_fourth hc.1 hf fun hf24 => hcentury hf24 (by omega)
  refine ⟨hsum, by simp only; omega, ?_⟩
  by_cases hl : isLeap (400 * q + 100 * c + 4 * f + r + 1) = true
  · rw [yearLength, if_pos hl]
    simp only
    omega
  · rw [yearLength, if_neg hl]
    have hne := mt hleap hl
    simp only
    omega

/-! ## Months -/

theorem splitMonths_spec {lengths : List Nat} {n : Nat} (h : n < totalDays lengths) :
    totalDays (lengths.take (splitMonths lengths n).1) + (splitMonths lengths n).2 = n ∧
      ∃ length, lengths[(splitMonths lengths n).1]? = some length ∧ (splitMonths lengths n).2 < length := by
  induction lengths generalizing n with
  | nil => cases h
  | cons length lengths ih =>
    rw [splitMonths]
    split
    · rename_i hl
      exact ⟨by simp [totalDays], length, rfl, hl⟩
    · rename_i hl
      rw [totalDays] at h
      obtain ⟨hsum, k, hk, hlt⟩ := ih (n := n - length) (by omega)
      refine ⟨?_, k, by simpa using hk, hlt⟩
      simp only [List.take_succ_cons, totalDays]
      omega

theorem totalDays_monthLengths (y : Int) : (totalDays (monthLengths (isLeap y)) : Int) = yearLength y := by
  unfold yearLength
  cases isLeap y <;> rfl

/-! ## Days -/

/-- Year and day of the year of a day number, the day from 0. -/
theorem ofDayNumber_year (n : Int) :
    ∃ day : Nat, (Date.ofDayNumber n).year = (splitYears (n + epochOffset)).1 + 1 ∧
      daysBeforeYear (Date.ofDayNumber n).year + day = n + epochOffset ∧
      (day : Int) < yearLength (Date.ofDayNumber n).year ∧
      Date.ofDayNumber n = ⟨(Date.ofDayNumber n).year,
        (splitMonths (monthLengths (isLeap (Date.ofDayNumber n).year)) day).1 + 1,
        (splitMonths (monthLengths (isLeap (Date.ofDayNumber n).year)) day).2 + 1⟩ := by
  obtain ⟨hsum, hnn, hlt⟩ := splitYears_spec (n + epochOffset)
  have hy : (Date.ofDayNumber n).year = (splitYears (n + epochOffset)).1 + 1 := rfl
  refine ⟨(splitYears (n + epochOffset)).2.toNat, rfl, ?_, ?_, rfl⟩
  · rw [hy, Int.toNat_of_nonneg hnn]
    exact hsum
  · rw [hy, Int.toNat_of_nonneg hnn]
    exact hlt

theorem ofDayNumber_spec (n : Int) :
    (Date.ofDayNumber n).isValid = true ∧ (Date.ofDayNumber n).dayNumber = n := by
  obtain ⟨day, -, hsum, hlt, hd⟩ := ofDayNumber_year n
  generalize hyear : (Date.ofDayNumber n).year = y at *
  have hs : day < totalDays (monthLengths (isLeap y)) := by
    have := totalDays_monthLengths y
    omega
  obtain ⟨hday, length, hlen, hin⟩ := splitMonths_spec hs
  rw [hd]
  refine ⟨?_, ?_⟩
  · simp only [Date.isValid, Nat.add_sub_cancel, hlen, Bool.and_eq_true, decide_eq_true_eq]
    omega
  · simp only [Date.dayNumber, Nat.add_sub_cancel]
    omega

theorem isValid_ofDayNumber (n : Int) : (Date.ofDayNumber n).isValid = true := (ofDayNumber_spec n).1

theorem dayNumber_ofDayNumber (n : Int) : (Date.ofDayNumber n).dayNumber = n := (ofDayNumber_spec n).2

/-- Months and days take at most two digits. -/
theorem isValid_bounds {d : Date} (h : d.isValid = true) : d.month ≤ 12 ∧ d.day ≤ 31 := by
  unfold Date.isValid at h
  split at h
  · rename_i length hl
    simp only [Bool.and_eq_true, decide_eq_true_eq] at h
    have hlen : d.month - 1 < (monthLengths (isLeap d.year)).length := (List.getElem?_eq_some_iff.mp hl).1
    have hmem := List.mem_of_getElem? hl
    have hmax : ∀ b, ∀ l ∈ monthLengths b, l ≤ 31 := by decide
    have := hmax _ _ hmem
    simp only [monthLengths, List.length_cons, List.length_nil] at hlen
    omega
  · cases h

theorem yearInRange_ofDayNumber {s : Int} (h : earliestSecond ≤ s ∧ s ≤ latestSecond) :
    Instant.yearInRange (Date.ofDayNumber (s / 86400)).year = true := by
  obtain ⟨day, -, hsum, hlt, -⟩ := ofDayNumber_year (s / 86400)
  generalize (Date.ofDayNumber (s / 86400)).year = y at *
  have hfirst : daysBeforeYear (-262143) = -95746130 := by decide
  have hlast : daysBeforeYear 262143 = 95745399 := by decide
  have hsucc := daysBeforeYear_succ y
  simp only [earliestSecond, latestSecond, epochOffset] at *
  simp only [Instant.yearInRange, Bool.and_eq_true, decide_eq_true_eq]
  constructor
  · by_cases hy : -262143 ≤ y
    · exact hy
    · have := daysBeforeYear_mono (x := y + 1) (y := -262143) (by omega)
      omega
  · by_cases hy : y ≤ 262142
    · exact hy
    · have := daysBeforeYear_mono (x := 262143) (y := y) (by omega)
      omega

/-! ## Counting -/

attribute [ext] Date

/-- The day after a date: in the same month, else in the same year. -/
def Date.next (d : Date) : Date :=
  if Date.isValid ⟨d.year, d.month, d.day + 1⟩ then ⟨d.year, d.month, d.day + 1⟩
  else if Date.isValid ⟨d.year, d.month + 1, 1⟩ then ⟨d.year, d.month + 1, 1⟩
  else ⟨d.year + 1, 1, 1⟩

/-- The date `n` days after a date. -/
def Date.later (d : Date) : Nat → Date
  | 0 => d
  | n + 1 => (d.later n).next

/-- `n` days lead from the first of January 1970 to the date; if `n` is negative, they lead from the date to that day. -/
def Date.IsDay (d : Date) (n : Int) : Prop := (⟨1970, 1, 1⟩ : Date).later n.toNat = d.later (-n).toNat

theorem isValid_iff {d : Date} : d.isValid = true ↔
    ∃ length, (monthLengths (isLeap d.year))[d.month - 1]? = some length ∧ 1 ≤ d.month ∧ 1 ≤ d.day ∧ d.day ≤ length := by
  unfold Date.isValid
  split
  · rename_i length hl
    simp [hl, and_assoc]
  · rename_i hl
    simp [hl]

theorem isValid_newYear (y : Int) : Date.isValid ⟨y, 1, 1⟩ = true := by
  simp [isValid_iff, monthLengths]

theorem totalDays_take_succ {lengths : List Nat} {i length : Nat} (h : lengths[i]? = some length) :
    totalDays (lengths.take (i + 1)) = totalDays (lengths.take i) + length := by
  induction lengths generalizing i with
  | nil => cases h
  | cons l lengths ih =>
    cases i with
    | zero =>
      cases h
      simp [totalDays]
    | succ i =>
      have hrest := ih (i := i) (by simpa using h)
      simp only [List.take_succ_cons, totalDays]
      omega

theorem totalDays_take_mono (lengths : List Nat) {i j : Nat} (h : i ≤ j) :
    totalDays (lengths.take i) ≤ totalDays (lengths.take j) := by
  induction lengths generalizing i j with
  | nil => simp
  | cons l lengths ih =>
    cases i with
    | zero => simp [totalDays]
    | succ i =>
      obtain ⟨j, rfl⟩ : ∃ k, j = k + 1 := ⟨j - 1, by omega⟩
      have hrest := ih (i := i) (j := j) (by omega)
      simp only [List.take_succ_cons, totalDays]
      omega

theorem length_monthLengths (leap : Bool) : (monthLengths leap).length = 12 := rfl

theorem isValid_newMonth {y : Int} {m : Nat} (h : m < 12) : Date.isValid ⟨y, m + 1, 1⟩ = true := by
  have hpos : ∀ leap, ∀ length ∈ monthLengths leap, 1 ≤ length := by decide
  have hm : m < (monthLengths (isLeap y)).length := by rwa [length_monthLengths]
  have hget := List.getElem?_eq_getElem hm
  exact isValid_iff.mpr ⟨_, hget, by simp, by simp, hpos _ _ (List.getElem_mem hm)⟩

theorem next_spec {d : Date} (h : d.isValid = true) : d.next.isValid = true ∧ d.next.dayNumber = d.dayNumber + 1 := by
  obtain ⟨y, m, k⟩ := d
  obtain ⟨length, hget, hm, hk, hle⟩ := isValid_iff.mp h
  simp only at hget hm hk hle
  have htake := totalDays_take_succ hget
  rw [show m - 1 + 1 = m by omega] at htake
  unfold Date.next
  split
  · rename_i hday
    refine ⟨hday, ?_⟩
    simp only [Date.dayNumber]
    omega
  · rename_i hday
    -- the month is over
    have hlast : ¬k < length := fun hlt => hday (isValid_iff.mpr ⟨length, hget, hm, by simp, hlt⟩)
    split
    · rename_i hmonth
      refine ⟨hmonth, ?_⟩
      simp only [Date.dayNumber, Nat.add_sub_cancel]
      omega
    · rename_i hmonth
      -- so is the year
      have hm12 : m < 13 := by
        have hlt := (List.getElem?_eq_some_iff.mp hget).1
        rw [length_monthLengths] at hlt
        omega
      have hlate : ¬m < 12 := fun hlt => hmonth (isValid_newMonth hlt)
      have hdecember : m = 12 := by omega
      have hyear := totalDays_monthLengths y
      rw [← List.take_length (l := monthLengths (isLeap y)), length_monthLengths, ← hdecember, htake] at hyear
      have hsucc := daysBeforeYear_succ y
      refine ⟨isValid_newYear (y + 1), ?_⟩
      simp only [Date.dayNumber, Nat.sub_self, List.take_zero, totalDays]
      omega

theorem later_spec {d : Date} (h : d.isValid = true) (n : Nat) :
    (d.later n).isValid = true ∧ (d.later n).dayNumber = d.dayNumber + n := by
  induction n with
  | zero => exact ⟨h, by simp [Date.later]⟩
  | succ n ih =>
    obtain ⟨hvalid, hnumber⟩ := next_spec ih.1
    refine ⟨hvalid, ?_⟩
    rw [Date.later, hnumber, ih.2]
    omega

/-- A date lies in its year. -/
theorem dayNumber_year {d : Date} (h : d.isValid = true) :
    daysBeforeYear d.year ≤ d.dayNumber + epochOffset ∧ d.dayNumber + epochOffset < daysBeforeYear (d.year + 1) := by
  obtain ⟨length, hget, hm, hk, hle⟩ := isValid_iff.mp h
  have htake := totalDays_take_succ hget
  have hyear := totalDays_monthLengths d.year
  have hmono := totalDays_take_mono (monthLengths (isLeap d.year)) (i := d.month - 1 + 1) (j := 12)
    (by have := isValid_bounds h; omega)
  rw [← length_monthLengths (isLeap d.year), List.take_length] at hmono
  have hsucc := daysBeforeYear_succ d.year
  simp only [Date.dayNumber]
  omega

theorem dayNumber_lt_of_year {d d' : Date} (h : d.isValid = true) (h' : d'.isValid = true) (hlt : d.year < d'.year) :
    d.dayNumber < d'.dayNumber := by
  have hd := dayNumber_year h
  have hd' := dayNumber_year h'
  have hmono := daysBeforeYear_mono (x := d.year + 1) (y := d'.year) (by omega)
  omega

theorem dayNumber_lt_of_month {d d' : Date} (h : d.isValid = true) (h' : d'.isValid = true) (hyear : d.year = d'.year)
    (hlt : d.month < d'.month) : d.dayNumber < d'.dayNumber := by
  obtain ⟨length, hget, hm, hk, hle⟩ := isValid_iff.mp h
  obtain ⟨_, -, -, hk', -⟩ := isValid_iff.mp h'
  have htake := totalDays_take_succ hget
  have hmono := totalDays_take_mono (monthLengths (isLeap d.year)) (i := d.month - 1 + 1) (j := d'.month - 1) (by omega)
  simp only [Date.dayNumber, ← hyear]
  omega

theorem dayNumber_inj {d d' : Date} (h : d.isValid = true) (h' : d'.isValid = true) :
    d.dayNumber = d'.dayNumber ↔ d = d' := by
  constructor
  · intro heq
    have hyear : d.year = d'.year := by
      rcases Int.lt_trichotomy d.year d'.year with hlt | heq | hlt
      · have := dayNumber_lt_of_year h h' hlt
        omega
      · exact heq
      · have := dayNumber_lt_of_year h' h hlt
        omega
    have hmonth : d.month = d'.month := by
      rcases Nat.lt_trichotomy d.month d'.month with hlt | heq | hlt
      · have := dayNumber_lt_of_month h h' hyear hlt
        omega
      · exact heq
      · have := dayNumber_lt_of_month h' h hyear.symm hlt
        omega
    have hday : d.day = d'.day := by
      simp only [Date.dayNumber, hyear, hmonth] at heq
      omega
    exact Date.ext hyear hmonth hday
  · rintro rfl
    rfl

/-- Counting the days gives the day number. -/
theorem isDay_iff {d : Date} {n : Int} (h : d.isValid = true) : d.IsDay n ↔ d.dayNumber = n := by
  have hfirst : Date.isValid ⟨1970, 1, 1⟩ = true := by decide
  have hnought : Date.dayNumber ⟨1970, 1, 1⟩ = 0 := by decide
  obtain ⟨hvalid, hnumber⟩ := later_spec hfirst n.toNat
  obtain ⟨hvalid', hnumber'⟩ := later_spec h (-n).toNat
  rw [Date.IsDay, ← dayNumber_inj hvalid hvalid', hnumber, hnumber', hnought]
  omega

end HouseLease
