/-
  HouseLease.Proofs.Visit.Labels — the label of an expiry names its second.

  A label is read by its parts: day, month, year and time of day (`Names`). They are a date that
  exists and a time, and so many days and seconds lead there from 1970 as the expiry says
  (`Tells`, `tells_label`). No text names two seconds (`Tells.unique`): the parts end at the first
  blank or colon behind them. So every expiry the calendar reaches has a label of its own, and
  every other one is refused (`labels_name_the_expiry`).
-/

import HouseLease.Proofs.Record.Keys
import HouseLease.Proofs.Visit.Runs

namespace HouseLease

/-! ## What a label says -/

/-- Decimal digits of value `n`: `width` of them, or more without a nought in front. -/
structure Figures (width n : Nat) (cs : List Char) : Prop where
  digits : ∀ c ∈ cs, c.isDigit = true
  value : Text.ofDigits cs = n
  filled : width ≤ cs.length
  plain : width < cs.length → cs.head? ≠ some '0'

/-- The sign of a year before 0 or after 9999. -/
def yearSign (year : Int) : List Char := if year < 0 then ['-'] else if 9999 < year then ['+'] else []

/-- The text gives this date and time of day, as in `24 November 2023 22:13:20 UTC`. -/
def Names (text : List Char) (d : Date) (hour minute second : Nat) : Prop :=
  ∃ (day year hh mm ss : List Char) (month : String),
    Figures 2 d.day day ∧ monthNames[d.month - 1]? = some month ∧ Figures 4 d.year.natAbs year ∧
    Figures 2 hour hh ∧ Figures 2 minute mm ∧ Figures 2 second ss ∧
    text = day ++ ' ' :: (month.toList ++ ' ' :: (yearSign d.year ++ year ++ ' ' ::
      (hh ++ ':' :: (mm ++ ':' :: (ss ++ ' ' :: ['U', 'T', 'C'])))))

/-- The label gives a date that exists and a time of day, `t` seconds from the beginning of 1970. -/
def Tells (label : String) (t : Int) : Prop :=
  ∃ (d : Date) (days : Int) (hour minute second : Nat), d.isValid = true ∧ d.IsDay days ∧ hour < 24 ∧ minute < 60 ∧
    second < 60 ∧ t = days * 86400 + hour * 3600 + minute * 60 + second ∧ Names label.toList d hour minute second

/-! ## Writing -/

theorem figures_padded {w : Nat} (hw : 0 < w) (n : Nat) : Figures w n (Text.padded w n) where
  digits := fun _ hc => Text.isDigit_of_mem_padded hc
  value := Text.ofDigits_padded w n
  filled := by
    simp only [Text.padded, List.leftpad, List.length_append, List.length_replicate]
    omega
  plain := by
    intro hlong
    -- longer than the width: nothing was filled up
    have hfill : w - (Text.digits n).length = 0 := by
      simp only [Text.padded, List.leftpad, List.length_append, List.length_replicate] at hlong
      omega
    rw [Text.padded, List.leftpad, hfill, List.replicate_zero, List.nil_append] at hlong ⊢
    cases hdigits : Text.digits n with
    | nil => exact absurd hdigits (Text.digits_ne_nil n)
    | cons c ds =>
      rw [hdigits] at hlong
      intro hc
      cases Option.some.inj hc
      obtain ⟨-, rfl⟩ := Text.digits_head n hdigits
      simp only [List.length_singleton] at hlong
      omega

theorem yearText_eq (year : Int) : yearText year = yearSign year ++ Text.padded 4 year.natAbs := by
  unfold yearText yearSign
  split
  · rfl
  · split <;> rfl

theorem monthNames_get {d : Date} (h : d.isValid = true) :
    monthNames[d.month - 1]? = some (monthNames.getD (d.month - 1) "") := by
  have hlt : d.month - 1 < monthNames.length := by
    have hle := (isValid_bounds h).1
    simp only [monthNames, List.length_cons, List.length_nil]
    omega
  rw [List.getD_eq_getElem?_getD, List.getElem?_eq_getElem hlt]
  rfl

theorem names_label (i : Instant) : Names i.label.toList i.date i.clock.1 i.clock.2.1 i.clock.2.2 := by
  refine ⟨_, _, _, _, _, _, figures_padded (by decide) _, monthNames_get (isValid_ofDayNumber _),
    figures_padded (by decide) _, figures_padded (by decide) _, figures_padded (by decide) _,
    figures_padded (by decide) _, ?_⟩
  simp [Instant.label, Instant.timeText, yearText_eq]

theorem tells_label {i : Instant} (hwhole : i.nanos = 0) : Tells i.label i.seconds := by
  have hvalid := isValid_ofDayNumber (i.seconds / 86400)
  have hclock : i.clock = ((i.seconds % 86400).toNat / 3600, (i.seconds % 86400).toNat / 60 % 60,
      (i.seconds % 86400).toNat % 60) := by
    simp [Instant.clock, hwhole]
  have hnames := names_label i
  rw [hclock] at hnames
  refine ⟨i.date, i.seconds / 86400, (i.seconds % 86400).toNat / 3600, (i.seconds % 86400).toNat / 60 % 60,
    (i.seconds % 86400).toNat % 60, hvalid, (isDay_iff hvalid).mpr (dayNumber_ofDayNumber _), ?_, ?_, ?_, ?_, hnames⟩
  all_goals omega

/-! ## Reading -/

section

variable {c : Char} {n n' w : Nat} {cs : List Char} {d d' : Date} {hour hour' minute minute' second second' : Nat}

theorem Figures.not_mem (h : Figures w n cs) (hc : c.isDigit = false) : c ∉ cs := by
  intro hmem
  rw [h.digits c hmem] at hc
  cases hc

theorem Figures.unique (h : Figures w n cs) (h' : Figures w n' cs) : n = n' := h.value.symm.trans h'.value

/-- Texts without the mark that ends them are told apart in front of it. -/
theorem cut_at_mark {mark : Char} {xs ys xs' ys' : List Char} (hxs : mark ∉ xs) (hxs' : mark ∉ xs')
    (h : xs ++ mark :: ys = xs' ++ mark :: ys') : xs = xs' ∧ ys = ys' := by
  rcases append_cons_eq_append_cons.mp h with h | ⟨rest, rfl, -⟩ | ⟨rest, rfl, -⟩
  · exact h
  · simp at hxs'
  · simp at hxs

theorem month_unique {month : String} (h : d.isValid = true) (h' : d'.isValid = true)
    (hmonth : monthNames[d.month - 1]? = some month) (hmonth' : monthNames[d'.month - 1]? = some month) :
    d.month = d'.month := by
  obtain ⟨hlt, -⟩ := List.getElem?_eq_some_iff.mp hmonth
  have hindex := (List.getElem?_inj hlt (by decide)).mp (hmonth.trans hmonth'.symm)
  obtain ⟨-, -, hm, -⟩ := isValid_iff.mp h
  obtain ⟨-, -, hm', -⟩ := isValid_iff.mp h'
  omega

theorem blank_not_mem_month {month : String} (h : monthNames[n]? = some month) : ' ' ∉ month.toList := by
  have hall : ∀ month ∈ monthNames, ' ' ∉ month.toList := by decide
  exact hall month (List.mem_of_getElem? h)

/-- The first character of a year tells its sign. -/
theorem head?_signed {year : Int} (h : Figures 4 year.natAbs cs) :
    ((yearSign year ++ cs).head? = some '-' ↔ year < 0) ∧ ((yearSign year ++ cs).head? = some '+' ↔ 9999 < year) := by
  have hdigit : ∀ c, cs.head? = some c → c.isDigit = true := fun c hc => h.digits c (List.mem_of_head? hc)
  unfold yearSign
  split
  case isTrue hneg =>
    exact ⟨by simpa using hneg, fun hc => absurd (Option.some.inj hc) (by decide), fun hbig => by omega⟩
  case isFalse hneg =>
    split
    case isTrue hbig => exact ⟨by simpa using hneg, by simpa using hbig⟩
    case isFalse hbig =>
      rw [List.nil_append]
      exact ⟨⟨fun hc => absurd (hdigit _ hc) (by decide), fun h => absurd h hneg⟩,
        ⟨fun hc => absurd (hdigit _ hc) (by decide), fun h => absurd h hbig⟩⟩

theorem year_unique {year year' : Int} {cs' : List Char} (h : Figures 4 year.natAbs cs) (h' : Figures 4 year'.natAbs cs')
    (htext : yearSign year ++ cs = yearSign year' ++ cs') : year = year' := by
  have hneg : year < 0 ↔ year' < 0 := by rw [← (head?_signed h).1, ← (head?_signed h').1, htext]
  have hbig : 9999 < year ↔ 9999 < year' := by rw [← (head?_signed h).2, ← (head?_signed h').2, htext]
  have hsign : yearSign year = yearSign year' := by simp only [yearSign, hneg, hbig]
  rw [hsign] at htext
  obtain rfl := List.append_cancel_left htext
  have habs := h.unique h'
  omega

theorem blank_not_mem_year {year : Int} (h : Figures 4 year.natAbs cs) : ' ' ∉ yearSign year ++ cs := by
  simp only [List.mem_append, not_or]
  refine ⟨?_, h.not_mem (by decide)⟩
  unfold yearSign
  split
  · decide
  · split <;> decide

/-- A text gives one date and one time: its parts are cut at the marks, which none of them holds. -/
theorem Names.unique (hd : d.isValid = true) (hd' : d'.isValid = true) (h : Names cs d hour minute second)
    (h' : Names cs d' hour' minute' second') : d = d' ∧ hour = hour' ∧ minute = minute' ∧ second = second' := by
  obtain ⟨day, year, hh, mm, ss, month, hday, hmonth, hyear, hhour, hmin, hsec, rfl⟩ := h
  obtain ⟨day', year', hh', mm', ss', month', hday', hmonth', hyear', hhour', hmin', hsec', htext⟩ := h'
  obtain ⟨hdays, htext⟩ := cut_at_mark (hday.not_mem (by decide)) (hday'.not_mem (by decide)) htext
  obtain ⟨hmonths, htext⟩ := cut_at_mark (blank_not_mem_month hmonth) (blank_not_mem_month hmonth') htext
  obtain ⟨hyears, htext⟩ := cut_at_mark (blank_not_mem_year hyear) (blank_not_mem_year hyear') htext
  obtain ⟨hhours, htext⟩ := cut_at_mark (hhour.not_mem (by decide)) (hhour'.not_mem (by decide)) htext
  obtain ⟨hmins, htext⟩ := cut_at_mark (hmin.not_mem (by decide)) (hmin'.not_mem (by decide)) htext
  obtain ⟨hsecs, -⟩ := cut_at_mark (hsec.not_mem (by decide)) (hsec'.not_mem (by decide)) htext
  cases String.toList_injective hmonths
  cases hdays
  cases hhours
  cases hmins
  cases hsecs
  have hdate : d = d' :=
    Date.ext (year_unique hyear hyear' hyears) (month_unique hd hd' hmonth hmonth') (hday.unique hday')
  exact ⟨hdate, hhour.unique hhour', hmin.unique hmin', hsec.unique hsec'⟩

/-- No label tells two seconds. -/
theorem Tells.unique {label : String} {t t' : Int} (h : Tells label t) (h' : Tells label t') : t = t' := by
  obtain ⟨d, days, hour, minute, second, hvalid, hday, -, -, -, rfl, hnames⟩ := h
  obtain ⟨d', days', hour', minute', second', hvalid', hday', -, -, -, rfl, hnames'⟩ := h'
  obtain ⟨rfl, rfl, rfl, rfl⟩ := hnames.unique hvalid hvalid' hnames'
  have hdays : days = days' := ((isDay_iff hvalid).mp hday).symm.trans ((isDay_iff hvalid).mp hday')
  rw [hdays]

end

/-! ## Asking for the label -/

/-- How it ends to ask for the label of a lease that runs out at `t`: the calendar does not reach that second, or
    it is told. -/
structure Labelled (t : Int64) (ended : Except Stop Answer) : Prop where
  refused : ended = .error (.fault (.timestampOutOfRange t)) ↔ t.toInt < -8334601228800 ∨ 8210266876799 < t.toInt
  told : -8334601228800 ≤ t.toInt ∧ t.toInt ≤ 8210266876799 →
    ∃ label, ended = .ok (.text? (some label)) ∧ Tells label t.toInt

theorem tells_expiryLabel {t : Int64} {label : String} (h : expiryLabel t = some label) : Tells label t.toInt := by
  obtain ⟨i, hi, rfl⟩ := Option.map_eq_some_iff.mp h
  unfold Instant.make? at hi
  split at hi
  · cases hi
    exact tells_label rfl
  · cases hi

theorem expiryLabel_isSome {t : Int64} :
    (expiryLabel t).isSome = true ↔ -8334601228800 ≤ t.toInt ∧ t.toInt ≤ 8210266876799 := by
  unfold expiryLabel Instant.make? earliestSecond latestSecond
  split
  · rename_i hin
    simpa using hin.1
  · rename_i hout
    simpa using hout

section

variable {s : Setting} {v : Visit} {h : Holdings} {t : Int64}

theorem expiryLabel_made (hh : s.held v = .ok (some h)) (ht : h.paidUntil? v.ledger.house = some t) :
    (Call.expiryLabel.made s v).1.answer = match expiryLabel t with
      | some label => .ok (.text? (some label))
      | none => .error (.fault (.timestampOutOfRange t)) := by
  obtain ⟨log, hpaid⟩ := Ledger.paidUntil_ok hh
  rw [Option.bind_some, ht] at hpaid
  cases hlabel : expiryLabel t <;> simp [Call.made, Call.run, Ledger.expiryLabel, hpaid, hlabel]

theorem labelled (hh : s.held v = .ok (some h)) (ht : h.paidUntil? v.ledger.house = some t) :
    Labelled t (Call.expiryLabel.made s v).1.answer := by
  have hrange := expiryLabel_isSome (t := t)
  rw [expiryLabel_made hh ht]
  cases hlabel : expiryLabel t with
  | some label =>
    rw [hlabel] at hrange
    have hin := hrange.mp rfl
    exact ⟨⟨nofun, fun hout => by omega⟩, fun _ => ⟨label, rfl, tells_expiryLabel hlabel⟩⟩
  | none =>
    rw [hlabel] at hrange
    have hout : ¬(-8334601228800 ≤ t.toInt ∧ t.toInt ≤ 8210266876799) := fun hin => nomatch hrange.mpr hin
    exact ⟨⟨fun _ => by omega, fun _ => rfl⟩, fun hin => absurd hin hout⟩

/-- Asked for its label, a lease names the second it runs out in, unless the calendar does not reach it. No two
    leases that end in different seconds, whosever they are, have the same label. -/
theorem labels_name_the_expiry (hh : s.held v = .ok (some h)) (ht : h.paidUntil? v.ledger.house = some t) :
    Labelled t (Call.expiryLabel.made s v).1.answer ∧
      ∀ {s' : Setting} {v' : Visit} {h' : Holdings} {t' : Int64} {label : String},
        s'.held v' = .ok (some h') → h'.paidUntil? v'.ledger.house = some t' →
        (Call.expiryLabel.made s v).1.answer = .ok (.text? (some label)) →
        (Call.expiryLabel.made s' v').1.answer = .ok (.text? (some label)) → t = t' := by
  refine ⟨labelled hh ht, fun hh' ht' hlabel hlabel' => ?_⟩
  rw [expiryLabel_made hh ht] at hlabel
  rw [expiryLabel_made hh' ht'] at hlabel'
  split at hlabel
  · rename_i text htext
    split at hlabel'
    · rename_i text' htext'
      cases hlabel
      cases hlabel'
      exact Int64.toInt_inj.mp ((tells_expiryLabel htext).unique (tells_expiryLabel htext'))
    · cases hlabel'
  · cases hlabel

end

/-- Ann's lease ran out in the last second of a leap day, four years before year 0. -/
theorem ann_reads_an_old_label :
    let v : Visit := { annAtGreyton with ledger.copy := .present ⟨[⟨"greyton", -62288265601⟩], none⟩ }
    (Call.expiryLabel.made (shippedWith {}) v).1.answer = .ok (.text? (some "29 February -0004 23:59:59 UTC")) ∧
      Labelled (-62288265601) (Call.expiryLabel.made (shippedWith {}) v).1.answer := by
  intro v
  exact ⟨by decide +kernel, (labels_name_the_expiry rfl rfl).1⟩

end HouseLease
