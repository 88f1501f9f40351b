/-
  HouseLease.Proofs.Toml.Lines — a written document is read back as its lines.

  Each value is read up to the end of its line: strings by `quoted?_write`, integers because the
  digits of a date or a float would go on with another mark (`number?_intText`). Keys are bare, so a
  key ends at the first character that cannot be in one (`path?_write`). A line is read as what it
  says (`statement?_write`), and then the document as what its lines say (`read?_writeLines`).
-/

import HouseLease.Proofs.Toml.Strings
import HouseLease.Toml.Layout
import HouseLease.Toml.Reader

namespace HouseLease.Toml

/-! ## Integers -/

section

variable {ds rest : List Char} {c : Char} {n k : Nat} {r : List Char}

theorem isDigit_ne {c d : Char} (hc : c.isDigit = true) (hd : d.isDigit = false) : c ≠ d := by
  rintro rfl
  rw [hc] at hd
  cases hd

/-- Behind digits that were counted off there are more of them, or the line ends. -/
theorem fixedDigits?_next (hds : ∀ c ∈ ds, c.isDigit = true) (h : fixedDigits? n (ds ++ '\n' :: rest) = some (k, r)) :
    ∃ c more, r = c :: more ∧ (c.isDigit = true ∨ c = '\n') := by
  unfold fixedDigits? at h
  split at h
  · rename_i hcounted
    obtain ⟨hlength, hall⟩ := hcounted
    cases h
    by_cases hle : n ≤ ds.length
    · rw [List.drop_append_of_le_length hle]
      cases hdrop : ds.drop n with
      | nil => exact ⟨'\n', rest, rfl, Or.inr rfl⟩
      | cons d more =>
        have hd : d ∈ ds := List.mem_of_mem_drop (hdrop ▸ List.mem_cons_self)
        exact ⟨d, more ++ '\n' :: rest, rfl, Or.inl (hds d hd)⟩
    · -- the end of the line would have been counted as a digit
      have hbreak : '\n' ∈ (ds ++ '\n' :: rest).take n := by
        rw [List.take_append]
        refine List.mem_append_right _ ?_
        obtain ⟨m, hm⟩ : ∃ m, n - ds.length = m + 1 := ⟨n - ds.length - 1, by omega⟩
        rw [hm, List.take_succ_cons]
        exact List.mem_cons_self
      exact absurd (List.all_eq_true.mp hall _ hbreak) (by decide)
  · cases h

theorem marked?_none {mark : Char} (hc : c.isDigit = true ∨ c = '\n') (hmark : mark.isDigit = false) (hn : mark ≠ '\n')
    (r : List Char) : marked? mark (c :: r) = none := by
  have hne : c ≠ mark := by
    rcases hc with hc | rfl
    · exact isDigit_ne hc hmark
    · exact hn.symm
  rw [marked?, if_neg hne]

/-- Digits alone are no date. -/
theorem date?_digits (hds : ∀ c ∈ ds, c.isDigit = true) (rest : List Char) : date? (ds ++ '\n' :: rest) = none := by
  have hday : day? (ds ++ '\n' :: rest) = none := by
    unfold day?
    cases h : fixedDigits? 4 (ds ++ '\n' :: rest) with
    | none => rfl
    | some p =>
      obtain ⟨c, more, hr, hc⟩ := fixedDigits?_next hds h
      simp [hr, marked?_none hc (by decide : '-'.isDigit = false) (by decide)]
  have htime : time? (ds ++ '\n' :: rest) = none := by
    unfold time?
    cases h : fixedDigits? 2 (ds ++ '\n' :: rest) with
    | none => rfl
    | some p =>
      obtain ⟨c, more, hr, hc⟩ := fixedDigits?_next hds h
      simp [hr, marked?_none hc (by decide : ':'.isDigit = false) (by decide)]
  simp [date?, hday, htime]

theorem date?_minus (cs : List Char) : date? ('-' :: cs) = none := by
  have hfixed : ∀ n, 0 < n → fixedDigits? n ('-' :: cs) = none := by
    intro n hn
    obtain ⟨m, rfl⟩ : ∃ m, n = m + 1 := ⟨n - 1, by omega⟩
    simp [fixedDigits?, List.take_succ_cons, (by decide : '-'.isDigit = false)]
  simp [date?, day?, time?, hfixed]

theorem moreDigits_append (hds : ∀ c ∈ ds, c.isDigit = true) (rest : List Char) :
    moreDigits Char.isDigit (ds ++ '\n' :: rest) = (ds, '\n' :: rest) := by
  induction ds with
  | nil => simp [moreDigits, (by decide : '\n'.isDigit = false)]
  | cons d ds ih =>
    obtain ⟨hd, hds⟩ := List.forall_mem_cons.mp hds
    rw [List.cons_append, moreDigits.eq_2 _ _ _ fun c r h _ => isDigit_ne hd (by decide) h, if_pos hd, ih hds]

/-- A number without needless noughts is read up to the end of its line. -/
theorem decimalRun?_digits (n : Nat) (rest : List Char) :
    decimalRun? (Text.digits n ++ '\n' :: rest) = some (Text.digits n, '\n' :: rest) := by
  cases hn : Text.digits n with
  | nil => exact absurd hn (Text.digits_ne_nil n)
  | cons d ds =>
    have hds : ∀ c ∈ d :: ds, c.isDigit = true := fun c hc => Text.isDigit_of_mem_digits (hn ▸ hc)
    obtain ⟨hd, htail⟩ := List.forall_mem_cons.mp hds
    by_cases hzero : d = '0'
    · subst hzero
      obtain ⟨-, rfl⟩ := Text.digits_head n hn
      rfl
    · rw [List.cons_append, decimalRun?.eq_2 _ fun r h => hzero (List.cons_eq_cons.mp h).1, digitRun?, if_pos hd,
        moreDigits_append htail]

end

section

variable {rest : List Char}

/-- The sign of a written number. -/
theorem sign_digits (n : Nat) (rest : List Char) :
    sign (Text.digits n ++ rest) = (false, Text.digits n ++ rest) := by
  cases hn : Text.digits n with
  | nil => exact absurd hn (Text.digits_ne_nil n)
  | cons d ds =>
    have hd : d.isDigit = true := Text.isDigit_of_mem_digits (hn ▸ List.mem_cons_self)
    rw [List.cons_append]
    unfold sign
    split
    · rename_i h
      exact absurd (List.cons_eq_cons.mp h).1 (isDigit_ne hd (by decide))
    · rename_i h
      exact absurd (List.cons_eq_cons.mp h).1 (isDigit_ne hd (by decide))
    · rfl

/-- No word begins with a digit. -/
theorem word?_digit {w : String} {c d : Char} {ws : List Char} (hw : w.toList = c :: ws) (hc : c.isDigit = false)
    (hd : d.isDigit = true) (r : List Char) : word? w (d :: r) = none := by
  rw [word?, hw]
  show (if c == d then ws.isPrefixOf? r else none) = none
  rw [if_neg]
  simpa using (isDigit_ne hd hc).symm

theorem special?_digits (n : Nat) (rest : List Char) : special? (Text.digits n ++ rest) = none := by
  cases hn : Text.digits n with
  | nil => exact absurd hn (Text.digits_ne_nil n)
  | cons d ds =>
    have hd : d.isDigit = true := Text.isDigit_of_mem_digits (hn ▸ List.mem_cons_self)
    have hinf : word? "inf" (d :: (ds ++ rest)) = none := word?_digit rfl (by decide) hd _
    have hnan : word? "nan" (d :: (ds ++ rest)) = none := word?_digit rfl (by decide) hd _
    simp [special?, hinf, hnan]

/-- The number of a text with these digits behind its sign, there being neither fraction nor exponent. -/
theorem read_digits {cs : List Char} {negative : Bool} {n : Nat} {i : Int64}
    (hsign : sign cs = (negative, Text.digits n ++ '\n' :: rest)) (hi : i.toInt = signed negative n) :
    float? cs = none ∧ decimal? cs = some (.integer i, '\n' :: rest) := by
  constructor
  · simp [float?, finite?, hsign, decimalRun?_digits, fraction?, exponent?, special?_digits]
  · simp [decimal?, hsign, decimalRun?_digits, Text.ofDigits_digits, int64?_eq_some.mpr hi]

/-- A nought in front is all there is of a number. -/
theorem next_of_nought {n : Nat} {c : Char} {r : List Char} (h : Text.digits n ++ '\n' :: rest = '0' :: c :: r) :
    c = '\n' := by
  cases hn : Text.digits n with
  | nil => exact absurd hn (Text.digits_ne_nil n)
  | cons d ds =>
    rw [hn, List.cons_append] at h
    obtain ⟨rfl, hnext⟩ := List.cons_eq_cons.mp h
    obtain ⟨-, rfl⟩ := Text.digits_head n hn
    exact (List.cons_eq_cons.mp hnext).1.symm

/-- A written integer is read back. -/
theorem number?_intText (i : Int64) (rest : List Char) :
    number? (Text.intText i.toInt ++ '\n' :: rest) = some (.integer i, '\n' :: rest) := by
  rcases Text.intText_cases i.toInt with ⟨n, hi, htext⟩ | ⟨n, hi, -, htext⟩
  · rw [htext]
    obtain ⟨hfloat, hdecimal⟩ := read_digits (sign_digits n ('\n' :: rest)) hi
    have hinteger : integer? (Text.digits n ++ '\n' :: rest) = decimal? (Text.digits n ++ '\n' :: rest) := by
      rw [integer?]
      all_goals exact fun r h => absurd (next_of_nought h) (by decide)
    rw [number?, date?_digits (fun c hc => Text.isDigit_of_mem_digits hc), hfloat, hinteger, hdecimal]
    rfl
  · rw [htext]
    have hsign : sign ('-' :: (Text.digits n ++ '\n' :: rest)) = (true, Text.digits n ++ '\n' :: rest) := rfl
    obtain ⟨hfloat, hdecimal⟩ := read_digits hsign hi
    rw [List.cons_append, number?, date?_minus, hfloat, integer?, hdecimal]
    · rfl
    all_goals exact fun r h => absurd (List.cons_eq_cons.mp h).1 (by decide)

end

/-! ## Values -/

section

variable {rest : List Char}

/-- A text goes on with a character that is neither a blank nor the end of its line. -/
def Starts (cs : List Char) : Prop := ∃ c r, cs = c :: r ∧ isGap c = false ∧ c ≠ '#' ∧ c ≠ '\n' ∧ c ≠ '\r'

theorem skipGap_starts {cs : List Char} (h : Starts cs) : skipGap cs = cs := by
  obtain ⟨c, r, rfl, hgap, -⟩ := h
  exact skipGap_cons hgap r

theorem value?_text (depth : Nat) (s : String) (rest : List Char) :
    Starts (stringText s ++ '\n' :: rest) ∧
      value? depth (stringText s ++ '\n' :: rest) = some (.text s, '\n' :: rest) := by
  obtain ⟨quote, r, hr, hquote, hread⟩ := quoted?_write s rest
  rw [hr]
  refine ⟨⟨quote, r, rfl, ?_⟩, ?_⟩
  · rcases hquote with rfl | rfl <;> decide
  · rw [value?.eq_def]
    simp only
    rw [if_pos hquote, hread]
    rfl

theorem value?_integer (depth : Nat) (i : Int64) (rest : List Char) :
    Starts (Text.intText i.toInt ++ '\n' :: rest) ∧
      value? depth (Text.intText i.toInt ++ '\n' :: rest) = some (.integer i, '\n' :: rest) := by
  have hread := number?_intText i rest
  have hhead : ∃ c r, Text.intText i.toInt ++ '\n' :: rest = c :: r ∧ (c.isDigit = true ∨ c = '-') := by
    rcases Text.intText_cases i.toInt with ⟨n, -, htext⟩ | ⟨n, -, -, htext⟩
    · rw [htext]
      cases hn : Text.digits n with
      | nil => exact absurd hn (Text.digits_ne_nil n)
      | cons d ds => exact ⟨d, _, rfl, Or.inl (Text.isDigit_of_mem_digits (hn ▸ List.mem_cons_self))⟩
    · exact ⟨'-', _, by rw [htext]; rfl, Or.inr rfl⟩
  obtain ⟨c, r, hr, hc⟩ := hhead
  have hne : ∀ d : Char, d.isDigit = false → d ≠ '-' → c ≠ d := by
    intro d hd hminus
    rcases hc with hc | rfl
    · exact isDigit_ne hc hd
    · exact hminus.symm
  rw [hr] at hread ⊢
  constructor
  · refine ⟨c, r, rfl, ?_, hne _ (by decide) (by decide), hne _ (by decide) (by decide), hne _ (by decide) (by decide)⟩
    simp [isGap, hne ' ' (by decide) (by decide), hne '\t' (by decide) (by decide)]
  · have hnumber : c.isDigit = true ∨ c = '+' ∨ c = '-' := hc.imp_right Or.inr
    rw [value?.eq_def]
    simp only
    rw [if_neg (not_or.mpr ⟨hne _ (by decide) (by decide), hne _ (by decide) (by decide)⟩),
      if_neg (hne _ (by decide) (by decide)), if_neg (hne _ (by decide) (by decide)), if_pos hnumber, hread]

theorem value?_empty (depth : Nat) (rest : List Char) :
    value? (depth + 1) ('[' :: ']' :: '\n' :: rest) = some (.array [], '\n' :: rest) := by
  rw [value?.eq_def]
  simp only [Char.reduceEq, or_self, if_false, if_true]
  rw [items?.eq_def]
  simp [skipItems, isGap]

/-! ## Keys -/

/-- A key that is written as it is. -/
def isBareKey (key : String) : Bool := !key.toList.isEmpty && key.toList.all isBare

def Path.isBare (p : Path) : Bool := (p.parents ++ [p.key]).all isBareKey && p.parents.length + 1 < nestingLimit

theorem isBareKey_iff {key : String} :
    isBareKey key = true ↔ (∃ c r, key.toList = c :: r) ∧ ∀ c ∈ key.toList, isBare c = true := by
  unfold isBareKey
  cases key.toList <;> simp

theorem isBare_ne {c d : Char} (hc : isBare c = true) (hd : isBare d = false) : c ≠ d := by
  rintro rfl
  rw [hc] at hd
  cases hd

theorem starts_of_isBare {c : Char} (hc : isBare c = true) (cs : List Char) : Starts (c :: cs) := by
  refine ⟨c, cs, rfl, ?_, isBare_ne hc (by decide), isBare_ne hc (by decide), isBare_ne hc (by decide)⟩
  simp [isGap, isBare_ne hc (by decide : isBare ' ' = false), isBare_ne hc (by decide : isBare '\t' = false)]

theorem starts_of_bare {key : String} (hk : isBareKey key = true) (cs : List Char) : Starts (key.toList ++ cs) := by
  obtain ⟨⟨c, r, hkey⟩, hbare⟩ := isBareKey_iff.mp hk
  rw [hkey]
  exact starts_of_isBare (hbare c (hkey ▸ List.mem_cons_self)) (r ++ cs)

/-- A bare key ends at the first character that cannot be in one. -/
theorem key?_write {key : String} {c : Char} (hk : isBareKey key = true) (hc : isBare c = false) (r : List Char) :
    key? (key.toList ++ c :: r) = some (key, c :: r) := by
  obtain ⟨⟨d, ds, hkey⟩, hbare⟩ := isBareKey_iff.mp hk
  have hd : isBare d = true := hbare d (hkey ▸ List.mem_cons_self)
  have htake : (key.toList ++ c :: r).takeWhile isBare = key.toList := by
    rw [List.takeWhile_append_of_pos hbare, List.takeWhile_cons_of_neg (by simp [hc]), List.append_nil]
  have hdrop : (key.toList ++ c :: r).dropWhile isBare = c :: r := by
    rw [List.dropWhile_append_of_pos hbare, List.dropWhile_cons_of_neg (by simp [hc])]
  unfold key?
  split
  · rename_i h
    rw [hkey] at h
    exact absurd (List.cons_eq_cons.mp h).1 (isBare_ne hd (by decide))
  · rename_i h
    rw [hkey] at h
    exact absurd (List.cons_eq_cons.mp h).1 (isBare_ne hd (by decide))
  · rw [htake, hdrop, String.ofList_toList, hkey]
    rfl

/-- The keys of a path, up to what follows them. -/
theorem keys?_write {key : String} {c : Char} {r : List Char} (hkey : isBareKey key = true) (hc : isBare c = false)
    (hdot : ∀ more, skipGap (c :: r) ≠ '.' :: more) :
    ∀ parents : List String, (∀ k ∈ parents, isBareKey k = true) →
      keys? ((⟨parents, key⟩ : Path).write ++ c :: r) = some (parents ++ [key], skipGap (c :: r)) := by
  intro parents hparents
  induction parents with
  | nil =>
    rw [Path.write, List.flatMap_nil, List.nil_append, keys?, skipGap_starts (starts_of_bare hkey _),
      key?_write hkey hc]
    simp only [Option.bind_eq_bind, Option.bind_some]
    rfl
  | cons p ps ih =>
    obtain ⟨hp, hps⟩ := List.forall_mem_cons.mp hparents
    have hwrite : (⟨p :: ps, key⟩ : Path).write ++ c :: r
        = p.toList ++ '.' :: ((⟨ps, key⟩ : Path).write ++ c :: r) := by
      simp [Path.write]
    rw [hwrite, keys?, skipGap_starts (starts_of_bare hp _), key?_write hp (by decide)]
    simp only [Option.bind_eq_bind, Option.bind_some, skipGap_cons (by decide : isGap '.' = false)]
    rw [if_pos (by simp; omega), ih hps]
    rfl

theorem Path.isBare_iff {p : Path} : p.isBare = true ↔
    (∀ k ∈ p.parents, isBareKey k = true) ∧ isBareKey p.key = true ∧ p.parents.length + 1 < nestingLimit := by
  simp [Path.isBare, and_assoc]

theorem path?_write {p : Path} {c : Char} {r : List Char} (hp : p.isBare = true) (hc : isBare c = false)
    (hdot : ∀ more, skipGap (c :: r) ≠ '.' :: more) : path? (p.write ++ c :: r) = some (p, skipGap (c :: r)) := by
  obtain ⟨hparents, hkey, hlength⟩ := Path.isBare_iff.mp hp
  obtain ⟨parents, key⟩ := p
  rw [path?, keys?_write hkey hc hdot parents hparents]
  simp [hlength]

end

/-! ## Lines -/

def Line.isBare : Line → Bool
  | .text key _ | .number key _ | .emptyArray key => isBareKey key
  | .header path | .arrayHeader path => path.isBare

section

variable {rest : List Char}

theorem isBare_of {key : String} (hk : isBareKey key = true) : (Path.of key).isBare = true := by
  simp [Path.isBare, Path.of, hk, nestingLimit]

/-- An assignment is read if its value is. -/
theorem statement?_assignment {key : String} {text : List Char} {value : Value} (hk : isBareKey key = true)
    (hstarts : Starts (text ++ '\n' :: rest))
    (hvalue : value? (nestingLimit - 1) (text ++ '\n' :: rest) = some (value, '\n' :: rest)) :
    statement? (Line.assignment key text ++ '\n' :: rest) = some (.assign (.of key) value, '\n' :: rest) := by
  have hwrite : Line.assignment key text ++ '\n' :: rest
      = (Path.of key).write ++ ' ' :: '=' :: ' ' :: (text ++ '\n' :: rest) := by
    simp [Line.assignment, Path.write, Path.of]
  have hequals : ∀ cs, skipGap (' ' :: '=' :: cs) = '=' :: cs := by
    intro cs
    simp [skipGap, isGap]
  have hspace : skipGap (' ' :: (text ++ '\n' :: rest)) = text ++ '\n' :: rest := by
    have h := skipGap_starts hstarts
    unfold skipGap at h ⊢
    rw [List.dropWhile_cons_of_pos (by decide), h]
  have hpath := path?_write (isBare_of hk) (by decide : isBare ' ' = false)
    (r := '=' :: ' ' :: (text ++ '\n' :: rest)) (by rw [hequals]; exact nofun)
  rw [hequals] at hpath
  obtain ⟨c, r, hkey⟩ := (isBareKey_iff.mp hk).1
  have hbracket : c ≠ '[' := isBare_ne ((isBareKey_iff.mp hk).2 c (hkey ▸ List.mem_cons_self)) (by decide)
  have hassignment : statement? (Line.assignment key text ++ '\n' :: rest)
      = assignment? (Line.assignment key text ++ '\n' :: rest) := by
    rw [statement?]
    · rintro cs h
      rw [Line.assignment, hkey] at h
      exact hbracket (List.cons_eq_cons.mp h).1
    · rintro cs h
      rw [Line.assignment, hkey] at h
      exact hbracket (List.cons_eq_cons.mp h).1
  rw [hassignment, hwrite, assignment?, hpath]
  simp only [Option.bind_eq_bind, Option.bind_some, hspace, hvalue]

/-- The end of a header's path. -/
theorem path?_header {p : Path} (hp : p.isBare = true) (r : List Char) :
    path? (p.write ++ ']' :: r) = some (p, ']' :: r) := by
  have hbracket : skipGap (']' :: r) = ']' :: r := skipGap_cons (by decide) r
  have h := path?_write (r := r) hp (by decide : isBare ']' = false) (by rw [hbracket]; exact nofun)
  rwa [hbracket] at h

theorem write_head {p : Path} (hp : p.isBare = true) : ∃ c r, p.write = c :: r ∧ isBare c = true := by
  obtain ⟨hparents, hkey, -⟩ := Path.isBare_iff.mp hp
  obtain ⟨parents, key⟩ := p
  have hfirst : ∀ k, isBareKey k = true → ∀ cs, ∃ c r, k.toList ++ cs = c :: r ∧ isBare c = true := by
    intro k hk cs
    obtain ⟨⟨c, r, hkey⟩, hbare⟩ := isBareKey_iff.mp hk
    exact ⟨c, r ++ cs, by rw [hkey]; rfl, hbare c (hkey ▸ List.mem_cons_self)⟩
  cases parents with
  | nil => simpa [Path.write] using hfirst key hkey []
  | cons k ks =>
    simpa [Path.write] using hfirst k (hparents k List.mem_cons_self)
      ('.' :: (ks.flatMap (fun k => k.toList ++ ['.']) ++ key.toList))

/-- A written line is read as what it says. -/
theorem statement?_write {l : Line} (hl : l.isBare = true) (rest : List Char) :
    statement? (l.write ++ '\n' :: rest) = some (l.statement, '\n' :: rest) := by
  cases l with
  | text key value =>
    obtain ⟨hstarts, hvalue⟩ := value?_text (nestingLimit - 1) value rest
    exact statement?_assignment hl hstarts hvalue
  | number key value =>
    obtain ⟨hstarts, hvalue⟩ := value?_integer (nestingLimit - 1) value rest
    exact statement?_assignment hl hstarts hvalue
  | emptyArray key =>
    exact statement?_assignment hl ⟨'[', ']' :: '\n' :: rest, rfl, by decide⟩ (value?_empty 78 rest)
  | header path =>
    obtain ⟨c, r, hpath, hc⟩ := write_head hl
    have hwrite : Line.write (.header path) ++ '\n' :: rest = '[' :: (path.write ++ ']' :: '\n' :: rest) := by
      simp [Line.write]
    rw [hwrite, statement?, path?_header hl]
    · rfl
    · intro cs h
      rw [hpath] at h
      exact isBare_ne hc (by decide) (List.cons_eq_cons.mp h).1
  | arrayHeader path =>
    have hwrite : Line.write (.arrayHeader path) ++ '\n' :: rest
        = '[' :: '[' :: (path.write ++ ']' :: ']' :: '\n' :: rest) := by
      simp [Line.write]
    rw [hwrite, statement?, path?_header hl]
    rfl

/-- A line begins with its key or with a bracket. -/
theorem write_first {l : Line} (hl : l.isBare = true) : ∃ c r, l.write = c :: r ∧ (isBare c = true ∨ c = '[') := by
  have hassignment : ∀ key text, isBareKey key = true →
      ∃ c r, Line.assignment key text = c :: r ∧ (isBare c = true ∨ c = '[') := by
    intro key text hkey
    obtain ⟨⟨c, r, hcs⟩, hbare⟩ := isBareKey_iff.mp hkey
    have hc : isBare c = true := hbare c (hcs ▸ List.mem_cons_self)
    exact ⟨c, r ++ [' ', '=', ' '] ++ text, by rw [Line.assignment, hcs]; rfl, Or.inl hc⟩
  cases l with
  | text key value => exact hassignment key _ hl
  | number key value => exact hassignment key _ hl
  | emptyArray key => exact hassignment key _ hl
  | header path => exact ⟨'[', _, rfl, Or.inr rfl⟩
  | arrayHeader path => exact ⟨'[', _, rfl, Or.inr rfl⟩

theorem starts_write {l : Line} (hl : l.isBare = true) (cs : List Char) : Starts (l.write ++ cs) := by
  obtain ⟨c, r, hwrite, hc | rfl⟩ := write_first hl
  · rw [hwrite]
    exact starts_of_isBare hc _
  · rw [hwrite]
    exact ⟨'[', r ++ cs, rfl, by decide⟩

/-! ## Documents -/

theorem lineEnd?_break (rest : List Char) : lineEnd? ('\n' :: rest) = some rest := by
  simp [lineEnd?, skipGap, isGap, lineBreak?]

theorem statements?_line {l : Line} (hl : l.isBare = true) (rest : List Char) :
    statements? (l.write ++ '\n' :: rest) = (statements? rest).map (l.statement :: ·) := by
  have hread := statement?_write hl rest
  have hstarts := starts_write hl ('\n' :: rest)
  have hgap := skipGap_starts hstarts
  obtain ⟨c, r, hwrite, -, hcomment, hn, hr⟩ := hstarts
  have hlength : rest.length < (c :: r).length := by
    rw [← hwrite]
    simp
    omega
  rw [hwrite] at hread hgap ⊢
  rw [statements?.eq_def]
  simp only [hgap]
  rw [if_neg (by simp [hcomment, hn, hr]), hread]
  simp only [Option.bind_eq_bind, Option.bind_some, lineEnd?_break]
  rw [if_pos hlength]

theorem statements?_blank (rest : List Char) : statements? ('\n' :: rest) = statements? rest := by
  have hgap : skipGap ('\n' :: rest) = '\n' :: rest := skipGap_cons (by decide) rest
  rw [statements?.eq_def]
  simp [hgap, lineEnd?_break]

theorem statements?_writeNext {l : Line} (hl : l.isBare = true) (rest : List Char) :
    statements? (l.writeNext ++ rest) = (statements? rest).map (l.statement :: ·) := by
  unfold Line.writeNext
  by_cases hheader : l.isHeader = true
  · rw [if_pos hheader]
    simpa [statements?_blank] using statements?_line hl rest
  · rw [if_neg hheader]
    simpa using statements?_line hl rest

/-- A written document says what its lines say. -/
theorem statements?_writeLines {lines : List Line} (hlines : ∀ l ∈ lines, l.isBare = true) :
    statements? (writeLines lines) = some (lines.map Line.statement) := by
  cases lines with
  | nil => rw [writeLines, statements?.eq_def]; rfl
  | cons first lines =>
    obtain ⟨hfirst, hrest⟩ := List.forall_mem_cons.mp hlines
    rw [writeLines, statements?_line hfirst]
    suffices hread : statements? (lines.flatMap Line.writeNext) = some (lines.map Line.statement) by
      rw [hread]
      rfl
    clear hlines
    induction lines with
    | nil => rw [List.flatMap_nil, statements?.eq_def]; rfl
    | cons l lines ih =>
      obtain ⟨hl, hrest⟩ := List.forall_mem_cons.mp hrest
      rw [List.flatMap_cons, statements?_writeNext hl, ih hrest]
      rfl

/-- No byte order mark is taken off a written document. -/
theorem dropMark_writeLines {lines : List Line} (hlines : ∀ l ∈ lines, l.isBare = true) :
    dropMark (writeLines lines) = writeLines lines := by
  cases lines with
  | nil => rfl
  | cons first lines =>
    obtain ⟨c, r, hwrite, hc⟩ := write_first (hlines first List.mem_cons_self)
    have hne : c ≠ '\uFEFF' := by
      rintro rfl
      revert hc
      decide
    rw [writeLines, hwrite, List.cons_append, dropMark]
    exact fun r h => hne (List.cons_eq_cons.mp h).1

/-- A written document is read as the tables its lines make. -/
theorem read?_writeLines {lines : List Line} (hlines : ∀ l ∈ lines, l.isBare = true) :
    read? (String.ofList (writeLines lines)) = (document? (lines.map Line.statement)).map (.table .header) := by
  rw [read?, String.toList_ofList, dropMark_writeLines hlines, statements?_writeLines hlines, Option.bind_some]

end

end HouseLease.Toml
