/-
  HouseLease.Proofs.Toml.Strings — a written string is read back, in each of its four forms.

  `Form.of` picks a form that suits the text (`Form.of_suits`): a literal string has no escapes, so
  it is picked for plain characters only, and for texts that its closing marks can be told from. In
  a string on several lines at most two quotation marks stand together before the text goes on, and
  up to five where it ends (`body?_marks`, `body?_closing`). Any form that suits is read back, whatever
  follows the closing marks on the line (`quoted?_write`).
-/

import HouseLease.Proofs.Text.Numerals
import HouseLease.Toml.Text

namespace HouseLease.Toml

/-! ## Runs of quotation marks -/

section

variable {quote c : Char} {run : Nat} {cs : List Char}

theorem go_eq_max (quote : Char) (run longest : Nat) (cs : List Char) :
    longestRun.go quote run longest cs = max longest (longestRun.go quote run 0 cs) := by
  induction cs generalizing run longest with
  | nil => simp [longestRun.go, Nat.max_comm]
  | cons c r ih =>
    unfold longestRun.go
    by_cases hc : c = quote
    · rw [if_pos hc, if_pos hc]
      exact ih _ _
    · rw [if_neg hc, if_neg hc, ih, ih 0 (max run 0)]
      omega

theorem go_quote (quote : Char) (run : Nat) (r : List Char) :
    longestRun.go quote run 0 (quote :: r) = longestRun.go quote (run + 1) 0 r := by
  rw [longestRun.go, if_pos rfl]

theorem go_other (hc : c ≠ quote) (run : Nat) (r : List Char) :
    longestRun.go quote run 0 (c :: r) = max run (longestRun.go quote 0 0 r) := by
  rw [longestRun.go, if_neg hc, go_eq_max, Nat.max_zero]

theorem go_eq_zero : longestRun.go quote run 0 cs = 0 ↔ run = 0 ∧ quote ∉ cs := by
  induction cs generalizing run with
  | nil => simp [longestRun.go]
  | cons c r ih =>
    by_cases hc : c = quote
    · subst hc
      simp [go_quote, ih]
    · have hmax : ∀ k, max run k = 0 ↔ run = 0 ∧ k = 0 := by omega
      simp [go_other hc, hmax, ih, Ne.symm hc]

theorem longestRun_eq_zero : longestRun quote cs = 0 ↔ quote ∉ cs := by
  rw [longestRun, go_eq_zero]
  exact and_iff_right rfl

end

/-! ## Escapes -/

/-- The four digits after the `u`, as they are written for a control character. -/
theorem ofHex?_control : ∀ n < 0x80,
    Text.ofHex? ['0', '0', Nat.digitChar (n / 16), (Nat.digitChar (n % 16)).toUpper] = some n := by
  decide +kernel

theorem control_lt {c : Char} (h : isPlain c = false) : c.toNat < 0x80 := by
  simp only [isPlain, Bool.or_eq_false_iff, Bool.and_eq_false_iff, decide_eq_false_iff_not, bne_eq_false_iff_eq] at h
  omega

theorem escape?_control {c : Char} (h : isPlain c = false) (rest : List Char) :
    escape? ('u' :: '0' :: '0' :: Nat.digitChar (c.toNat / 16) :: (Nat.digitChar (c.toNat % 16)).toUpper :: rest)
      = some (c, rest) := by
  have hhex := ofHex?_control c.toNat (control_lt h)
  have htake : Text.takeHex? 4 ('0' :: '0' :: Nat.digitChar (c.toNat / 16) ::
      (Nat.digitChar (c.toNat % 16)).toUpper :: rest) = some (c.toNat, rest) := by
    simp [Text.takeHex?, hhex]
  simp [escape?, htake, Text.scalar?_toNat]

theorem skipGap_cons {c : Char} (hc : isGap c = false) (r : List Char) : skipGap (c :: r) = c :: r :=
  List.dropWhile_cons_of_neg (by simp [hc])

/-- What comes behind the backslash of an escape hides no line break. -/
theorem hiddenBreak?_none {e : Char} (he : isGap e = false) (hn : e ≠ '\n') (hr : e ≠ '\r') (r : List Char) :
    hiddenBreak? (e :: r) = none := by
  unfold hiddenBreak? lineBreak?
  rw [skipGap_cons he]
  split
  · rename_i h
    exact absurd (List.cons_eq_cons.mp h).1 hn
  · rename_i h
    exact absurd (List.cons_eq_cons.mp h).1 hr
  · rfl

/-- Reading past one escape. -/
theorem body?_escape {lines : Bool} {e c : Char} {r rest : List Char} (hgap : isGap e = false) (hn : e ≠ '\n')
    (hr : e ≠ '\r') (he : escape? (e :: r) = some (c, rest)) :
    body? '"' lines ('\\' :: e :: r) = (body? '"' lines rest).map fun (s, r) => (c :: s, r) := by
  have hhidden : (if lines then hiddenBreak? (e :: r) else none) = none := by
    rw [hiddenBreak?_none hgap hn hr, ite_self]
  rw [body?.eq_def]
  simp only [Char.reduceEq, if_false, and_self, if_true]
  split
  · rename_i h
    rw [hhidden] at h
    cases h
  · split
    · rename_i h
      rw [he] at h
      cases h
      rfl
    · rename_i h
      rw [he] at h
      cases h

/-- Reading past a character that stands for itself. -/
theorem body?_plain {quote c : Char} {lines : Bool} (hquote : c ≠ quote) (hback : ¬(c = '\\' ∧ quote = '"'))
    (hplain : isPlain c = true) (r : List Char) :
    body? quote lines (c :: r) = (body? quote lines r).map fun (s, rest) => (c :: s, rest) := by
  have hn : c ≠ '\n' := by
    rintro rfl
    cases hplain
  have hr : c ≠ '\r' := by
    rintro rfl
    cases hplain
  rw [body?.eq_def]
  simp [hquote, hback, hn, hr, hplain]

/-- Reading past one written character. -/
theorem body?_escapeChar (lines : Bool) (c : Char) (rest : List Char) :
    body? '"' lines (escapeChar c ++ rest) = (body? '"' lines rest).map fun (s, r) => (c :: s, r) := by
  unfold escapeChar
  repeat' split
  all_goals try
    subst c
    exact body?_escape (by decide) (by decide) (by decide) (by simp [escape?])
  · rename_i hquote hback _ _ _ _ _ hplain
    exact body?_plain hquote (fun h => hback h.1) hplain rest
  · rename_i hplain
    exact body?_escape (by decide) (by decide) (by decide) (escape?_control (by simpa using hplain) rest)

/-- No written character begins like the end of a string or of a line. -/
theorem escapeChar_head (c : Char) :
    ∃ d more, escapeChar c = d :: more ∧ d ≠ '"' ∧ d ≠ '\n' ∧ d ≠ '\r' := by
  unfold escapeChar
  repeat' split
  all_goals try exact ⟨_, _, rfl, by decide, by decide, by decide⟩
  rename_i hquote _ _ _ hn _ hr _
  exact ⟨c, [], rfl, hquote, hn, hr⟩

/-! ## Closing marks -/

section

variable {quote d : Char} {run : Nat} {rest : List Char}

theorem quoteRun_marks (hrun : run ≤ 5) (hrest : rest.head? ≠ some quote) :
    quoteRun quote (List.replicate run quote ++ rest) = run := by
  have hend : ((rest.take (5 - run)).takeWhile (· = quote)) = [] := by
    cases rest with
    | nil => simp
    | cons c r =>
      have hc : c ≠ quote := by simpa using hrest
      cases 5 - run with
      | zero => rfl
      | succ k => simp [hc]
  rw [quoteRun, List.take_append, List.take_of_length_le (by simpa using hrun), List.takeWhile_append_of_pos (by simp),
    List.length_replicate, hend]
  simp

theorem head?_cons_ne (hd : d ≠ quote) (r : List Char) : (d :: r).head? ≠ some quote := by
  simpa using hd

/-- Two quotation marks do not close a string on several lines. -/
theorem body?_marks (hrun : run ≤ 2) (hd : d ≠ quote) (r : List Char) :
    body? quote true (List.replicate run quote ++ d :: r)
      = (body? quote true (d :: r)).map fun (s, rest) => (List.replicate run quote ++ s, rest) := by
  induction run with
  | zero => simp
  | succ run ih =>
    have hmarks : quoteRun quote (quote :: (List.replicate run quote ++ d :: r)) = run + 1 :=
      @quoteRun_marks quote (run + 1) (d :: r) (by omega) (head?_cons_ne hd r)
    rw [List.replicate_succ, List.cons_append, body?.eq_def]
    simp only [if_true, Bool.not_true, Bool.false_eq_true, if_false, hmarks, if_neg (show ¬ 3 ≤ run + 1 by omega)]
    rw [ih (by omega), Option.map_map]
    rfl

/-- Of more than three the last three do. -/
theorem body?_closing (hrun : run ≤ 2) (hrest : rest.head? ≠ some quote) :
    body? quote true (List.replicate run quote ++ (tripled quote ++ rest)) = some (List.replicate run quote, rest) := by
  have hall : List.replicate run quote ++ (tripled quote ++ rest) = List.replicate (run + 3) quote ++ rest := by
    rw [← List.replicate_append_replicate, List.append_assoc]
    rfl
  have hmarks : quoteRun quote (List.replicate (run + 3) quote ++ rest) = run + 3 := quoteRun_marks (by omega) hrest
  rw [hall]
  rw [List.replicate_succ, List.cons_append] at hmarks ⊢
  rw [body?.eq_def]
  simp only [if_true, Bool.not_true, Bool.false_eq_true, if_false, hmarks, if_pos (show 3 ≤ run + 3 by omega)]
  simp

theorem body?_break (hquote : quote ≠ '\n') (r : List Char) :
    body? quote true ('\n' :: r) = (body? quote true r).map fun (s, rest) => ('\n' :: s, rest) := by
  rw [body?.eq_def]
  simp [Ne.symm hquote]

end

/-! ## The four forms -/

section

variable {run : Nat} {cs rest : List Char}

theorem body?_basic (cs rest : List Char) :
    body? '"' false (cs.flatMap escapeChar ++ '"' :: rest) = some (cs, rest) := by
  induction cs with
  | nil => simp [body?.eq_def]
  | cons c cs ih =>
    rw [List.flatMap_cons, List.append_assoc, body?_escapeChar, ih]
    rfl

theorem body?_literal (hplain : ∀ c ∈ cs, c ≠ '\'' ∧ isPlain c = true) (rest : List Char) :
    body? '\'' false (cs ++ '\'' :: rest) = some (cs, rest) := by
  induction cs with
  | nil => simp [body?.eq_def]
  | cons c cs ih =>
    obtain ⟨hc, hcs⟩ := List.forall_mem_cons.mp hplain
    rw [List.cons_append, body?_plain hc.1 (by simp) hc.2, ih hcs]
    rfl

/-- The text as it is written after `run` marks of its own. -/
theorem body?_escapeLines (hrun : run ≤ 2) (hrest : rest.head? ≠ some '"') (cs : List Char) :
    body? '"' true (List.replicate run '"' ++ (escapeLines run cs ++ (tripled '"' ++ rest)))
      = some (List.replicate run '"' ++ cs, rest) := by
  fun_induction escapeLines run cs with
  | case1 run => simpa using body?_closing hrun hrest
  | case2 run r hless ih =>
    have ih := ih (by omega)
    rw [List.replicate_succ', List.append_assoc, List.append_assoc] at ih
    exact ih
  | case3 run r hmany ih =>
    have hquote : body? '"' true ('\\' :: '"' :: (escapeLines 0 r ++ (tripled '"' ++ rest))) = some ('"' :: r, rest) := by
      have hescape (r : List Char) : escape? ('"' :: r) = some ('"', r) := by simp [escape?]
      rw [body?_escape (by decide) (by decide) (by decide) (hescape _)]
      simpa using ih
    rw [List.cons_append, List.cons_append, body?_marks hrun (by decide), hquote]
    rfl
  | case4 run r ih =>
    have hbreak : body? '"' true ('\n' :: (escapeLines 0 r ++ (tripled '"' ++ rest))) = some ('\n' :: r, rest) := by
      rw [body?_break (by decide)]
      simpa using ih
    rw [List.cons_append, body?_marks hrun (by decide), hbreak]
    rfl
  | case5 run c r _ _ ih =>
    obtain ⟨d, more, hc, hd, -⟩ := escapeChar_head c
    have hchar : body? '"' true (escapeChar c ++ (escapeLines 0 r ++ (tripled '"' ++ rest))) = some (c :: r, rest) := by
      rw [body?_escapeChar]
      simpa using ih
    rw [List.append_assoc]
    rw [hc, List.cons_append] at hchar ⊢
    rw [body?_marks hrun hd, hchar]
    rfl

/-- The text itself after `run` marks. -/
theorem body?_literalLines (hplain : ∀ c ∈ cs, isPlain c = true ∨ c = '\n') (hruns : longestRun.go '\'' run 0 cs ≤ 2)
    (hrest : rest.head? ≠ some '\'') :
    body? '\'' true (List.replicate run '\'' ++ (cs ++ (tripled '\'' ++ rest)))
      = some (List.replicate run '\'' ++ cs, rest) := by
  induction cs generalizing run with
  | nil =>
    rw [longestRun.go, Nat.max_zero] at hruns
    simpa using body?_closing hruns hrest
  | cons c cs ih =>
    obtain ⟨hc, hcs⟩ := List.forall_mem_cons.mp hplain
    by_cases hquote : c = '\''
    · subst hquote
      rw [go_quote] at hruns
      have ih := ih hcs hruns
      rw [List.replicate_succ', List.append_assoc, List.append_assoc] at ih
      exact ih
    · rw [go_other hquote] at hruns
      have ih : body? '\'' true (cs ++ (tripled '\'' ++ rest)) = some (cs, rest) := @ih 0 hcs (by omega)
      have hone : body? '\'' true (c :: (cs ++ (tripled '\'' ++ rest))) = some (c :: cs, rest) := by
        rcases hc with hc | rfl
        · rw [body?_plain hquote (by simp) hc, ih]
          rfl
        · rw [body?_break (by decide), ih]
          rfl
      rw [List.cons_append, body?_marks (by omega) hquote, hone]
      rfl

end

/-- What a text has to be like to be written in a form. -/
def Form.Suits (cs : List Char) : Form → Prop
  | .basic | .basicLines => True
  | .literal => ∀ c ∈ cs, c ≠ '\'' ∧ isPlain c = true
  | .literalLines => longestRun '\'' cs ≤ 2 ∧ ∀ c ∈ cs, isPlain c = true ∨ c = '\n'

theorem plain_of_not_needsEscape {cs : List Char} (h : needsEscape cs = false) :
    ∀ c ∈ cs, isPlain c = true ∨ c = '\n' := by
  intro c hc
  have hplain := List.any_eq_false.mp h c hc
  by_cases hn : c = '\n'
  · exact Or.inr hn
  · exact Or.inl (by simpa [hn] using hplain)

theorem Form.of_suits (cs : List Char) : (Form.of cs).Suits cs := by
  unfold Form.of
  by_cases hescape : needsEscape cs = true
  · rw [if_pos hescape]
    cases cs.contains '\n' <;> trivial
  have hplain := plain_of_not_needsEscape (Bool.not_eq_true _ ▸ hescape)
  rw [if_neg hescape]
  split
  · trivial
  split
  · rename_i hliteral
    simp only [Bool.and_eq_true, decide_eq_true_eq, longestRun_eq_zero, Bool.not_eq_true', List.contains_eq_mem,
      decide_eq_false_iff_not] at hliteral
    intro c hc
    refine ⟨fun h => hliteral.1 (h ▸ hc), (hplain c hc).resolve_right fun h => hliteral.2 (h ▸ hc)⟩
  split
  · trivial
  split
  · rename_i hruns
    exact ⟨hruns, hplain⟩
  split <;> trivial

/-- Opening marks take the line break behind them along, and no other. -/
theorem dropBreak_of_head {c : Char} (hn : c ≠ '\n') (hr : c ≠ '\r') (r : List Char) : dropBreak (c :: r) = c :: r := by
  unfold dropBreak lineBreak?
  split
  · rename_i h
    exact absurd (List.cons_eq_cons.mp h).1 hn
  · rename_i h
    exact absurd (List.cons_eq_cons.mp h).1 hr
  · rfl

theorem quoted?_lines {quote : Char} (cs : List Char) {body s rest : List Char}
    (hbody : body? quote true body = some (s, rest)) (hhead : '\n' ∉ cs → dropBreak body = body) :
    quoted? quote ((opening quote cs).tail ++ body) = some (String.ofList s, rest) := by
  unfold opening
  by_cases hn : '\n' ∈ cs
  · simp [hn, tripled, quoted?, dropBreak, lineBreak?, hbody]
  · simp [hn, tripled, quoted?, hhead hn, hbody]

theorem opening_eq (quote : Char) (cs : List Char) : opening quote cs = quote :: (opening quote cs).tail := by
  unfold opening
  by_cases hn : cs.contains '\n' = true
  · rw [if_pos hn]
    rfl
  · rw [if_neg hn]
    rfl

theorem quoted?_line {quote : Char} {r s rest : List Char} (hbody : body? quote false r = some (s, rest))
    (hopen : ∀ more, r ≠ quote :: quote :: more) : quoted? quote r = some (String.ofList s, rest) := by
  unfold quoted?
  split
  · rename_i a b r'
    rw [if_neg (fun h => hopen r' (by rw [h.1, h.2])), hbody]
    rfl
  · rw [hbody]
    rfl

/-- A string in a form that suits it is read back from behind its first quotation mark. -/
theorem Form.quoted?_write {cs : List Char} {form : Form} (h : form.Suits cs) (rest : List Char) :
    ∃ quote r, form.write cs ++ '\n' :: rest = quote :: r ∧ (quote = '"' ∨ quote = '\'') ∧
      quoted? quote r = some (String.ofList cs, '\n' :: rest) := by
  cases form with
  | basic =>
    refine ⟨'"', cs.flatMap escapeChar ++ '"' :: '\n' :: rest, by simp [write], Or.inl rfl, ?_⟩
    refine quoted?_line (body?_basic cs _) ?_
    intro more hopen
    cases cs with
    | nil => cases hopen
    | cons c cs =>
      obtain ⟨d, escaped, hc, hd, -⟩ := escapeChar_head c
      rw [List.flatMap_cons, hc] at hopen
      exact hd (List.cons_eq_cons.mp hopen).1
  | literal =>
    refine ⟨'\'', cs ++ '\'' :: '\n' :: rest, by simp [write], Or.inr rfl, ?_⟩
    refine quoted?_line (body?_literal h _) ?_
    intro more hopen
    cases cs with
    | nil => cases hopen
    | cons c cs => exact (h c List.mem_cons_self).1 (List.cons_eq_cons.mp hopen).1
  | basicLines =>
    have hbody : body? '"' true (escapeLines 0 cs ++ (tripled '"' ++ '\n' :: rest)) = some (cs, '\n' :: rest) := by
      simpa using @body?_escapeLines 0 ('\n' :: rest) (by omega) (by simp) cs
    refine ⟨'"', _, ?_, Or.inl rfl, quoted?_lines cs hbody ?_⟩
    · rw [write, opening_eq]
      simp
    · intro hn
      cases cs with
      | nil => rfl
      | cons c cs =>
        by_cases hquote : c = '"'
        · subst hquote
          exact dropBreak_of_head (by decide) (by decide) _
        · obtain ⟨d, more, hc, -, hdn, hdr⟩ := escapeChar_head c
          rw [escapeLines.eq_4 _ _ _ hquote (fun h => hn (h ▸ List.mem_cons_self)), hc]
          exact dropBreak_of_head hdn hdr _
  | literalLines =>
    obtain ⟨hruns, hplain⟩ := h
    have hbody : body? '\'' true (cs ++ (tripled '\'' ++ '\n' :: rest)) = some (cs, '\n' :: rest) := by
      simpa using @body?_literalLines 0 cs ('\n' :: rest) hplain hruns (by simp)
    refine ⟨'\'', _, ?_, Or.inr rfl, quoted?_lines cs hbody ?_⟩
    · rw [write, opening_eq]
      simp
    · intro hn
      cases cs with
      | nil => rfl
      | cons c cs =>
        have hc : isPlain c = true := (hplain c List.mem_cons_self).resolve_right fun h => hn (h ▸ List.mem_cons_self)
        refine dropBreak_of_head ?_ ?_ _
        · rintro rfl
          cases hc
        · rintro rfl
          cases hc

/-- A written string is read back, up to the end of its line. -/
theorem quoted?_write (s : String) (rest : List Char) :
    ∃ quote r, stringText s ++ '\n' :: rest = quote :: r ∧ (quote = '"' ∨ quote = '\'') ∧
      quoted? quote r = some (s, '\n' :: rest) := by
  obtain ⟨quote, r, hr, hquote, hread⟩ := Form.quoted?_write (Form.of_suits s.toList) rest
  rw [String.ofList_toList] at hread
  exact ⟨quote, r, hr, hquote, hread⟩

end HouseLease.Toml
