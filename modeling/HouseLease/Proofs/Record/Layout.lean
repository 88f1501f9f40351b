/-
  HouseLease.Proofs.Record.Layout — which bytes are records.

  A record is laid out in four parts, one behind the other. Each part is read off the front of
  bytes just where it was written, whatever follows it (`Reads`), and so are parts in a row
  (`Reads.pair`). That much already rules out that bytes cut short are read (`Reads.cut`).

  So the bytes that a record is read from are its layout, with any text for its date that is
  accepted, and then anything (`Record.ofBytes?_eq_some`). A record that was written is read back
  as it was; bytes behind it are not looked at, it cannot be cut anywhere, and it is told from
  one of another version (`written_records_read_back`).
-/

import HouseLease.Proofs.Record.Rewriting

namespace HouseLease

open Text (Bytes)

/-! ## Parts -/

/-- Off the front of bytes `take?` reads just what `put?` writes. -/
structure Reads {α : Type} (put? : α → Option Bytes) (take? : Bytes → Option (α × Bytes)) : Prop where
  back : ∀ {a front}, put? a = some front → ∀ rest, take? (front ++ rest) = some (a, rest)
  only : ∀ {bs a rest}, take? bs = some (a, rest) → ∃ front, put? a = some front ∧ bs = front ++ rest

/-- Writes one part and another behind it. -/
def putPair? {α β : Type} (put? : α → Option Bytes) (put'? : β → Option Bytes) : α × β → Option Bytes
  | (a, b) => do return (← put? a) ++ (← put'? b)

def takePair? {α β : Type} (take? : Bytes → Option (α × Bytes)) (take'? : Bytes → Option (β × Bytes)) (bs : Bytes) :
    Option ((α × β) × Bytes) := do
  let (a, rest) ← take? bs
  let (b, rest) ← take'? rest
  return ((a, b), rest)

namespace Reads

variable {α β : Type} {put? : α → Option Bytes} {take? : Bytes → Option (α × Bytes)} {put'? : β → Option Bytes}
  {take'? : Bytes → Option (β × Bytes)}

theorem pair (h : Reads put? take?) (h' : Reads put'? take'?) : Reads (putPair? put? put'?) (takePair? take? take'?) where
  back := by
    rintro ⟨a, b⟩ front hput rest
    simp only [putPair?, Option.bind_eq_bind, Option.bind_eq_some_iff, Option.pure_def, Option.some.injEq] at hput
    obtain ⟨front₁, h₁, front₂, h₂, rfl⟩ := hput
    simp [takePair?, List.append_assoc, h.back h₁, h'.back h₂]
  only := by
    rintro bs ⟨a, b⟩ rest htake
    simp only [takePair?, Option.bind_eq_bind, Option.bind_eq_some_iff, Option.pure_def, Option.some.injEq] at htake
    obtain ⟨⟨a', rest₁⟩, h₁, ⟨b', rest₂⟩, h₂, heq⟩ := htake
    cases heq
    obtain ⟨front₁, hput₁, rfl⟩ := h.only h₁
    obtain ⟨front₂, hput₂, rfl⟩ := h'.only h₂
    exact ⟨front₁ ++ front₂, by simp [putPair?, hput₁, hput₂], (List.append_assoc ..).symm⟩

/-- What was written is not read once its end is missing: the part read instead would be read off the whole as well,
    and leave the end behind. -/
theorem cut (h : Reads put? take?) {a : α} {front : Bytes} (hput : put? a = some front) {n : Nat}
    (hn : n < front.length) : take? (front.take n) = none := by
  cases htake : take? (front.take n) with
  | none => rfl
  | some read =>
    obtain ⟨b, rest⟩ := read
    obtain ⟨front', hput', hcut⟩ := h.only htake
    have hwhole : front ++ [] = front' ++ (rest ++ front.drop n) := by
      rw [← List.append_assoc, ← hcut, List.take_append_drop, List.append_nil]
    have hread := h.back hput []
    rw [hwhole, h.back hput'] at hread
    have hend : front.drop n = [] := by
      have hrest := congrArg Prod.snd (Option.some.inj hread)
      exact (List.append_eq_nil_iff.mp hrest).2
    have hlength := congrArg List.length hend
    rw [List.length_drop, List.length_nil] at hlength
    omega

/-! ### Blocks, texts, marks -/

theorem littleEndian_ofLittleEndian (bs : Bytes) : littleEndian bs.length (ofLittleEndian bs) = bs := by
  induction bs with
  | nil => rfl
  | cons b bs ih =>
    have hb := b.toNat_lt
    have hlow : (b.toNat + 256 * ofLittleEndian bs) % 256 = b.toNat := by omega
    have hhigh : (b.toNat + 256 * ofLittleEndian bs) / 256 = ofLittleEndian bs := by omega
    rw [List.length_cons, ofLittleEndian, littleEndian, hlow, hhigh, ih, UInt8.ofNat_toNat]

theorem ofLittleEndian_lt (bs : Bytes) : ofLittleEndian bs < Nat.pow 256 bs.length := by
  induction bs with
  | nil => simp [ofLittleEndian]
  | cons b bs ih =>
    have hb := b.toNat_lt
    have hpow : Nat.pow 256 (bs.length + 1) = 256 * Nat.pow 256 bs.length := Nat.pow_succ'
    rw [ofLittleEndian, List.length_cons, hpow]
    omega

theorem block : Reads block? takeBlock? where
  back := takeBlock?_block
  only {bs content rest} h := by
    simp only [takeBlock?] at h
    split at h
    · rename_i hlong
      cases h
      obtain ⟨h8, hlong⟩ := hlong
      have hmark : (bs.take 8).length = 8 := List.length_take_of_le h8
      have hfits : ofLittleEndian (bs.take 8) < UInt64.size := by
        have hlt := ofLittleEndian_lt (bs.take 8)
        rw [hmark] at hlt
        exact hlt
      have hlength : ((bs.drop 8).take (ofLittleEndian (bs.take 8))).length = ofLittleEndian (bs.take 8) :=
        List.length_take_of_le hlong
      have hback := littleEndian_ofLittleEndian (bs.take 8)
      rw [hmark] at hback
      refine ⟨bs.take 8 ++ (bs.drop 8).take (ofLittleEndian (bs.take 8)), ?_, ?_⟩
      · rw [block?, hlength, if_pos hfits, hback]
      · rw [List.append_assoc, List.take_append_drop, List.take_append_drop]
    · cases h

theorem text : Reads textBytes? takeText? where
  back := takeText?_textBytes?
  only {bs s rest} h := by
    obtain ⟨⟨content, rest'⟩, hblock, h⟩ := Option.bind_eq_some_iff.mp h
    obtain ⟨s', hs, heq⟩ := Option.map_eq_some_iff.mp h
    cases heq
    obtain ⟨front, hput, rfl⟩ := block.only hblock
    refine ⟨front, ?_, rfl⟩
    rw [textBytes?, Text.bytes_of_ofBytes? hs, hput]

theorem lastHouse : Reads Record.lastHouseBytes? Record.takeLastHouse? where
  back := Record.takeLastHouse?_lastHouseBytes?
  only {bs last rest} h := by
    unfold Record.takeLastHouse? at h
    split at h
    · cases h
      exact ⟨[0], rfl, rfl⟩
    · obtain ⟨⟨s, rest'⟩, htext, heq⟩ := Option.map_eq_some_iff.mp h
      cases heq
      obtain ⟨front, hput, rfl⟩ := text.only htext
      exact ⟨1 :: front, by rw [Record.lastHouseBytes?, hput, Option.map_some], rfl⟩
    · cases h

/-- One byte of any value. -/
theorem byte : Reads (fun b => some [b]) (fun | [] => none | b :: rest => some (b, rest)) where
  back {b front} h rest := by
    cases h
    rfl
  only {bs b rest} h := by
    cases bs with
    | nil => cases h
    | cons b' bs =>
      cases h
      exact ⟨[b], rfl, rfl⟩

end Reads

/-! ## Records -/

namespace Record

/-- The bytes of the record, with this text for its date. -/
def layout? (r : Record) (date : String) : Option Bytes := do
  let houses ← textBytes? r.houses
  let lastHouse ← lastHouseBytes? r.lastHouse
  let date ← textBytes? date
  some (houses ++ lastHouse ++ date ++ [r.version])

/-- House list, last house, date and version, each behind the other. -/
def putParts? : String × Option String × String × UInt8 → Option Bytes :=
  putPair? textBytes? (putPair? lastHouseBytes? (putPair? textBytes? fun b => some [b]))

def takeParts? : Bytes → Option ((String × Option String × String × UInt8) × Bytes) :=
  takePair? takeText? (takePair? takeLastHouse? (takePair? takeText? fun | [] => none | b :: rest => some (b, rest)))

theorem reads_parts : Reads putParts? takeParts? := .pair .text (.pair .lastHouse (.pair .text .byte))

theorem layout?_eq_putParts? (r : Record) (date : String) :
    r.layout? date = putParts? (r.houses, r.lastHouse, date, r.version) := by
  simp only [layout?, putParts?, putPair?, Option.bind_eq_bind, Option.pure_def]
  cases textBytes? r.houses <;> cases lastHouseBytes? r.lastHouse <;> cases textBytes? date <;>
    simp [List.append_assoc]

theorem ofBytes?_eq_takeParts? (bs : Bytes) :
    ofBytes? bs = (takeParts? bs).bind fun ((houses, lastHouse, date, version), _) =>
      (Instant.ofText? date).map fun updatedAt => { houses, lastHouse, updatedAt, version } := by
  simp only [ofBytes?, takeParts?, takePair?, Option.bind_eq_bind, Option.pure_def]
  rcases takeText? bs with _ | ⟨houses, rest⟩
  · simp
  rcases hlast : takeLastHouse? rest with _ | ⟨last, rest⟩
  · simp [hlast]
  rcases hdate : takeText? rest with _ | ⟨date, rest⟩
  · simp [hlast, hdate]
  cases rest <;> cases hread : Instant.ofText? date <;> simp [hlast, hdate, hread]

/-- A record is read from its layout, with any accepted text for its date, and from nothing else. -/
theorem ofBytes?_eq_some {bs : Bytes} {r : Record} : ofBytes? bs = some r ↔
    ∃ date front rest, r.layout? date = some front ∧ Instant.ofText? date = some r.updatedAt ∧ bs = front ++ rest := by
  rw [ofBytes?_eq_takeParts?]
  constructor
  · intro h
    obtain ⟨⟨⟨houses, last, date, version⟩, rest⟩, hparts, h⟩ := Option.bind_eq_some_iff.mp h
    obtain ⟨updatedAt, hdate, rfl⟩ := Option.map_eq_some_iff.mp h
    obtain ⟨front, hput, hbs⟩ := reads_parts.only hparts
    exact ⟨date, front, rest, (layout?_eq_putParts? _ _).trans hput, hdate, hbs⟩
  · rintro ⟨date, front, rest, hlayout, hdate, rfl⟩
    rw [layout?_eq_putParts?] at hlayout
    simp [reads_parts.back hlayout, hdate]

theorem ofBytes?_cut {r : Record} {date : String} {front : Bytes} (h : r.layout? date = some front) {n : Nat}
    (hn : n < front.length) : ofBytes? (front.take n) = none := by
  rw [layout?_eq_putParts?] at h
  rw [ofBytes?_eq_takeParts?, reads_parts.cut h hn, Option.bind_none]

/-- The version is the last byte, and nothing before it depends on it. -/
theorem layout?_version {r : Record} {date : String} {front : Bytes} (h : r.layout? date = some front) :
    ∃ body, front = body ++ [r.version] ∧ ∀ version, { r with version }.layout? date = some (body ++ [version]) := by
  simp only [layout?, Option.bind_eq_bind, Option.bind_eq_some_iff] at h
  obtain ⟨houses, hhouses, last, hlast, updated, hdate, h⟩ := h
  cases h
  exact ⟨houses ++ last ++ updated, rfl, fun version => by simp [layout?, hhouses, hlast, hdate]⟩

end Record

/-! ## Lengths -/

theorem Text.length_bytes_ofList_le (cs : List Char) : (bytes (String.ofList cs)).length ≤ 4 * cs.length := by
  rw [bytes, String.toByteArray_ofList, Array.length_toList]
  show cs.utf8Encode.size ≤ 4 * cs.length
  induction cs with
  | nil => exact Nat.le_refl 0
  | cons c cs ih =>
    have hc := c.utf8Size_le_four
    rw [List.utf8Encode_cons, ByteArray.size_append, List.utf8Encode_singleton, List.size_toByteArray,
      String.length_utf8EncodeChar, List.length_cons]
    omega

namespace Instant

theorem length_yearText_le {year : Int} (h : yearInRange year = true) : (yearText year).length ≤ 7 := by
  have hdigits : year.natAbs < Nat.pow 10 6 := by
    simp only [yearInRange, Bool.and_eq_true, decide_eq_true_eq] at h
    simp only [Nat.pow_eq, Nat.reducePow]
    omega
  have hlength : (Text.padded 4 year.natAbs).length ≤ 6 := Text.length_padded_le (by decide) (by decide) hdigits
  unfold yearText
  split
  · exact Nat.succ_le_succ hlength
  · split
    · exact Nat.succ_le_succ hlength
    · exact Nat.le_succ_of_le hlength

theorem length_timeText_le (i : Instant) : i.timeText.length ≤ 8 := by
  have hn := i.nanos_lt
  have hhour : (Text.padded 2 i.clock.1).length ≤ 2 :=
    Text.length_padded_le (by decide) (by decide) (by simp only [clock, Nat.pow_eq, Nat.reducePow]; omega)
  have hminute : (Text.padded 2 i.clock.2.1).length ≤ 2 :=
    Text.length_padded_le (by decide) (by decide) (by simp only [clock, Nat.pow_eq, Nat.reducePow]; omega)
  have hsecond : (Text.padded 2 i.clock.2.2).length ≤ 2 :=
    Text.length_padded_le (by decide) (by decide) (by simp only [clock, Nat.pow_eq, Nat.reducePow]; omega)
  show (Text.padded 2 i.clock.1 ++ ':' :: Text.padded 2 i.clock.2.1 ++ ':' :: Text.padded 2 i.clock.2.2).length ≤ 8
  simp only [List.length_append, List.length_cons]
  omega

theorem length_fractionText_le (i : Instant) : i.fractionText.length ≤ 10 := by
  have hn : i.nanos % 1000000000 < Nat.pow 10 9 := Nat.mod_lt _ (by decide)
  have hpadded {w n : Nat} (hw : w ≤ 9) (h : n ≤ i.nanos % 1000000000) : ('.' :: Text.padded w n).length ≤ 10 :=
    Nat.succ_le_succ (Text.length_padded_le hw (by decide) (Nat.lt_of_le_of_lt h hn))
  unfold fractionText
  simp only
  split
  · exact Nat.zero_le _
  · split
    · exact hpadded (by decide) (Nat.div_le_self ..)
    · split
      · exact hpadded (by decide) (Nat.div_le_self ..)
      · exact hpadded (by decide) (Nat.le_refl _)

/-- The text of a date is short, far below what a block can hold. -/
theorem length_recordText_lt (i : Instant) : (Text.bytes i.recordText).length < UInt64.size := by
  obtain ⟨hm, hd⟩ := isValid_bounds (isValid_ofDayNumber (i.seconds / 86400))
  have hyear : (yearText i.date.year).length ≤ 7 := length_yearText_le (yearInRange_ofDayNumber i.seconds_range)
  have hmonth : (Text.padded 2 i.date.month).length ≤ 2 :=
    Text.length_padded_le (by decide) (by decide) (Nat.lt_of_le_of_lt hm (by decide))
  have hday : (Text.padded 2 i.date.day).length ≤ 2 :=
    Text.length_padded_le (by decide) (by decide) (Nat.lt_of_le_of_lt hd (by decide))
  have htime := i.length_timeText_le
  have hfraction := i.length_fractionText_le
  have hchars : (i.secondText ++ i.fractionText ++ ['Z']).length ≤ 33 := by
    simp only [secondText, List.length_append, List.length_cons, List.length_nil]
    omega
  have hbytes := Text.length_bytes_ofList_le (i.secondText ++ i.fractionText ++ ['Z'])
  rw [recordText]
  simp only [UInt64.size]
  omega

end Instant

theorem textBytes?_isSome {s : String} : (textBytes? s).isSome ↔ (Text.bytes s).length < UInt64.size := by
  unfold textBytes? block?
  split <;> simp_all

namespace Record

/-- The texts of the record are not too long for their blocks. -/
def Fits (r : Record) : Prop :=
  (Text.bytes r.houses).length < UInt64.size ∧ ∀ last ∈ r.lastHouse, (Text.bytes last).length < UInt64.size

theorem lastHouseBytes?_isSome {last : Option String} :
    (lastHouseBytes? last).isSome ↔ ∀ s ∈ last, (Text.bytes s).length < UInt64.size := by
  cases last with
  | none => simp [lastHouseBytes?]
  | some s => simp [lastHouseBytes?, textBytes?_isSome]

theorem toBytes?_isSome {r : Record} : r.toBytes?.isSome ↔ r.Fits := by
  have hdate := textBytes?_isSome.mpr r.updatedAt.length_recordText_lt
  obtain ⟨date, hdate⟩ := Option.isSome_iff_exists.mp hdate
  rw [Fits, ← textBytes?_isSome, ← lastHouseBytes?_isSome]
  simp only [toBytes?, hdate]
  cases textBytes? r.houses <;> cases lastHouseBytes? r.lastHouse <;> simp

/-- Fields that fit have one layout for every version, which is read back with that version. -/
theorem exists_body {r : Record} (hfits : r.Fits) (wall : Instant) : ∃ body j,
    Instant.ofText? wall.recordText = some j ∧
    ∀ version, toBytes? ⟨r.houses, r.lastHouse, wall, version⟩ = some (body ++ [version]) ∧
      ∀ more, ofBytes? (body ++ [version] ++ more) = some ⟨r.houses, r.lastHouse, j, version⟩ := by
  have hsome : (toBytes? { r with updatedAt := wall }).isSome := toBytes?_isSome.mpr hfits
  obtain ⟨front, hlayout⟩ := Option.isSome_iff_exists.mp hsome
  obtain ⟨body, -, hbody⟩ := layout?_version hlayout
  obtain ⟨j, hj, -⟩ := Instant.ofText?_recordText wall
  refine ⟨body, j, hj, fun version => ⟨hbody version, fun more => ?_⟩⟩
  exact ofBytes?_eq_some.mpr ⟨wall.recordText, body ++ [version], more, hbody version, hj, rfl⟩

end Record

/-! ## What a store reads -/

namespace Store

theorem judge_eq_ok {value : Bytes} {r : Record} :
    judge value = .ok r ↔ Record.ofBytes? value = some r ∧ r.version = schemaVersion := by
  unfold judge
  cases Record.ofBytes? value with
  | none => simp
  | some r' =>
    simp only [Option.some.injEq]
    constructor
    · intro h
      split at h
      · rename_i hversion
        cases h
        exact ⟨rfl, hversion⟩
      · cases h
    · rintro ⟨rfl, hversion⟩
      rw [if_pos hversion]

theorem fetch_insert (s : Store) {p q : String} (h : accountName q = accountName p) (tag : String) (value : Bytes) :
    (s.insert (recordKey p tag) value).fetch q tag = (judge value).map some := by
  simp only [fetch, find?_insert, recordKey_inj.mpr h, if_true]

theorem fetch_eq_some {s : Store} {player tag : String} {r : Record} : s.fetch player tag = .ok (some r) ↔
    ∃ value, s.find? (recordKey player tag) = some value ∧ judge value = .ok r := by
  unfold fetch
  cases s.find? (recordKey player tag) with
  | none => simp
  | some value => cases hjudge : judge value <;> simp [Except.map, hjudge]

/-- A record that was written is read back as it was under any spelling of the name, whatever is put behind its bytes;
    cut anywhere it is unreadable, and with another version it is told from one of this version. Only texts too long
    for their blocks are refused. And a record is read, from any store, only off bytes that begin with its layout. -/
theorem written_records_read_back (s : Store) (wall : Instant) (p q tag : String) (r : Record)
    (hq : accountName q = accountName p) :
    (r.Fits → ∃ s' body j,
      s.write wall p tag r.houses r.lastHouse = .ok s' ∧
      s'.find? (recordKey p tag) = some (body ++ [schemaVersion]) ∧
      Instant.ofText? wall.recordText = some j ∧
      s'.fetch q tag = .ok (some ⟨r.houses, r.lastHouse, j, schemaVersion⟩) ∧
      (∀ more, (s'.insert (recordKey p tag) (body ++ [schemaVersion] ++ more)).fetch q tag = s'.fetch q tag) ∧
      (∀ cut, cut <+: body ++ [schemaVersion] → cut ≠ body ++ [schemaVersion] →
        (s'.insert (recordKey p tag) cut).fetch q tag = .error .recordUnreadable) ∧
      ∀ version, version ≠ schemaVersion →
        (s'.insert (recordKey p tag) (body ++ [version])).fetch q tag = .error (.schemaMismatch version)) ∧
    (¬ r.Fits → s.write wall p tag r.houses r.lastHouse = .error .recordTooLong) ∧
    (s.fetch q tag = .ok (some r) ↔ r.version = schemaVersion ∧ ∃ date front more,
      r.layout? date = some front ∧ Instant.ofText? date = some r.updatedAt ∧
      s.find? (recordKey q tag) = some (front ++ more)) := by
  refine ⟨fun hfits => ?_, fun hlong => ?_, ?_⟩
  · obtain ⟨body, j, hj, hbody⟩ := Record.exists_body hfits wall
    have hwrite : s.write wall p tag r.houses r.lastHouse
        = .ok (s.insert (recordKey p tag) (body ++ [schemaVersion])) := by
      simp only [write, (hbody schemaVersion).1]
    have hwhole : ∀ more, judge (body ++ [schemaVersion] ++ more)
        = .ok ⟨r.houses, r.lastHouse, j, schemaVersion⟩ := fun more =>
      judge_eq_ok.mpr ⟨(hbody schemaVersion).2 more, rfl⟩
    have hfetch : (s.insert (recordKey p tag) (body ++ [schemaVersion])).fetch q tag
        = .ok (some ⟨r.houses, r.lastHouse, j, schemaVersion⟩) := by
      have hwhole := hwhole []
      rw [List.append_nil] at hwhole
      rw [fetch_insert s hq, hwhole]
      rfl
    refine ⟨_, body, j, hwrite, ?_, hj, hfetch, ?_, ?_, ?_⟩
    · rw [find?_insert, if_pos rfl]
    · intro more
      rw [fetch_insert _ hq, hwhole, hfetch]
      rfl
    · intro cut hprefix hne
      have hcut := List.prefix_iff_eq_take.mp hprefix
      have hshort : cut.length < (body ++ [schemaVersion]).length :=
        Nat.lt_of_le_of_ne hprefix.length_le (mt hprefix.eq_of_length hne)
      have hnone : Record.ofBytes? cut = none := by
        rw [hcut]
        exact Record.ofBytes?_cut (hbody schemaVersion).1 hshort
      rw [fetch_insert _ hq, judge, hnone]
      rfl
    · intro version hversion
      have hread := (hbody version).2 []
      rw [List.append_nil] at hread
      rw [fetch_insert _ hq, judge, hread]
      simp only [if_neg hversion]
      rfl
  · have hnone : Record.toBytes? ⟨r.houses, r.lastHouse, wall, schemaVersion⟩ = none :=
      Option.not_isSome_iff_eq_none.mp (mt Record.toBytes?_isSome.mp hlong)
    simp only [write, hnone]
  · rw [fetch_eq_some]
    simp only [judge_eq_ok, Record.ofBytes?_eq_some]
    constructor
    · rintro ⟨value, hfind, ⟨date, front, more, hlayout, hdate, rfl⟩, hversion⟩
      exact ⟨hversion, date, front, more, hlayout, hdate, hfind⟩
    · rintro ⟨hversion, date, front, more, hlayout, hdate, hfind⟩
      exact ⟨_, hfind, ⟨date, front, more, hlayout, hdate, rfl⟩, hversion⟩

/-- A record written for Alice, found by another spelling of her name and lost with its last byte. -/
theorem alice_reads_back : ∃ s' body j,
    empty.write .epoch "Alice" houseTag "[[\"greyton\",10]]" (some "greyton") = .ok s' ∧
    s'.find? (recordKey "Alice" houseTag) = some (body ++ [1]) ∧
    s'.fetch "aLICE" houseTag = .ok (some ⟨"[[\"greyton\",10]]", some "greyton", j, 1⟩) ∧
    (s'.insert (recordKey "Alice" houseTag) body).fetch "aLICE" houseTag = .error .recordUnreadable ∧
    (s'.insert (recordKey "Alice" houseTag) (body ++ [7])).fetch "aLICE" houseTag = .error (.schemaMismatch 7) := by
  have hname : accountName "Alice" = "alice" := by decide +kernel
  have hname' : accountName "aLICE" = "alice" := by decide +kernel
  have hfits : Record.Fits ⟨"[[\"greyton\",10]]", some "greyton", .epoch, 9⟩ := by
    refine ⟨by decide +kernel, fun last hlast => ?_⟩
    cases hlast
    decide +kernel
  obtain ⟨s', body, j, hwrite, hfind, -, hfetch, -, hcut, hversion⟩ :=
    (written_records_read_back empty .epoch "Alice" "aLICE" houseTag _ (hname'.trans hname.symm)).1 hfits
  refine ⟨s', body, j, hwrite, hfind, hfetch, ?_, hversion 7 (by decide)⟩
  exact hcut body ⟨[schemaVersion], rfl⟩ (by simp)

end Store

end HouseLease
