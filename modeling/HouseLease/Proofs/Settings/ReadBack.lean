/-
  HouseLease.Proofs.Settings.ReadBack — written settings are read back as they were.

  The lines of settings make a document that names every key once, so its tables are known from
  `Proofs.Toml.Tables` (`document?_lines`): groups of one table each, and a row for every house. The
  readers find in them what was written (`ofValue?_entries`). Every line is read back, since all keys
  are bare (`isBare_lines`); of the strings and numbers `settings_read_back` needs nothing.
-/

import HouseLease.Proofs.Toml.Lines
import HouseLease.Proofs.Toml.Tables
import HouseLease.Settings.File

namespace HouseLease

open Toml (Line Entries Section Distinct keyed headed element tables rows row)

namespace Settings

/-! ## The document of settings -/

def tileEntries (t : Tile) : Entries := [("x", .integer (ofInt32 t.x)), ("y", .integer (ofInt32 t.y))]

def pointEntries (p : Point) : Entries :=
  [("path", .text p.path), ("x", .integer (ofInt32 p.x)), ("y", .integer (ofInt32 p.y))]

def optionEntry (key : String) : Option String → Entries
  | some s => [(key, .text s)]
  | none => []

def houseTerms (h : House) : Entries :=
  [("id", .text h.id), ("display_name", .text h.displayName), ("purchase_cost", .integer h.purchaseCost),
    ("daily_fee", .integer h.dailyFee), ("max_prepaid_days", .integer (ofUInt32 h.maxPrepaidDays)),
    ("prepaid_days_on_purchase", .integer (ofUInt32 h.prepaidDaysOnPurchase)),
    ("stray_item_radius", .integer (ofUInt32 h.strayItemRadius))]

def housePlaces (h : House) : List (String × Entries) :=
  [("house_portal", pointEntries h.housePortal), ("from_hub_portal", pointEntries h.fromHubPortal),
    ("exit_portal", pointEntries h.exitPortal), ("stray_item_anchor", tileEntries h.strayItemAnchor),
    ("unpaid_fee_position", tileEntries h.unpaidFeePosition)]

/-- A house as an element of the array of houses. -/
def houseElement (h : House) : Entries × List (String × Entries) := (houseTerms h, housePlaces h)

/-- The groups of settings that are always there. -/
def groups (s : Settings) : List (String × Entries) :=
  [("storage", ("data_dir", .text s.dataDir) :: optionEntry "db_path" s.dbPath),
    ("logging", ("level", .text s.level) :: optionEntry "file" s.logFile),
    ("hub", pointEntries s.hub)]

/-- Without houses their key stands in front of all headers. -/
def noHouses (s : Settings) : Entries := if s.houses.isEmpty then [("houses", .array [])] else []

def elements (s : Settings) : List (Entries × List (String × Entries)) := s.houses.map houseElement

def sections (s : Settings) : List Section := headed [] s.groups ++ s.elements.flatMap (element "houses")

def entries (s : Settings) : Entries := s.noHouses ++ tables s.groups ++ rows "houses" (s.elements.map row)

/-! ## What the lines say -/

/-- The line for settings without houses. -/
def frontLines (s : Settings) : List Line := if s.houses.isEmpty then [.emptyArray "houses"] else []

def groupLines (s : Settings) : List Line :=
  .header (.of "storage") :: .text "data_dir" s.dataDir :: optionLine "db_path" s.dbPath
  ++ .header (.of "logging") :: .text "level" s.level :: optionLine "file" s.logFile
  ++ .header (.of "hub") :: pointLines s.hub

section

variable {s : Settings}

theorem lines_eq (s : Settings) : s.lines = s.frontLines ++ s.groupLines ++ s.houses.flatMap houseLines := by
  simp only [lines, frontLines, groupLines, List.append_assoc]

theorem statement_frontLines (s : Settings) :
    s.frontLines.map Line.statement = (keyed s.noHouses).map fun p => .assign p.1 p.2 := by
  unfold frontLines noHouses
  split <;> rfl

theorem statement_groupLines (s : Settings) :
    s.groupLines.map Line.statement = (headed [] s.groups).flatMap Section.statements := by
  unfold groupLines groups
  cases s.dbPath <;> cases s.logFile <;> rfl

theorem statement_houseLines (h : House) :
    (houseLines h).map Line.statement = (element "houses" (houseElement h)).flatMap Section.statements := rfl

theorem statement_lines (s : Settings) : s.lines.map Line.statement
    = (keyed s.noHouses).map (fun p => .assign p.1 p.2) ++ s.sections.flatMap Section.statements := by
  have hhouses : (s.houses.flatMap houseLines).map Line.statement
      = (s.elements.flatMap (element "houses")).flatMap Section.statements := by
    rw [elements, List.map_flatMap, List.flatMap_assoc, List.flatMap_map]
    exact congrArg (List.flatMap · s.houses) (funext statement_houseLines)
  rw [lines_eq, List.map_append, List.map_append, statement_frontLines, statement_groupLines, hhouses, sections,
    List.flatMap_append, List.append_assoc]

/-! ## The tables they make -/

theorem distinct_groups (s : Settings) : Distinct (s.noHouses ++ tables s.groups) := by
  unfold noHouses
  split <;> simp [Distinct, tables, groups]

theorem distinct_group {g : String × Entries} (hg : g ∈ s.groups) : Distinct g.2 := by
  simp only [groups, List.mem_cons, List.not_mem_nil, or_false] at hg
  rcases hg with rfl | rfl | rfl
  · cases s.dbPath <;> simp [Distinct, optionEntry]
  · cases s.logFile <;> simp [Distinct, optionEntry]
  · simp [Distinct, pointEntries]

theorem distinct_row (h : House) : Distinct (row (houseElement h)) := by
  simp [Distinct, row, houseElement, houseTerms, housePlaces, tables]

theorem distinct_place {h : House} {g : String × Entries} (hg : g ∈ housePlaces h) : Distinct g.2 := by
  simp only [housePlaces, List.mem_cons, List.not_mem_nil, or_false] at hg
  rcases hg with rfl | rfl | rfl | rfl | rfl <;> simp [Distinct, pointEntries, tileEntries]

theorem distinct_elements (s : Settings) :
    (∀ e ∈ s.elements, Distinct (row e)) ∧ ∀ e ∈ s.elements, ∀ g ∈ e.2, Distinct g.2 :=
  ⟨List.forall_mem_map.mpr fun h _ => distinct_row h, List.forall_mem_map.mpr fun _ _ _ hg => distinct_place hg⟩

theorem foldlM_sections (s : Settings) : s.sections.foldlM Toml.addSection s.noHouses = some s.entries := by
  have hgroups := Toml.foldlM_top s.distinct_groups fun g hg => distinct_group hg
  rw [sections, List.foldlM_append, hgroups, Option.bind_eq_bind, Option.bind_some]
  cases hhouses : s.houses with
  | nil => simp [elements, entries, hhouses, rows]
  | cons h hs =>
    -- with a house there is nothing under the key of the array but its elements
    have hkey : (s.noHouses ++ tables s.groups).lookup "houses" = none := by
      simp [noHouses, hhouses, tables, groups, List.lookup_cons]
    have hrows := Toml.foldlM_elements hkey s.distinct_elements.1 s.distinct_elements.2 []
    simpa [rows, entries] using hrows

theorem document?_lines (s : Settings) : Toml.document? (s.lines.map Line.statement) = some s.entries := by
  have hsections : Toml.sections (s.lines.map Line.statement) = (keyed s.noHouses, s.sections) := by
    rw [statement_lines, Toml.sections_assignments, Toml.sections_statements, List.append_nil]
  have hfront : Toml.assignAll [] (keyed s.noHouses) = some s.noHouses := by
    unfold noHouses
    split <;> rfl
  rw [Toml.document?, hsections]
  simp only [hfront, Option.bind_eq_bind, Option.bind_some, foldlM_sections]

/-! ## Reading them -/

theorem int32?_written (n : Int32) : int32? (.integer (ofInt32 n)) = some n := by
  simp [int32?, integer?, ofInt32, HouseLease.int32?_eq_some]

theorem uint32?_written (n : UInt32) : uint32? (.integer (ofUInt32 n)) = some n := by
  have hfits : (Int64.ofNat n.toNat).toInt = n.toNat := by
    have hn := n.toNat_lt
    rw [Int64.toInt_ofNat_of_lt]
    omega
  simp [uint32?, integer?, ofUInt32, HouseLease.uint32?_eq_some, hfits]

theorem tile?_written (t : Tile) : tile? (.table .header (tileEntries t)) = some t := by
  simp [tile?, need?, field?, tileEntries, List.lookup_cons, int32?_written]

theorem point?_written (p : Point) : point? (.table .header (pointEntries p)) = some p := by
  simp [point?, need?, field?, pointEntries, List.lookup_cons, text?, int32?_written]

theorem house?_written (h : House) : house? (.table .header (row (houseElement h))) = some h := by
  simp [house?, need?, field?, row, houseElement, houseTerms, housePlaces, tables, List.lookup_cons, text?, integer?,
    uint32?_written, point?_written, tile?_written]

theorem mapM_house?_written (hs : List House) :
    ((hs.map houseElement).map row).mapM (fun es => house? (.table .header es)) = some hs := by
  induction hs with
  | nil => rfl
  | cons h hs ih => simp only [List.map_cons, List.mapM_cons, house?_written, Option.bind_eq_bind, Option.bind_some, ih,
      Option.pure_def]

theorem storage?_written (s : Settings) :
    storage? (.table .header (("data_dir", .text s.dataDir) :: optionEntry "db_path" s.dbPath))
      = some (s.dataDir, s.dbPath) := by
  cases s.dbPath <;> simp [storage?, need?, orElse?, field?, optionEntry, List.lookup_cons, text?]

theorem logging?_written (s : Settings) :
    logging? (.table .header (("level", .text s.level) :: optionEntry "file" s.logFile))
      = some (s.level, s.logFile) := by
  cases s.logFile <;> simp [logging?, need?, named?, field?, optionEntry, List.lookup_cons, text?]

theorem lookup_group {key : String} (hkey : key ≠ "houses") : s.entries.lookup key = (tables s.groups).lookup key := by
  have hne : (key == "houses") = false := by simpa using hkey
  have hfront : s.noHouses.lookup key = none := by
    unfold noHouses
    split <;> simp [List.lookup_cons, hne]
  have hrows : ∀ elements, (rows "houses" elements).lookup key = none := by
    intro elements
    cases elements <;> simp [rows, List.lookup_cons, hne]
  rw [entries, List.lookup_append, List.lookup_append, hfront, hrows, Option.none_or, Option.or_none]

/-- The houses are under their key, and there is an empty array when there are none. -/
theorem lookup_houses (s : Settings) : ∃ v, s.entries.lookup "houses" = some v ∧ houses? v = some s.houses := by
  cases hhouses : s.houses with
  | nil => exact ⟨.array [], by simp [entries, noHouses, hhouses], rfl⟩
  | cons h hs =>
    refine ⟨.tables (s.elements.map row), ?_, ?_⟩
    · simp [entries, noHouses, elements, hhouses, tables, groups, rows, List.lookup_cons]
    · rw [houses?, elements, ← hhouses, mapM_house?_written]

theorem ofValue?_entries (s : Settings) : ofValue? (.table .header s.entries) = some s := by
  obtain ⟨houses, hlookup, hhouses⟩ := s.lookup_houses
  have hstorage : s.entries.lookup "storage"
      = some (.table .header (("data_dir", .text s.dataDir) :: optionEntry "db_path" s.dbPath)) := by
    rw [lookup_group (by decide)]
    rfl
  have hlogging : s.entries.lookup "logging"
      = some (.table .header (("level", .text s.level) :: optionEntry "file" s.logFile)) := by
    rw [lookup_group (by decide)]
    rfl
  have hhub : s.entries.lookup "hub" = some (.table .header (pointEntries s.hub)) := by
    rw [lookup_group (by decide)]
    rfl
  simp [ofValue?, need?, orElse?, field?, hstorage, hlogging, hhub, hlookup, hhouses, storage?_written,
    logging?_written, point?_written]

/-! ## The text of settings -/

theorem isBare_houseLines (h : House) : (houseLines h).all (·.isBare) = true := rfl

/-- Every key of settings is bare. -/
theorem isBare_lines (s : Settings) : ∀ l ∈ s.lines, l.isBare = true := by
  have hfront : s.frontLines.all (·.isBare) = true := by
    unfold frontLines
    split <;> rfl
  have hgroups : s.groupLines.all (·.isBare) = true := by
    unfold groupLines
    cases s.dbPath <;> cases s.logFile <;> rfl
  have hhouses : (s.houses.flatMap houseLines).all (·.isBare) = true := by
    rw [List.all_flatMap, List.all_eq_true]
    exact fun h _ => isBare_houseLines h
  rw [← List.all_eq_true, lines_eq, List.all_append, List.all_append, hfront, hgroups, hhouses]
  rfl

theorem ofText?_text (s : Settings) : ofText? s.text = some s := by
  rw [ofText?, text, Toml.layout, Toml.read?_writeLines s.isBare_lines, document?_lines, Option.map_some,
    Option.bind_some, ofValue?_entries]

/-- Settings are read back from their file the same in every field. -/
theorem settings_read_back (s : Settings) : ofBytes (Text.bytes s.text) = .ok s := by
  rw [ofBytes_bytes, ofText?_text]

end

end Settings

end HouseLease
