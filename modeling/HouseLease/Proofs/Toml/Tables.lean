/-
  HouseLease.Proofs.Toml.Tables — the tables that a document's assignments and headers make when
  every key is named once.

  Such a document has assignments of single keys (`keyed`), headers of tables (`headed`) and arrays
  of tables (`elements`), each header with its assignments under it; `sections_statements` takes it
  apart at its headers. Its tables have their entries in the order they were written:
  `assignAll_keyed` for assignments, `foldlM_headed` for headers, of the document's own tables
  (`foldlM_top`) or of those below an array (`foldlM_below`). A header that leads through an array of
  tables adds to the last element there is, so an element has its tables when the next one is opened
  (`foldlM_elements`).
-/

import HouseLease.Toml.Table

namespace HouseLease.Toml

/-! ## The document as it is written -/

/-- Assignments of single keys. -/
def keyed (es : Entries) : List (Path × Value) := es.map fun e => (.of e.1, e.2)

/-- A table with a header of its own below `parents`, for each group of entries. -/
def headed (parents : List String) (groups : List (String × Entries)) : List Section :=
  groups.map fun g => ⟨false, ⟨parents, g.1⟩, keyed g.2⟩

/-- An element of the array `key`, with its tables. -/
def element (key : String) (e : Entries × List (String × Entries)) : List Section :=
  ⟨true, .of key, keyed e.1⟩ :: headed [key] e.2

def Section.statements (s : Section) : List Statement :=
  (if s.isArray then .arrayHeader s.path else .header s.path) :: s.pairs.map fun p => .assign p.1 p.2

/-- No key stands twice. -/
def Distinct (es : Entries) : Prop := (es.map Prod.fst).Nodup

/-! ## Its tables -/

/-- The groups as tables. -/
def tables (groups : List (String × Entries)) : Entries := groups.map fun g => (g.1, .table .header g.2)

/-- An array of tables under its key, once there is an element. -/
def rows (key : String) : List Entries → Entries
  | [] => []
  | elements => [(key, .tables elements)]

/-- The entries of an element, its tables behind them. -/
def row (e : Entries × List (String × Entries)) : Entries := e.1 ++ tables e.2

section

variable {key : String} {v : Value} {es sub : Entries} {pairs : List (Path × Value)} {rest : List Statement}

/-! ## Taking a document apart -/

theorem sections_assignments (pairs : List (Path × Value)) (rest : List Statement) :
    sections (pairs.map (fun p => .assign p.1 p.2) ++ rest) = (pairs ++ (sections rest).1, (sections rest).2) := by
  induction pairs with
  | nil => rfl
  | cons p ps ih => rw [List.map_cons, List.cons_append, sections, ih, List.cons_append]

/-- Nothing stands in front of a header, so each section has its own assignments and no others. -/
theorem sections_statements (ss : List Section) : sections (ss.flatMap Section.statements) = ([], ss) := by
  induction ss with
  | nil => rfl
  | cons s ss ih =>
    obtain ⟨isArray, path, pairs⟩ := s
    rw [List.flatMap_cons, Section.statements]
    cases isArray <;> simp [sections, sections_assignments, ih]

/-! ## Assignments -/

theorem assign_new (hkey : es.lookup key = none) : assign es (.of key, v) = some (es ++ [(key, v)]) := by
  simp [assign, Path.of, descend, addEntry, hkey]

theorem lookup_of_distinct {more : Entries} (h : Distinct (es ++ (key, v) :: more)) : es.lookup key = none := by
  rw [Distinct, List.map_append, List.map_cons] at h
  rw [List.lookup_eq_none_iff]
  intro e he
  have hne : e.1 ≠ key :=
    (List.nodup_append.mp h).2.2 e.1 (List.mem_map_of_mem he) key List.mem_cons_self
  simpa using hne.symm

theorem assignAll_keyed {added : Entries} (h : Distinct (es ++ added)) :
    assignAll es (keyed added) = some (es ++ added) := by
  induction added generalizing es with
  | nil => simp [keyed, assignAll]
  | cons e added ih =>
    obtain ⟨key, v⟩ := e
    have hnew : es.lookup key = none := lookup_of_distinct h
    have hrest : Distinct ((es ++ [(key, v)]) ++ added) := by simpa using h
    have hassigned := ih hrest
    rw [assignAll] at hassigned ⊢
    rw [keyed, List.map_cons, List.foldlM_cons, assign_new hnew, Option.bind_eq_bind, Option.bind_some, ← keyed,
      hassigned]
    simp

/-! ## Tables -/

theorem addTable_new (hkey : es.lookup key = none) (hsub : Distinct sub) (parents : List String) :
    addTable ⟨false, ⟨parents, key⟩, keyed sub⟩ es = some (es ++ [(key, .table .header sub)]) := by
  have hassigned : assignAll [] (keyed sub) = some sub := assignAll_keyed hsub
  simp [addTable, hkey, hassigned]

/-- Headers in a row, whatever the document looks like around the table they add to. -/
theorem foldlM_headed {parents : List String} {groups : List (String × Entries)} (around : Entries → Entries)
    (hstep : ∀ es k sub, es.lookup k = none → Distinct sub →
      addSection (around es) ⟨false, ⟨parents, k⟩, keyed sub⟩ = some (around (es ++ [(k, .table .header sub)])))
    (hkeys : Distinct (es ++ tables groups)) (hgroups : ∀ g ∈ groups, Distinct g.2) :
    (headed parents groups).foldlM addSection (around es) = some (around (es ++ tables groups)) := by
  induction groups generalizing es with
  | nil => simp [headed, tables]
  | cons g groups ih =>
    obtain ⟨hsub, hgroups⟩ := List.forall_mem_cons.mp hgroups
    have hadded := hstep es g.1 g.2 (lookup_of_distinct hkeys) hsub
    have hrest : Distinct ((es ++ [(g.1, .table .header g.2)]) ++ tables groups) := by simpa [tables] using hkeys
    rw [headed, List.map_cons, List.foldlM_cons, hadded, Option.bind_eq_bind, Option.bind_some, ← headed,
      ih hrest hgroups]
    simp [tables]

/-- Tables of the document itself. -/
theorem foldlM_top {groups : List (String × Entries)} (hkeys : Distinct (es ++ tables groups))
    (hgroups : ∀ g ∈ groups, Distinct g.2) : (headed [] groups).foldlM addSection es = some (es ++ tables groups) := by
  refine foldlM_headed id ?_ hkeys hgroups
  intro es k sub hk hsub
  exact addTable_new hk hsub []

/-! ## Arrays of tables -/

theorem rows_concat (key : String) (done : List Entries) (last : Entries) :
    rows key (done ++ [last]) = [(key, .tables (done ++ [last]))] := by
  cases done <;> rfl

theorem lookup_last (hkey : es.lookup key = none) (v : Value) : (es ++ [(key, v)]).lookup key = some v := by
  simp [List.lookup_append, hkey]

theorem replaceEntry_last (hkey : es.lookup key = none) (old v : Value) :
    replaceEntry key v (es ++ [(key, old)]) = es ++ [(key, v)] := by
  have hkept : replaceEntry key v es = es := by
    unfold replaceEntry
    refine (List.map_congr_left fun e he => ?_).trans (List.map_id es)
    have hne : key ≠ e.1 := by simpa using List.lookup_eq_none_iff.mp hkey e he
    exact if_neg hne.symm
  rw [replaceEntry, List.map_append, ← replaceEntry, hkept]
  simp

/-- An element is opened behind those there are. -/
theorem addSection_element (hkey : es.lookup key = none) (hsub : Distinct sub) (done : List Entries) :
    addSection (es ++ rows key done) ⟨true, .of key, keyed sub⟩ = some (es ++ rows key (done ++ [sub])) := by
  have hassigned : assignAll [] (keyed sub) = some sub := assignAll_keyed hsub
  rcases List.eq_nil_or_concat done with rfl | ⟨done, last, rfl⟩
  · simp [addSection, Path.of, descend, addTable, rows, hkey, hassigned]
  · rw [List.concat_eq_append]
    simp only [addSection, Path.of, descend, addTable, rows_concat, lookup_last hkey, hassigned, Option.map_some,
      replaceEntry_last hkey]

/-- A table below an array is one of its last element. -/
theorem addSection_below {k : String} {last : Entries} (hkey : es.lookup key = none) (hk : last.lookup k = none)
    (hsub : Distinct sub) (done : List Entries) :
    addSection (es ++ rows key (done ++ [last])) ⟨false, ⟨[key], k⟩, keyed sub⟩
      = some (es ++ rows key (done ++ [last ++ [(k, .table .header sub)]])) := by
  simp only [addSection, descend, rows_concat, lookup_last hkey, List.getLast?_concat, addTable_new hk hsub,
    Option.map_some, List.dropLast_concat, replaceEntry_last hkey]

/-- Tables of the last element. -/
theorem foldlM_below {groups : List (String × Entries)} {last : Entries} (hkey : es.lookup key = none)
    (hkeys : Distinct (last ++ tables groups)) (hgroups : ∀ g ∈ groups, Distinct g.2) (done : List Entries) :
    (headed [key] groups).foldlM addSection (es ++ rows key (done ++ [last]))
      = some (es ++ rows key (done ++ [last ++ tables groups])) := by
  refine foldlM_headed (fun last => es ++ rows key (done ++ [last])) ?_ hkeys hgroups
  intro last k sub hk hsub
  exact addSection_below hkey hk hsub done

/-- An array of tables, element by element; `done` are the elements so far. -/
theorem foldlM_elements {elements : List (Entries × List (String × Entries))} (hkey : es.lookup key = none)
    (hrows : ∀ e ∈ elements, Distinct (row e)) (hgroups : ∀ e ∈ elements, ∀ g ∈ e.2, Distinct g.2)
    (done : List Entries) :
    (elements.flatMap (element key)).foldlM addSection (es ++ rows key done)
      = some (es ++ rows key (done ++ elements.map row)) := by
  induction elements generalizing done with
  | nil => simp
  | cons e elements ih =>
    obtain ⟨hrow, hrows⟩ := List.forall_mem_cons.mp hrows
    obtain ⟨hsubs, hgroups⟩ := List.forall_mem_cons.mp hgroups
    have hhead : Distinct e.1 := by
      rw [Distinct, row, List.map_append] at hrow
      exact (List.nodup_append.mp hrow).1
    rw [List.flatMap_cons, List.foldlM_append, element, List.foldlM_cons, addSection_element hkey hhead,
      Option.bind_eq_bind, Option.bind_some, foldlM_below hkey hrow hsubs, Option.bind_some, ← row,
      ih hrows hgroups]
    simp

end

end HouseLease.Toml
