/-
  HouseLease.Proofs.Console.Failures — what a run that failed has changed.

  Writing files and making directories changes no store (`SameStores`). So a run leaves all stores as
  they are, or it carries out an errand on one of them and keeps what the errand left there
  (`Directory.run_task`); `Directory.task?` says which runs come to an errand. An errand that failed left
  its store as it was unless it overstepped, and then a record is another one than before although the
  run reports an error (`failed_runs_change_nothing_iff`). A house with enough days of fees in its price
  does that to its first buyer (`a_failed_run_has_bought`).
-/

import HouseLease.Console.Run
import HouseLease.Proofs.Console.Changes
import HouseLease.Proofs.Settings.ReadBack

namespace HouseLease.Console

open Text (Bytes)

/-! ## Files and stores -/

/-- The records in a directory; a file has none. -/
def Node.records : Node → Store
  | .file _ => .empty
  | .directory store => store

namespace Directory

def SameStores (d d' : Directory) : Prop := ∀ place, d'.storeAt place = d.storeAt place

theorem SameStores.refl (d : Directory) : SameStores d d := fun _ => rfl

theorem SameStores.trans {a b c : Directory} (h : SameStores a b) (h' : SameStores b c) : SameStores a c :=
  fun place => (h' place).trans (h place)

variable {d d' : Directory}

theorem find?_put (d : Directory) (place k : Place) (n : Node) :
    (d.put place n).find? k = if k = place then some n else d.find? k := lookup_cons_filter ..

theorem storeAt_put (d : Directory) (place k : Place) (n : Node) :
    (d.put place n).storeAt k = if k = place then n.records else d.storeAt k := by
  unfold storeAt
  rw [find?_put]
  by_cases hk : k = place
  · rw [if_pos hk, if_pos hk]
    cases n <;> rfl
  · rw [if_neg hk, if_neg hk]

theorem sameStores_put {place : Place} {n : Node} (hold : d.storeAt place = .empty) (hnew : n.records = .empty) :
    SameStores d (d.put place n) := by
  intro k
  rw [storeAt_put]
  split
  · rename_i hk
    rw [hk, hold, hnew]
  · rfl

/-- A file takes the place of a file, or of nothing. -/
theorem edit_sameStores {path : String} {change : Bytes → Bytes} (h : d.edit path change = .ok d') :
    SameStores d d' := by
  unfold edit at h
  cases hp : Path.ofText path with
  | error e =>
    rw [hp] at h
    cases h
  | ok p =>
    cases ht : d.target p with
    | error e =>
      simp only [hp, ht, bind, Except.bind] at h
      cases h
    | ok place? =>
      simp only [hp, ht, bind, Except.bind] at h
      split at h
      · cases h
      · split at h
        · cases h
        · split at h
          · rename_i hnone
            cases h
            exact sameStores_put (by simp only [storeAt, hnone]) rfl
          · rename_i hfile
            cases h
            exact sameStores_put (by simp only [storeAt, hfile]) rfl
          · cases h

theorem change_sameStores (d : Directory) (path : String) (f : Bytes → Bytes) : SameStores d (d.change path f).2 := by
  unfold change
  cases h : d.edit path f with
  | ok d' => exact edit_sameStores h
  | error e => exact .refl d

/-- A new directory takes the place of nothing. -/
theorem make_sameStores {p : Path} (h : d.make p = .ok d') : SameStores d d' := by
  unfold make at h
  cases ht : d.target p with
  | error e =>
    simp only [ht, bind, Except.bind] at h
    cases h
  | ok place? =>
    simp only [ht, bind, Except.bind] at h
    split at h
    · cases h
    · split at h
      · cases h
      · rename_i hnone
        cases h
        exact sameStores_put (by simp only [storeAt, hnone]) rfl

theorem makeAll_sameStores (d : Directory) (p : Path) : SameStores d (d.makeAll p).2 := by
  have hway {d' : Directory} {p : Path} {r : Except SystemError Unit}
      (ih : ¬p.parent.names = [] → SameStores d (d.makeAll p.parent).2)
      (h : (if _h : p.parent.names = [] then (.ok (), d) else d.makeAll p.parent) = (r, d')) : SameStores d d' := by
    split at h
    · cases h
      exact .refl d
    · rename_i hp
      have hmade := ih hp
      rw [h] at hmade
      exact hmade
  fun_induction makeAll d p with
  | case1 p made hmade => exact make_sameStores hmade
  | case2 p _ _ stopped hstopped ih => exact hway ih hstopped
  | case3 p _ _ way hmade made hlast ih => exact (hway ih hmade).trans (make_sameStores hlast)
  | case4 p _ _ way hmade _ _ ih => exact hway ih hmade
  | case5 p _ _ _ => exact .refl d

/-- Where the store with this path lies. -/
def storePlace (d : Directory) (path : String) : Except SystemError Place := do
  let p ← Path.ofDirectory path
  d.follow (start p) p.names

theorem openStore_sameStores (d : Directory) (path : String) : SameStores d (d.openStore path).2 := by
  unfold openStore
  split
  · exact .refl d
  · rename_i p _
    have hmade := makeAll_sameStores d p
    split
    · rename_i hrun
      rw [hrun] at hmade
      exact hmade
    · rename_i hrun
      rw [hrun] at hmade
      exact hmade

theorem openStore_ok {path : String} {store : Store} (h : d.openStore path = (.ok store, d')) :
    ∃ place, d'.storePlace path = .ok place ∧ store = d'.storeAt place := by
  unfold openStore at h
  unfold storePlace
  split at h
  · cases h
  · rename_i p hp
    split at h
    · cases h
    · rename_i made _
      obtain ⟨hstore, rfl⟩ := Prod.mk.inj h
      cases hf : made.follow (start p) p.names with
      | error e =>
        rw [hf] at hstore
        cases hstore
      | ok place =>
        rw [hf] at hstore
        cases hstore
        exact ⟨place, by simp only [hp, bind, Except.bind]; exact hf, rfl⟩

theorem storeAt_saveStore {path : String} {place : Place} (store : Store) (h : d.storePlace path = .ok place)
    (k : Place) : (d.saveStore path store).storeAt k = if k = place then store else d.storeAt k := by
  have hsave : d.saveStore path store = d.put place (.directory store) := by
    unfold saveStore
    unfold storePlace at h
    rw [h]
  rw [hsave]
  exact storeAt_put ..

end Directory

open Directory

/-! ## What keeps the stores -/

theorem bind_apply {α β : Type} (x : StateM Directory α) (f : α → StateM Directory β) (d : Directory) :
    (x >>= f) d = f (x d : α × Directory).1 (x d : α × Directory).2 := rfl

theorem read_apply (path : String) (d : Directory) : host.read path d = (d.read path, d) := rfl

/-- A part of a run that changes no store. -/
def Keeps {α : Type} (x : StateM Directory α) : Prop := ∀ d, SameStores d (x d : α × Directory).2

namespace Keeps

variable {α β : Type}

theorem pure (a : α) : Keeps (Pure.pure a : StateM Directory α) := fun d => .refl d

theorem bind {x : StateM Directory α} {f : α → StateM Directory β} (hx : Keeps x) (hf : ∀ a, Keeps (f a)) :
    Keeps (x >>= f) := fun d => (hx d).trans (hf _ _)

theorem write (path : String) (content : Bytes) : Keeps (host.write path content) :=
  fun d => change_sameStores d path _

theorem append (path : String) (content : Bytes) : Keeps (host.append path content) :=
  fun d => change_sameStores d path _

theorem openLog (file : Option String) : Keeps (Console.openLog host file) := by
  cases file with
  | none => exact pure none
  | some path =>
    refine bind (append path []) fun r => ?_
    cases r with
    | ok _ => exact pure (some path)
    | error _ => exact pure none

theorem writeLog (file : Option String) (lines : List String) : Keeps (Console.writeLog host file lines) := by
  cases file with
  | none => exact pure lines
  | some path =>
    refine bind (append path _) fun r => ?_
    cases r with
    | ok _ => exact pure []
    | error _ => exact pure lines

theorem init (now : Option Instant) {o : Order} (h : o.command = .init) : Keeps (o.run host now) := by
  unfold Order.run Order.init
  rw [if_pos h]
  cases now with
  | none => exact pure _
  | some now =>
    refine bind (write o.config _) fun r => ?_
    cases r with
    | ok _ => exact pure _
    | error _ => exact pure _

theorem houses (now : Option Instant) {o : Order} (h : o.command = .houses) : Keeps (o.run host now) := by
  unfold Order.run Order.runCommand
  rw [h]
  refine bind (fun d => .refl d) fun content => ?_
  cases content with
  | error e => exact pure _
  | ok content =>
    dsimp only
    split
    · exact pure _
    · exact pure _
    · rename_i settings _
      refine bind (openLog settings.logFile) fun log => ?_
      cases settings.catalog with
      | error flaw => exact pure _
      | ok catalog => exact pure _

end Keeps

/-! ## Tasks -/

/-- An errand, and what it is carried out on. -/
structure Task where
  errand : Errand
  setting : Setting
  /-- Where the store lies. -/
  place : Place

namespace Task

/-- The errand as it ends on the store that lies in the directory. -/
def result (t : Task) (d : Directory) : Except Stop Unit × Session := t.errand.run t.setting (d.storeAt t.place)

/-- The task is what a run in `d` did, and all it did to stores. -/
structure Done (t : Task) (d : Directory) (left : Outcome × Directory) : Prop where
  ending : left.1.ending = .ofStop (t.result d).1
  stores : ∀ place, left.2.storeAt place = if place = t.place then (t.result d).2.visit.store else d.storeAt place

theorem Done.after {t : Task} {d d' : Directory} {left : Outcome × Directory} (hsame : SameStores d d')
    (h : t.Done d' left) : t.Done d left := by
  obtain ⟨hending, hstores⟩ := h
  have hresult : t.result d' = t.result d := by rw [result, result, hsame t.place]
  rw [hresult] at hending hstores
  refine ⟨hending, fun place => ?_⟩
  rw [hstores place, hsame place]

theorem Done.stored {t : Task} {d : Directory} {left : Outcome × Directory} (h : t.Done d left) :
    left.2.storeAt t.place = (t.result d).2.visit.store := (h.stores t.place).trans (if_pos rfl)

theorem Done.sameStores {t : Task} {d : Directory} {left : Outcome × Directory} (h : t.Done d left)
    (hstore : (t.result d).2.visit.store = d.storeAt t.place) : SameStores d left.2 := by
  intro place
  rw [h.stores place]
  split
  · rename_i hplace
    rw [hstore, hplace]
  · rfl

end Task

/-- The place of the store, if a run with these settings opens it and has the time to note that. -/
def Order.site? (o : Order) (now : Option Instant) (settings : Settings) (d : Directory) : Option Place := do
  let (.ok _, d) := d.openStore settings.storePath | none
  let some _ := stamp? now (kept settings.logLevel o.verbosity) [openingLine settings.storePath] | none
  let .ok place := d.storePlace settings.storePath | none
  some place

/-- What a run with these words comes to do, if it comes to an errand. -/
def Directory.task? (d : Directory) (now : Option Instant) (words : List String) : Option Task := do
  let some (.order o) := Request.ofWords? words | none
  let .errand errand := o.command | none
  let .ok content := d.read o.config | none
  let .ok settings := Settings.ofBytes content | none
  let .ok catalog := settings.catalog | none
  let opened : Option String × Directory := openLog host settings.logFile d
  let some place := o.site? now settings opened.2 | none
  some { errand, setting := { catalog, now := now.map (·.timestamp), wall := now }, place }

/-! ## Runs -/

/-- A run of the program in a directory: how it ends, and the directory it leaves. -/
def Directory.run (d : Directory) (now : Option Instant) (words : List String) : Outcome × Directory :=
  Console.run host now words d

theorem Order.runErrand_site (o : Order) (now : Option Instant) (settings : Settings) (catalog : Catalog)
    (log : Option String) (e : Errand) (d : Directory) :
    match o.site? now settings d with
    | none => SameStores d (o.runErrand host now settings catalog log e d : Outcome × Directory).2
    | some place => Task.Done ⟨e, { catalog, now := now.map (·.timestamp), wall := now }, place⟩ d
        (o.runErrand host now settings catalog log e d) := by
  have hmade := openStore_sameStores d settings.storePath
  unfold Order.site? Order.runErrand
  simp only [bind, StateT.bind, host]
  cases hopen : d.openStore settings.storePath with
  | mk r made =>
    rw [hopen] at hmade
    cases r with
    | error e => exact hmade
    | ok store =>
      obtain ⟨place, hplace, rfl⟩ := openStore_ok hopen
      cases hstamp : stamp? now (kept settings.logLevel o.verbosity) [openingLine settings.storePath] with
      | none => exact hmade
      | some opened =>
        simp only [hplace]
        refine Task.Done.after hmade ⟨rfl, fun k => ?_⟩
        exact (Keeps.writeLog log _ _ k).trans (storeAt_saveStore _ hplace k)

/-- A run does the task it comes to, or keeps all stores. -/
theorem Directory.run_task (d : Directory) (now : Option Instant) (words : List String) :
    match d.task? now words with
    | none => SameStores d (d.run now words).2
    | some t => t.Done d (d.run now words) := by
  unfold task? Directory.run Console.run
  cases Request.ofWords? words with
  | none => exact .refl d
  | some request =>
    cases request with
    | version | help => exact .refl d
    | order o =>
      obtain ⟨config, verbosity, command⟩ := o
      cases command with
      | init => exact Keeps.init now rfl d
      | houses => exact Keeps.houses now rfl d
      | errand e =>
        unfold Order.run Order.runCommand
        dsimp only
        rw [if_neg Command.noConfusion]
        simp only [bind_apply, read_apply]
        cases d.read config with
        | error error => exact SameStores.refl d
        | ok content =>
          dsimp only
          cases Settings.ofBytes content with
          | error error => cases error <;> exact SameStores.refl d
          | ok settings =>
            have hlogged := Keeps.openLog settings.logFile d
            simp only [bind_apply]
            generalize (openLog host settings.logFile d : Option String × Directory) = opened at hlogged ⊢
            cases settings.catalog with
            | error flaw => exact hlogged
            | ok catalog =>
              have hsite := Order.runErrand_site ⟨config, verbosity, .errand e⟩ now settings catalog opened.1 e opened.2
              dsimp only
              cases hplace : Order.site? ⟨config, verbosity, .errand e⟩ now settings opened.2 with
              | none =>
                rw [hplace] at hsite
                exact hlogged.trans hsite
              | some place =>
                rw [hplace] at hsite
                exact hsite.after hlogged

/-! ## Runs that failed -/

namespace Directory

/-- Every player's record is there or not as it was, with the texts it had. -/
def SameTexts (d d' : Directory) : Prop :=
  ∀ place player, (d'.storeAt place).texts player = (d.storeAt place).texts player

/-- The run comes to an errand that leaves more behind than its failure tells. -/
def Oversteps (d : Directory) (now : Option Instant) (words : List String) : Prop :=
  ∃ t, d.task? now words = some t ∧ t.errand.Oversteps t.setting (d.storeAt t.place)

theorem SameStores.texts {d d' : Directory} (h : SameStores d d') : SameTexts d d' :=
  fun place player => by rw [h place]

end Directory

/-- Exit status 1 stands for a fault. -/
theorem Ending.fault_of_code {r : Except Stop Unit} (h : (Ending.ofStop r).code = 1) :
    ∃ f, r = .error (.fault f) := by
  cases r with
  | ok _ => cases h
  | error stop =>
    cases stop with
    | fault f => exact ⟨f, rfl⟩
    | overflow _ | noTime => cases h

/-- A run opens its store to a disk that takes what is flushed. -/
theorem Directory.task?_flushes {d : Directory} {now : Option Instant} {words : List String} {t : Task}
    (ht : d.task? now words = some t) : t.setting.Flushes := by
  unfold task? at ht
  dsimp only at ht
  repeat' split at ht
  all_goals cases ht
  exact ⟨rfl, rfl⟩

theorem Task.Done.sameStores_of_failed {t : Task} {d : Directory} {left : Outcome × Directory} (h : t.Done d left)
    (hs : t.setting.Flushes) (hfailed : left.1.ending.code = 1) (hkept : ¬t.errand.Oversteps t.setting (d.storeAt t.place)) :
    SameStores d left.2 := by
  rw [h.ending] at hfailed
  obtain ⟨f, hf⟩ := Ending.fault_of_code hfailed
  exact h.sameStores ((Errand.store_of_fault hs (Prod.ext hf rfl)).resolve_right hkept)

theorem Task.Done.texts_ne {t : Task} {d : Directory} {left : Outcome × Directory} (h : t.Done d left)
    (hs : t.setting.Flushes) (hover : t.errand.Oversteps t.setting (d.storeAt t.place)) : ¬SameTexts d left.2 := by
  obtain ⟨f, session, player, hrun, hne⟩ := Errand.changed_of_oversteps hs hover
  intro hsame
  have htexts := hsame t.place player
  rw [h.stored, Task.result, hrun] at htexts
  exact hne htexts

/-- A run that ends with exit status 1 has left every record as it was, or it has overstepped, never both; and with the
    records every store of the tree is as it was. -/
theorem failed_runs_change_nothing_iff {d : Directory} {now : Option Instant} {words : List String}
    (hfailed : (d.run now words).1.ending.code = 1) :
    (SameTexts d (d.run now words).2 ↔ ¬d.Oversteps now words) ∧
      (SameTexts d (d.run now words).2 → SameStores d (d.run now words).2) := by
  have htask := d.run_task now words
  have hstores : ¬d.Oversteps now words → SameStores d (d.run now words).2 := by
    intro hkept
    cases ht : d.task? now words with
    | none =>
      rw [ht] at htask
      exact htask
    | some t =>
      rw [ht] at htask
      exact htask.sameStores_of_failed (task?_flushes ht) hfailed fun hover => hkept ⟨t, ht, hover⟩
  have hiff : SameTexts d (d.run now words).2 ↔ ¬d.Oversteps now words := by
    refine ⟨?_, fun hkept => (hstores hkept).texts⟩
    rintro hsame ⟨t, ht, hover⟩
    rw [ht] at htask
    exact htask.texts_ne (task?_flushes ht) hover hsame
  exact ⟨hiff, fun hsame => hstores (hiff.mp hsame)⟩

/-! ### An inn paid for too far ahead -/

/-- A house with a hundred million days of fees in its price. -/
def inn : House where
  id := "inn"
  displayName := "Inn"
  purchaseCost := 9
  dailyFee := 1
  maxPrepaidDays := 100000000
  prepaidDaysOnPurchase := 100000000
  strayItemRadius := 4
  housePortal := ⟨"/h", 1, 2⟩
  fromHubPortal := ⟨"/f", 3, 4⟩
  exitPortal := ⟨"/e", 5, 6⟩
  strayItemAnchor := ⟨7, 8⟩
  unpaidFeePosition := ⟨9, 10⟩

def innSettings : Settings := { dataDir := "d", dbPath := some "r", level := "info", houses := [inn] }

/-- A working directory with nothing but a settings file. -/
def settled (content : Bytes) : Directory := Directory.empty.put ["work", "c"] (.file content)

def innkeeper : Directory := settled (Text.bytes innSettings.text)

def aNight : Option Instant := Instant.make? 1700000000 0

def annBuys (house : String) : List String :=
  ["-c", "c", "buy", "--player", "ann", "--house", house, "--funds", "10"]

def annsPurchase (house : String) : Task where
  errand := .buy "ann" house 10
  setting := { catalog := ⟨[inn], everlink⟩, now := some 1700000000, wall := aNight }
  place := ["work", "r"]

theorem settled_storeAt (content : Bytes) : (settled content).storeAt ["work", "r"] = .empty := rfl

theorem ofBytes_innSettings : Settings.ofBytes (Text.bytes innSettings.text) = .ok innSettings := by
  rw [Settings.ofBytes_bytes, Settings.ofText?_text]

/-- A name of one letter is a path of its own. -/
theorem ofText_letter {s : String} (hs : s ∈ ["c", "r"]) : Path.ofText s = .ok ⟨false, [s], false⟩ := by
  have hwalk : s.splitOnAux "/" 0 0 0 [] = [s] := by
    rw [String.splitOnAux, if_neg (by revert s; decide +kernel), if_neg (by revert s; decide +kernel),
      String.splitOnAux, if_pos (by revert s; decide +kernel)]
    revert s
    decide +kernel
  have hsplit : s.splitOn "/" = [s] := hwalk
  unfold Path.ofText
  rw [hsplit]
  clear hwalk hsplit
  revert s
  decide +kernel

theorem settled_read (content : Bytes) : (settled content).read "c" = .ok content := by
  have hpath : Path.ofText "c" = .ok ⟨false, ["c"], false⟩ := ofText_letter (by decide)
  unfold Directory.read
  rw [hpath]
  rfl

/-- The store is opened in a new directory. -/
theorem settled_site (content : Bytes) {o : Order} (hquiet : o.verbosity = 0) :
    o.site? aNight innSettings (settled content) = some ["work", "r"] := by
  have hpath : Path.ofDirectory "r" = .ok ⟨false, ["r"], false⟩ := ofText_letter (s := "r") (by decide)
  have hopen : (settled content).openStore "r" =
      (.ok .empty, (settled content).put ["work", "r"] (.directory .empty)) := by
    unfold openStore
    rw [hpath]
    dsimp only
    rw [makeAll]
    rfl
  have hplace : ((settled content).put ["work", "r"] (.directory .empty)).storePlace "r" = .ok ["work", "r"] := by
    unfold storePlace
    rw [hpath]
    rfl
  have hlevel : innSettings.logLevel = .info := by decide +kernel
  unfold Order.site?
  rw [show innSettings.storePath = "r" from rfl, hopen, hquiet, hlevel]
  dsimp only
  rw [hplace]
  rfl

theorem settled_task {content : Bytes} {house : String} (hcontent : Settings.ofBytes content = .ok innSettings)
    (hwords : Request.ofWords? (annBuys house) = some (.order ⟨"c", 0, .errand (.buy "ann" house 10)⟩)) :
    (settled content).task? aNight (annBuys house) = some (annsPurchase house) := by
  have hlog : (openLog host innSettings.logFile (settled content) : Option String × Directory)
      = (none, settled content) := rfl
  unfold task?
  rw [hwords]
  dsimp only
  rw [settled_read]
  dsimp only
  rw [hcontent]
  dsimp only
  rw [show innSettings.catalog = .ok ⟨[inn], everlink⟩ from rfl]
  dsimp only
  rw [hlog]
  dsimp only
  rw [settled_site content rfl]
  rfl

theorem innkeeper_done {house : String}
    (hwords : Request.ofWords? (annBuys house) = some (.order ⟨"c", 0, .errand (.buy "ann" house 10)⟩)) :
    (annsPurchase house).Done innkeeper (innkeeper.run aNight (annBuys house)) := by
  have htask := innkeeper.run_task aNight (annBuys house)
  rwa [innkeeper, settled_task ofBytes_innSettings hwords] at htask

theorem inn_done : (annsPurchase "inn").Done innkeeper (innkeeper.run aNight (annBuys "inn")) :=
  innkeeper_done rfl

theorem hut_done : (annsPurchase "hut").Done innkeeper (innkeeper.run aNight (annBuys "hut")) :=
  innkeeper_done rfl

theorem annsPurchase_result (house : String) : (annsPurchase house).result innkeeper =
    (Errand.buy "ann" house 10).run (annsPurchase house).setting .empty := by
  rw [Task.result, innkeeper, annsPurchase, settled_storeAt]

theorem inn_result : ((annsPurchase "inn").result innkeeper).1 = .error (.fault (.timestampOutOfRange 8641700000000)) ∧
    ((annsPurchase "inn").result innkeeper).2.visit.store.texts "ann"
      = .ok (some ("[[\"inn\",8641700000000]]", none)) := by
  rw [annsPurchase_result]
  decide +kernel

theorem hut_result : ((annsPurchase "hut").result innkeeper).1 = .error (.fault (.unknownHouse "hut")) ∧
    ((annsPurchase "hut").result innkeeper).2.visit.store = .empty := by
  rw [annsPurchase_result]
  exact ⟨rfl, rfl⟩

theorem innkeeper_texts : (innkeeper.storeAt ["work", "r"]).texts "ann" = .ok none := by
  rw [innkeeper, settled_storeAt]
  rfl

/-- Ann buys the inn, the run reports an error, and the inn is hers. -/
theorem a_failed_run_has_bought :
    let left := innkeeper.run aNight (annBuys "inn")
    left.1.ending = .failed (.fault (.timestampOutOfRange 8641700000000)) ∧ left.1.ending.code = 1 ∧
      (innkeeper.storeAt ["work", "r"]).texts "ann" = .ok none ∧
      (left.2.storeAt ["work", "r"]).texts "ann" = .ok (some ("[[\"inn\",8641700000000]]", none)) := by
  intro left
  have hending : left.1.ending = .failed (.fault (.timestampOutOfRange 8641700000000)) := by
    rw [inn_done.ending, inn_result.1]
    rfl
  have hstored : left.2.storeAt ["work", "r"] = ((annsPurchase "inn").result innkeeper).2.visit.store := inn_done.stored
  exact ⟨hending, by rw [hending]; rfl, innkeeper_texts, by rw [hstored, inn_result.2]⟩

/-- That run has overstepped; one that asks for a house not on offer fails too, and has not. -/
theorem an_inn_oversteps_a_hut_does_not :
    (innkeeper.run aNight (annBuys "inn")).1.ending.code = 1 ∧ innkeeper.Oversteps aNight (annBuys "inn") ∧
      (innkeeper.run aNight (annBuys "hut")).1.ending.code = 1 ∧ ¬innkeeper.Oversteps aNight (annBuys "hut") := by
  have hinn : (innkeeper.run aNight (annBuys "inn")).1.ending.code = 1 := by
    rw [inn_done.ending, inn_result.1]
    rfl
  have hhut : (innkeeper.run aNight (annBuys "hut")).1.ending.code = 1 := by
    rw [hut_done.ending, hut_result.1]
    rfl
  refine ⟨hinn, Classical.not_not.mp fun hkept => ?_, hhut, ?_⟩
  · have hsame := (failed_runs_change_nothing_iff hinn).1.mpr hkept ["work", "r"] "ann"
    rw [show (innkeeper.run aNight (annBuys "inn")).2.storeAt ["work", "r"] = _ from inn_done.stored, inn_result.2,
      innkeeper_texts] at hsame
    cases hsame
  · have hstore : innkeeper.storeAt ["work", "r"] = .empty := settled_storeAt _
    exact (failed_runs_change_nothing_iff hhut).1.mp (hut_done.sameStores (hut_result.2.trans hstore.symm)).texts

end HouseLease.Console
