/-
  HouseLease.Settings.File — settings as a TOML document.

  A group of settings is a table, or an array that has its values in the order of the
  fields. Unknown keys and values after the last field are passed over. Hub and houses may
  be missing, and so may the store's directory and the log file.
-/

import HouseLease.Settings.Basic
import HouseLease.Text.Utf8
import HouseLease.Toml.Layout
import HouseLease.Toml.Reader

namespace HouseLease

open Toml (Value Line)

/-! ## Reading -/

namespace Settings

/-- The field with this name in a table, at this place in an array. -/
def field? (group : Value) (place : Nat) (name : String) : Option Value :=
  match group with
  | .table _ entries => entries.lookup name
  | .array items => items[place]?
  | .tables elements => elements[place]?.map (.table .header)
  | _ => none

def text? : Value → Option String
  | .text s => some s
  | _ => none

def integer? : Value → Option Int64
  | .integer n => some n
  | _ => none

def int32? (v : Value) : Option Int32 := (integer? v).bind fun n => HouseLease.int32? n.toInt

def uint32? (v : Value) : Option UInt32 := (integer? v).bind fun n => HouseLease.uint32? n.toInt

/-- A field that has to be there. -/
def need? {α : Type} (read : Value → Option α) (group : Value) (place : Nat) (name : String) : Option α :=
  (field? group place name).bind read

/-- A field with a value of its own where it is missing. -/
def orElse? {α : Type} (read : Value → Option α) (fallback : α) (group : Value) (place : Nat) (name : String) :
    Option α :=
  match field? group place name with
  | some v => read v
  | none => some fallback

/-- A field that a table can be without, an array cannot. -/
def named? {α : Type} (read : Value → Option α) (group : Value) (place : Nat) (name : String) : Option (Option α) :=
  match field? group place name, group with
  | some v, _ => (read v).map some
  | none, .table .. => some none
  | none, _ => none

def point? (v : Value) : Option Point := do
  let path ← need? text? v 0 "path"
  let x ← need? int32? v 1 "x"
  let y ← need? int32? v 2 "y"
  some { path, x, y }

def tile? (v : Value) : Option Tile := do
  let x ← need? int32? v 0 "x"
  let y ← need? int32? v 1 "y"
  some { x, y }

def house? (v : Value) : Option House := do
  let id ← need? text? v 0 "id"
  let displayName ← need? text? v 1 "display_name"
  let purchaseCost ← need? integer? v 2 "purchase_cost"
  let dailyFee ← need? integer? v 3 "daily_fee"
  let maxPrepaidDays ← need? uint32? v 4 "max_prepaid_days"
  let prepaidDaysOnPurchase ← need? uint32? v 5 "prepaid_days_on_purchase"
  let strayItemRadius ← need? uint32? v 6 "stray_item_radius"
  let housePortal ← need? point? v 7 "house_portal"
  let fromHubPortal ← need? point? v 8 "from_hub_portal"
  let exitPortal ← need? point? v 9 "exit_portal"
  let strayItemAnchor ← need? tile? v 10 "stray_item_anchor"
  let unpaidFeePosition ← need? tile? v 11 "unpaid_fee_position"
  some { id, displayName, purchaseCost, dailyFee, maxPrepaidDays, prepaidDaysOnPurchase, strayItemRadius,
         housePortal, fromHubPortal, exitPortal, strayItemAnchor, unpaidFeePosition }

def houses? : Value → Option (List House)
  | .array items => items.mapM house?
  | .tables elements => elements.mapM fun entries => house? (.table .header entries)
  | _ => none

/-- Data directory and the store's directory. -/
def storage? (v : Value) : Option (String × Option String) := do
  let dataDir ← need? text? v 0 "data_dir"
  let dbPath ← orElse? (fun v => (text? v).map some) none v 1 "db_path"
  some (dataDir, dbPath)

/-- Log level and log file. -/
def logging? (v : Value) : Option (String × Option String) := do
  let level ← need? text? v 0 "level"
  let logFile ← named? text? v 1 "file"
  some (level, logFile)

def ofValue? (v : Value) : Option Settings := do
  let (dataDir, dbPath) ← need? storage? v 0 "storage"
  let (level, logFile) ← need? logging? v 1 "logging"
  let hub ← orElse? point? everlink v 2 "hub"
  let houses ← orElse? houses? [greyton] v 3 "houses"
  some { dataDir, dbPath, level, logFile, hub, houses }

def ofText? (s : String) : Option Settings := (Toml.read? s).bind ofValue?

/-- Why a file holds no settings. -/
inductive FileError where
  /-- Not UTF-8. -/
  | notText
  | notSettings
  deriving DecidableEq, Repr

def ofBytes (bs : Text.Bytes) : Except FileError Settings :=
  match Text.ofBytes? bs with
  | none => .error .notText
  | some s =>
    match ofText? s with
    | none => .error .notSettings
    | some settings => .ok settings

theorem ofBytes_bytes (s : String) :
    ofBytes (Text.bytes s) = match ofText? s with
      | none => .error .notSettings
      | some settings => .ok settings := by
  rw [ofBytes, Text.ofBytes?_bytes]

/-! ## Writing -/

def ofInt32 (n : Int32) : Int64 := n.toInt64

def ofUInt32 (n : UInt32) : Int64 := Int64.ofNat n.toNat

def tileLines (t : Tile) : List Line := [.number "x" (ofInt32 t.x), .number "y" (ofInt32 t.y)]

def pointLines (p : Point) : List Line :=
  [.text "path" p.path, .number "x" (ofInt32 p.x), .number "y" (ofInt32 p.y)]

def houseLines (h : House) : List Line :=
  [.arrayHeader (.of "houses"),
    .text "id" h.id,
    .text "display_name" h.displayName,
    .number "purchase_cost" h.purchaseCost,
    .number "daily_fee" h.dailyFee,
    .number "max_prepaid_days" (ofUInt32 h.maxPrepaidDays),
    .number "prepaid_days_on_purchase" (ofUInt32 h.prepaidDaysOnPurchase),
    .number "stray_item_radius" (ofUInt32 h.strayItemRadius)]
  ++ .header ⟨["houses"], "house_portal"⟩ :: pointLines h.housePortal
  ++ .header ⟨["houses"], "from_hub_portal"⟩ :: pointLines h.fromHubPortal
  ++ .header ⟨["houses"], "exit_portal"⟩ :: pointLines h.exitPortal
  ++ .header ⟨["houses"], "stray_item_anchor"⟩ :: tileLines h.strayItemAnchor
  ++ .header ⟨["houses"], "unpaid_fee_position"⟩ :: tileLines h.unpaidFeePosition

def optionLine (key : String) : Option String → List Line
  | some s => [.text key s]
  | none => []

def lines (s : Settings) : List Line :=
  (if s.houses.isEmpty then [.emptyArray "houses"] else [])
  ++ .header (.of "storage") :: .text "data_dir" s.dataDir :: optionLine "db_path" s.dbPath
  ++ .header (.of "logging") :: .text "level" s.level :: optionLine "file" s.logFile
  ++ .header (.of "hub") :: pointLines s.hub
  ++ s.houses.flatMap houseLines

def text (s : Settings) : String := Toml.layout s.lines

end Settings

end HouseLease
