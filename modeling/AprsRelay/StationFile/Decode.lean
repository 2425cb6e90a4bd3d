import AprsRelay.StationFile.Settings
import AprsRelay.Toml.Document

/-!
# Reading Station Files

Settings are read off the root table of a TOML document. Keys without a
meaning are passed over, keys with one need a value of the right kind. A group
of settings may be written as a table or as a list, whose items then are the
settings of the group in order; what is missing at its end keeps its standard
value.

## Main definitions

* `SettingsGroup`: A group of settings, by name or in order.
* `Settings.ofEntries?`: The settings in the root table of a document.
* `Settings.parse`: The settings in a text, or why there are none.
-/

namespace AprsRelay

/-- A group of settings, written by name or in order. -/
inductive SettingsGroup where
  | named (entries : Toml.Entries)
  | listed (values : List Toml.Value)

namespace SettingsGroup

/-- The group that a value stands for. A point in time counts as a group that
    sets nothing. -/
def ofValue? : Toml.Value → Option SettingsGroup
  | .table _ entries => some (named entries)
  | .array items => some (listed items)
  | .tables elements => some (listed (elements.map (.table .header)))
  | .moment => some (named [])
  | .string _ | .boolean _ | .number => none

/-- The value of a setting, given its name and its place in the group. -/
def get? (name : String) (index : Nat) : SettingsGroup → Option Toml.Value
  | named entries => entries.get? name
  | listed values => values[index]?

/-- A setting that has a standard value. -/
def read {α : Type} (g : SettingsGroup) (name : String) (index : Nat)
    (ofValue : Toml.Value → Option α) (standard : α) : Option α :=
  match g.get? name index with
  | none => some standard
  | some value => ofValue value

/-- A setting that has none. -/
def require {α : Type} (g : SettingsGroup) (name : String) (index : Nat)
    (ofValue : Toml.Value → Option α) : Option α :=
  (g.get? name index).bind ofValue

end SettingsGroup

/-- A value as a text. -/
def textOf? : Toml.Value → Option String
  | .string s => some s
  | _ => none

/-- A value as a yes or no. -/
def flagOf? : Toml.Value → Option Bool
  | .boolean b => some b
  | _ => none

/-- A value as a list of values. -/
def listOf? : Toml.Value → Option (List Toml.Value)
  | .array items => some items
  | .tables elements => some (elements.map (.table .header))
  | _ => none

/-- What a value says about an interface. -/
def InterfaceSettings.ofValue? (v : Toml.Value) : Option InterfaceSettings := do
  let g ← SettingsGroup.ofValue? v
  let callsign ← g.require "callsign" 0 textOf?
  let canTransmit ← g.read "tx_ok" 1 flagOf? false
  return { callsign, canTransmit }

namespace Settings

/-- The callsign of the station and the block file. -/
def stationGroup (standard : Settings) (v : Toml.Value) : Option (String × Option String) := do
  let g ← SettingsGroup.ofValue? v
  let mycall ← g.read "mycall" 0 textOf? standard.mycall
  let blockFile ← g.read "digipeaters" 1 (fun v => (textOf? v).map some) standard.blockFile
  return (mycall, blockFile)

/-- The level and the format of the log. -/
def loggingGroup (standard : Settings) (v : Toml.Value) : Option (String × String) := do
  let g ← SettingsGroup.ofValue? v
  let level ← g.read "level" 0 textOf? standard.logLevel
  let format ← g.read "format" 1 textOf? standard.logFormat
  return (level, format)

/-- The interfaces in order. -/
def interfaceList (v : Toml.Value) : Option (List InterfaceSettings) := do
  let items ← listOf? v
  items.mapM InterfaceSettings.ofValue?

/-- The settings in the root table of a document, unless a value is of the
    wrong kind or an interface has no callsign. -/
def ofEntries? (entries : Toml.Entries) : Option Settings := do
  let g := SettingsGroup.named entries
  -- A group that is left out is as it would be with nothing in it.
  let (mycall, blockFile) ←
    g.read "station" 0 (stationGroup standard) (standard.mycall, standard.blockFile)
  let (logLevel, logFormat) ←
    g.read "logging" 1 (loggingGroup standard) (standard.logLevel, standard.logFormat)
  let interfaces ← g.read "interfaces" 2 interfaceList standard.interfaces
  return { mycall, blockFile, logLevel, logFormat, interfaces }

end Settings

/-- Why a text is no station file: it is malformed, or its settings make no
    sense. -/
inductive SettingsError where
  | malformed
  | invalid (faults : List SettingsFault)
  deriving DecidableEq, Repr

/-- The text that reports settings that make no sense. -/
def invalidMessage (faults : List SettingsFault) : String :=
  "Validation failed: " ++ ", ".intercalate (faults.map SettingsFault.message)

/-- The settings in the text of a station file. -/
def Settings.parse (text : String) : Except SettingsError Settings :=
  match (Toml.parse text).bind ofEntries? with
  | none => .error .malformed
  | some settings =>
    match settings.faults with
    | [] => .ok settings
    | faults => .error (.invalid faults)

end AprsRelay
