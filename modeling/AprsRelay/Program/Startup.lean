import AprsRelay.Disk
import AprsRelay.Pathname
import AprsRelay.Station.Load
import AprsRelay.StationFile.Decode

/-!
# Startup

From files to a station: the station file is read first, then the block file
that it names or that is given in its place. Only files that cannot be read
and settings that make no sense stop the program; blocks that are refused are
reported, and the station does without them.

## Main definitions

* `StartupError`: Why there is no station.
* `blockFileName`: The name of the block file.
* `LoadedStation`: A station with the settings and the report that belong to it.
* `readSettings`, `readBlocks`, `loadStation`: The steps of a startup, for any
  way of reading files.
-/

namespace AprsRelay

/-- Why there is no station: a file that cannot be read, or a station file
    without settings. -/
inductive StartupError where
  | unreadable (fault : ReadFault)
  | settings (error : SettingsError)
  deriving DecidableEq, Repr

/-- The name of the block file that settings name, taken relative to the
    directory of the station file. -/
def namedBlockFile (stationFile : String) (settings : Settings) : Option String :=
  settings.blockFile.map (Pathname.beside stationFile)

/-- The name of the block file, if there is one. A name that is given goes
    before the one in the settings. -/
def blockFileName (stationFile : String) (settings : Settings) (given : Option String) :
    Option String :=
  given <|> namedBlockFile stationFile settings

/-- The block file of a station that has none. -/
def noBlockFile : BlockFile :=
  .read "<none>" ""

/-- A station, with the settings it was built from and what became of the
    blocks. -/
structure LoadedStation where
  settings : Settings
  station : Station
  report : LoadReport
  deriving DecidableEq, Repr

/-- The station that settings and a block file describe. -/
def LoadedStation.build (settings : Settings) (file : BlockFile) : LoadedStation :=
  let (station, report) := (Station.ofSettings settings).load file
  { settings, station, report }

section Reading

variable {m : Type → Type} [Monad m] (read : String → m (Except ReadFault Bytes))

/-- The text of a file. -/
def readText (name : String) : m (Except ReadFault String) := do
  return (← read name).bind decodeText

/-- The settings in a station file. -/
def readSettings (stationFile : String) : m (Except StartupError Settings) := do
  match ← readText read stationFile with
  | .error fault => return .error (.unreadable fault)
  | .ok text =>
    match Settings.parse text with
    | .error error => return .error (.settings error)
    | .ok settings => return .ok settings

/-- The block file with the given name. -/
def readBlocks (name : Option String) : m (Except ReadFault BlockFile) := do
  match name with
  | none => return .ok noBlockFile
  | some name =>
    match ← readText read name with
    | .error fault => return .error fault
    | .ok text => return .ok (.read name text)

/-- The station that settings describe, with the digipeaters of its block
    file. -/
def loadStation (stationFile : String) (settings : Settings) (given : Option String) :
    m (Except ReadFault LoadedStation) := do
  match ← readBlocks read (blockFileName stationFile settings given) with
  | .error fault => return .error fault
  | .ok file => return .ok (.build settings file)

end Reading

end AprsRelay
