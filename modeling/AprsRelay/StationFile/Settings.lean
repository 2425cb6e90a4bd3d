import AprsRelay.Station.Basic
import AprsRelay.Text.Blank

/-!
# Settings

The station file names the station, its interfaces, and the file that holds
its digipeater blocks. Settings can be well formed and still make no sense;
then everything that is wrong with them is reported at once.

## Main definitions

* `Settings`: What a station file says.
* `SettingsFault`: What can be wrong with settings.
* `Settings.faults`: Everything that is wrong.
* `Station.ofSettings`: The station before any block file is loaded.
-/

namespace AprsRelay

/-- What a station file says about an interface. -/
structure InterfaceSettings where
  callsign : String
  canTransmit : Bool
  deriving DecidableEq, Repr

/-- What a station file says. The level and the format are those of the log. -/
structure Settings where
  mycall : String
  blockFile : Option String
  logLevel : String
  logFormat : String
  interfaces : List InterfaceSettings
  deriving DecidableEq, Repr

/-- What can be wrong with settings. -/
inductive SettingsFault where
  | emptyMycall
  | emptyCallsign (index : Nat)
  | duplicateCallsign (callsign : String)
  | unknownLogFormat (format : String)
  deriving DecidableEq, Repr

/-- The text that reports a fault. -/
def SettingsFault.message : SettingsFault → String
  | emptyMycall => "station mycall is empty"
  | emptyCallsign index => s!"interface #{index} has an empty callsign"
  | duplicateCallsign callsign =>
    s!"interface callsign '{callsign}' is declared more than once"
  | unknownLogFormat format => s!"unknown logging format '{format}'"

namespace Settings

/-- The settings where a station file says nothing. -/
def standard : Settings where
  mycall := "N0CALL"
  blockFile := none
  logLevel := "info"
  logFormat := "pretty"
  interfaces := []

/-- The formats that a log can have. -/
def logFormats : List String :=
  ["pretty", "json"]

/-- What is wrong with an interface, given those declared before it. A blank
    callsign is not compared with others. -/
def interfaceFaults (earlier : List InterfaceSettings) (index : Nat) (i : InterfaceSettings) :
    List SettingsFault :=
  if Text.isBlankText i.callsign then [.emptyCallsign index]
  else if earlier.any fun e => Text.sameLetters e.callsign i.callsign then
    [.duplicateCallsign i.callsign]
  else []

/-- Everything that is wrong with settings. -/
def faults (s : Settings) : List SettingsFault :=
  (if Text.isBlankText s.mycall then [.emptyMycall] else []) ++
    -- Every interface is compared with those before it, whether they have faults or not.
    (s.interfaces.zipIdx.flatMap fun (i, index) =>
      interfaceFaults (s.interfaces.take index) index i) ++
    if logFormats.contains s.logFormat then [] else [.unknownLogFormat s.logFormat]

end Settings

/-- The station that settings describe, before any block file is loaded. -/
def Station.ofSettings (settings : Settings) : Station :=
  settings.interfaces.foldl (fun s i => s.addInterface i.callsign i.canTransmit)
    (.empty settings.mycall)

end AprsRelay
