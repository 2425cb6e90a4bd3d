import AprsRelay.Program.Listing
import AprsRelay.Program.Options
import AprsRelay.Program.Startup

/-!
# The Program

A run of the program: the station is loaded, refused blocks are noted, the
interfaces that hear the frames are chosen, and the verdicts are listed.

## Main definitions

* `Failure`: Why a run ends early.
* `receivingInterfaces`: The interfaces that hear the frames.
* `rejectionNotes`: The notes on refused blocks.
* `Program.start`: Everything before the first frame.
* `Program.run`: A whole run, for any way of reading files.
-/

namespace AprsRelay

/-- Why a run ends early. -/
inductive Failure where
  | startup (error : StartupError)
  | unknownInterface (callsign : String)
  | unreadableFrames (fault : ReadFault)
  deriving DecidableEq, Repr

/-- The text that reports why a file cannot be read. -/
def ReadFault.message : ReadFault → String
  | notFound => "no such file"
  | isDirectory => "is a directory"
  | notDirectory => "not a directory"
  | notText => "not a text in UTF-8"
  | other => "cannot be read"

/-- The text that reports why a run ended early. -/
def Failure.message : Failure → String
  | startup (.unreadable fault) => "IO error: " ++ fault.message
  | startup (.settings .malformed) => "Parse error"
  | startup (.settings (.invalid faults)) => invalidMessage faults
  | unknownInterface callsign => s!"unknown interface: '{callsign}'"
  | unreadableFrames fault => "IO error: " ++ fault.message

/-- The interfaces that hear the frames: the one with the given callsign, or
    else every interface to which a source listens. -/
def receivingInterfaces (s : Station) (callsign : Option String) :
    Except Failure (List InterfaceId) :=
  match callsign with
  | none => .ok ((s.interfaces.filter fun i => i.feeds ≠ []).map (·.id))
  | some callsign =>
    match s.findInterface? callsign with
    | none => .error (.unknownInterface callsign)
    | some id => .ok [id]

/-- The notes on a refused block: a line for the block, and one for each of
    its faults. -/
def rejectionNotes (r : Rejection) : List String :=
  r.message :: r.faults.map fun f => "  " ++ f.message

/-- A run that is ready for its first frame. -/
structure Ready where
  relay : Relay
  listing : Listing

/-- A run as far as it went before the first frame, and what was noted until
    then. -/
structure Started where
  notes : List String
  result : Except Failure Ready

/-- The state of a run whose station is loaded. -/
def Started.ofLoaded (loaded : LoadedStation) (options : Options) : Started where
  notes := loaded.report.rejected.flatMap rejectionNotes
  result :=
    match receivingInterfaces loaded.station options.interface with
    | .error failure => .error failure
    | .ok interfaces => .ok ⟨.ofStation loaded.station, ⟨interfaces, options.json⟩⟩

/-- What a run has to show: the listing, the notes, and the reason if it ended
    early. -/
structure Outcome where
  printed : List String
  notes : List String
  failure : Option Failure
  deriving DecidableEq, Repr

/-- The outcome of a run whose frames are all of some input. -/
def Outcome.ofInput (notes : List String) (ready : Ready) (input : Bytes) : Outcome :=
  let (printed, fault) := ready.listing.ofInput ready.relay input
  { printed, notes, failure := fault.map .unreadableFrames }

namespace Program

variable {m : Type → Type} [Monad m] (read : String → m (Except ReadFault Bytes))

/-- Everything before the first frame. -/
def start (options : Options) : m Started := do
  match ← readSettings read options.stationFile with
  | .error error => return ⟨[], .error (.startup error)⟩
  | .ok settings =>
    match ← loadStation read options.stationFile settings options.blockFile with
    | .error fault => return ⟨[], .error (.startup (.unreadable fault))⟩
    | .ok loaded => return .ofLoaded loaded options

/-- The frames that options name, or else those that are at hand. -/
def readFrames (options : Options) (atHand : Bytes) : m (Except ReadFault Bytes) :=
  match options.input with
  | none => return .ok atHand
  | some name => read name

/-- A whole run. The frames at hand count if the options name no others. -/
def run (options : Options) (atHand : Bytes) : m Outcome := do
  let started ← start read options
  -- What was noted on refused blocks is shown even if the run goes no further.
  match started.result with
  | .error failure => return ⟨[], started.notes, some failure⟩
  | .ok ready =>
    match ← readFrames read options atHand with
    | .error fault => return ⟨[], started.notes, some (.unreadableFrames fault)⟩
    | .ok input => return .ofInput started.notes ready input

end Program

end AprsRelay
