import AprsRelay.Disk
import AprsRelay.Json
import AprsRelay.Relay

/-!
# Listings

The output of the program: a line for every verdict, as plain text or as JSON.
Frames come in as lines of bytes. Blank lines and lines that are no frame are
passed over; a line that is no text ends the listing.

## Main definitions

* `verdictText`, `verdictJson`: The two forms of a line.
* `Listing`: How a listing is to be made.
* `Listing.ofFrame`, `ofLine`, `ofLines`: The lines for a frame, for a line of
  input, and for all of it.
-/

namespace AprsRelay

/-- The plain text for a verdict on a frame that an interface has heard. -/
def verdictText (callsign : String) (frame : Frame) (v : Verdict) : String :=
  let outcome := if v.accepted then "DIGIPEAT" else "DROP    "
  let digipeater := v.digipeater.index
  let mark := if v.faults = [] then "" else " FAULT"
  s!"{outcome} digi#{digipeater} via {callsign}: " ++
    s!"req={v.hops.requested} done={v.hops.completed} traces={v.hops.traces}" ++
    mark ++ " " ++ frame.text

/-- A fault of a via path in JSON. -/
def PathFault.toJson (f : PathFault) : Json :=
  match f with
  | .emptyField index => .object [("index", .ofNat index), ("kind", .string f.label)]
  | .fieldTooLong index length =>
    .object [("index", .ofNat index), ("kind", .string f.label), ("len", .ofNat length)]

/-- A verdict in JSON, with its keys in alphabetical order. -/
def Verdict.toJson (v : Verdict) : Json :=
  .object [
    ("accepted", .boolean v.accepted),
    ("digipeater", .ofNat v.digipeater.index),
    ("faults", .array (v.faults.map PathFault.toJson)),
    ("fields", .ofNat v.fields),
    ("hops", .object [
      ("completed", .number v.hops.completed),
      ("requested", .number v.hops.requested),
      ("traces", .number v.hops.traces)]),
    ("provenance", .boolean v.provenance),
    ("source", .ofNat v.source.index)]

/-- The JSON text for a verdict on a frame that an interface has heard. -/
def verdictJson (callsign : String) (frame : Frame) (v : Verdict) : String :=
  Json.render <| .object [
    ("frame", .string frame.text),
    ("interface", .string callsign),
    ("verdict", v.toJson)]

/-- How a listing is to be made: the interfaces that hear every frame, and the
    form of its lines. -/
structure Listing where
  interfaces : List InterfaceId
  json : Bool
  deriving DecidableEq, Repr

namespace Listing

/-- The line for a verdict on a frame that an interface has heard. -/
def line (l : Listing) (s : Station) (heardOn : InterfaceId) (frame : Frame) (v : Verdict) :
    String :=
  let callsign := ((s.interface? heardOn).map (·.callsign)).getD "?"
  if l.json then verdictJson callsign frame v else verdictText callsign frame v

/-- The lines for a frame that an interface hears, added to those before. -/
def hear (l : Listing) (frame : Frame) (before : List String × Relay) (heardOn : InterfaceId) :
    List String × Relay :=
  let (verdicts, relay) := before.2.receive heardOn frame
  (before.1 ++ verdicts.map (l.line relay.station heardOn frame), relay)

/-- The lines for a frame that all interfaces of the listing hear. What waits
    to be sent is taken out again. -/
def ofFrame (l : Listing) (relay : Relay) (frame : Frame) : List String × Relay :=
  -- No transmitter is attached, so the queue is emptied frame by frame.
  let (lines, relay) := l.interfaces.foldl (l.hear frame) ([], relay)
  (lines, relay.drain.2)

/-- The lines for a line of input. -/
def ofLine (l : Listing) (relay : Relay) (input : Bytes) :
    Except ReadFault (List String × Relay) :=
  match decodeText input with
  | .error fault => .error fault
  | .ok text =>
    match Frame.parse (String.ofList (Text.trimEnd text.toList)) with
    | .error _ => .ok ([], relay)
    | .ok frame => .ok (l.ofFrame relay frame)

/-- The lines for several lines of input, up to the first that is no text. -/
def ofLines (l : Listing) (relay : Relay) : List Bytes → List String × Option ReadFault
  | [] => ([], none)
  | input :: inputs =>
    match l.ofLine relay input with
    | .error fault => ([], some fault)
    | .ok (lines, relay) =>
      let (others, fault) := l.ofLines relay inputs
      (lines ++ others, fault)

/-- The lines that some input consists of. -/
def inputLines (input : Bytes) : List Bytes :=
  input.splitOn 0x0A

/-- The lines for all of some input. -/
def ofInput (l : Listing) (relay : Relay) (input : Bytes) : List String × Option ReadFault :=
  l.ofLines relay (inputLines input)

end Listing

end AprsRelay
