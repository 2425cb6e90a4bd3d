import AprsRelay.Station.Load
import AprsRelay.Verdict

/-!
# The Relay at Work

A relay is a station at work: frames come in, the frames to be sent on wait in
a queue until they are taken out, and what happens is counted. Interfaces and
digipeaters can be added at any time.

## Main definitions

* `Tally`: What has been counted.
* `Relay`: A station with its queue and its tally.
* `Relay.receive`: A frame comes in on an interface.
* `Relay.drain`: The queue is emptied.
* `Relay.addInterface`, `Relay.load`, `Relay.commit`: The station grows.
-/

namespace AprsRelay

/-- A frame to be sent, and the digipeater that is to send it. -/
structure Outgoing where
  digipeater : DigipeaterId
  frame : Frame
  deriving DecidableEq, Repr

/-- The numbers of verdicts for and against a frame, and of faults in via
    paths, one for every verdict that notes it. -/
structure Tally where
  accepted : Nat
  dropped : Nat
  emptyFields : Nat
  longFields : Nat
  deriving DecidableEq, Repr

namespace Tally

/-- Nothing has been counted. -/
def zero : Tally :=
  ⟨0, 0, 0, 0⟩

/-- Count a fault of a via path. -/
def countFault (t : Tally) : PathFault → Tally
  | .emptyField _ => { t with emptyFields := t.emptyFields + 1 }
  | .fieldTooLong _ _ => { t with longFields := t.longFields + 1 }

/-- Count a verdict with its faults. -/
def countVerdict (t : Tally) (v : Verdict) : Tally :=
  v.faults.foldl countFault
    (if v.accepted then { t with accepted := t.accepted + 1 }
      else { t with dropped := t.dropped + 1 })

end Tally

/-- A station at work. The oldest frame of the queue comes first. -/
structure Relay where
  station : Station
  queue : List Outgoing
  tally : Tally
  deriving DecidableEq, Repr

namespace Relay

/-- A relay that has not heard anything yet. -/
def ofStation (s : Station) : Relay :=
  ⟨s, [], .zero⟩

/-- The frames that verdicts on a frame ask the digipeaters of a station to
    send. A verdict that names no digipeater of the station asks nobody. -/
def outgoing (s : Station) (verdicts : List Verdict) (frame : Frame) : List Outgoing :=
  (verdicts.filter (·.accepted)).filterMap fun v =>
    (s.digipeater? v.digipeater).map fun d => ⟨d.id, frame⟩

/-- A frame comes in on an interface: the verdicts on it, and the relay with
    the verdicts counted and the frames to be sent in the queue. -/
def receive (r : Relay) (heardOn : InterfaceId) (frame : Frame) : List Verdict × Relay :=
  let verdicts := r.station.verdicts heardOn frame
  (verdicts,
    { r with
      queue := r.queue ++ outgoing r.station verdicts frame
      tally := verdicts.foldl Tally.countVerdict r.tally })

/-- Take out everything that waits to be sent. -/
def drain (r : Relay) : List Outgoing × Relay :=
  (r.queue, { r with queue := [] })

/-- Add an interface to the station. -/
def addInterface (r : Relay) (callsign : String) (canTransmit : Bool) : InterfaceId × Relay :=
  (r.station.nextInterface,
    { r with station := r.station.addInterface callsign canTransmit })

/-- Add the digipeaters of a block file to the station. -/
def load (r : Relay) (file : BlockFile) : LoadReport × Relay :=
  let (station, report) := r.station.load file
  (report, { r with station })

/-- Add a planned digipeater to the station. A plan that is refused changes
    nothing. -/
def commit (r : Relay) (plan : DigipeaterPlan) : Option DigipeaterId × Relay :=
  match r.station.commit? plan with
  | none => (none, r)
  | some (id, station) => (some id, { r with station })

end Relay

end AprsRelay
