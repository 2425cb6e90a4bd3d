import AprsRelay.Frame
import AprsRelay.Station.Basic
import AprsRelay.Via.Account

/-!
# Verdicts

A frame that is heard on an interface is judged once by every source that
listens there. A verdict says whether the digipeater of the source sends the
frame on, and on which account of its via path.

## Main definitions

* `Verdict`: The judgement of one source.
* `Station.judge?`: The verdict of a source on a frame.
* `Station.verdicts`: All verdicts on a frame that an interface has heard.
-/

namespace AprsRelay

/-- The judgement of a source on a frame, with the number of fields that
    counted. -/
structure Verdict where
  digipeater : DigipeaterId
  source : SourceId
  accepted : Bool
  hops : Hops
  fields : Nat
  provenance : Bool
  faults : List PathFault
  deriving DecidableEq, Repr

namespace Verdict

/-- The verdict that follows from an account. -/
def ofAccount (digipeater : DigipeaterId) (source : SourceId) (a : PathAccount) : Verdict where
  digipeater := digipeater
  source := source
  accepted := a.accepted
  hops := a.hops
  fields := a.cases.length
  provenance := a.provenance
  faults := a.faults

end Verdict

namespace Station

/-- The verdict of a source on a frame; none if there is no such source. -/
def judge? (s : Station) (id : SourceId) (frame : Frame) : Option Verdict := do
  let source ← s.source? id
  let digipeater ← s.digipeater? source.parent
  return .ofAccount digipeater.id id (accountPath frame.viaSegment source digipeater)

/-- The verdicts on a frame that an interface has heard, in the order in which
    the sources were added. -/
def verdicts (s : Station) (heardOn : InterfaceId) (frame : Frame) : List Verdict :=
  (s.feeds heardOn).filterMap fun id => s.judge? id frame

end Station

end AprsRelay
