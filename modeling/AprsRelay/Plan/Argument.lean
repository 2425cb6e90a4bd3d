import AprsRelay.Plan.Fault
import AprsRelay.Station.Basic
import AprsRelay.Text.Numeral

/-!
# Arguments

Two kinds of argument can be wrong in a way of their own: the callsign of an
interface, for which `$mycall` may stand, and a number.

## Main definitions

* `Station.callsignOf`: The callsign that an argument stands for.
* `readInterface`: A statement whose argument names an interface.
* `readInteger`: A statement whose argument is a number.
-/

namespace AprsRelay

/-- The callsign that an argument stands for. -/
def Station.callsignOf (s : Station) (arg : String) : String :=
  if Text.sameLetters arg "$mycall" then s.mycall else arg

variable {ι : Type}

/-- A statement whose argument names an interface; `use` says what to make of
    the interface and its callsign. -/
def readInterface (station : Station) (s : Statement)
    (use : InterfaceId → String → Readout ι) : Readout ι :=
  match s.argument? with
  | none => .finding s.line (.missingArgument s.name)
  | some arg =>
    match station.findInterface? (station.callsignOf arg) with
    | none => .finding s.line (.unknownInterface (station.callsignOf arg))
    | some id => use id (station.callsignOf arg)

/-- A statement whose argument is a number; `use` says what to make of it. -/
def readInteger (s : Statement) (use : Int → Readout ι) : Readout ι :=
  match s.argument? with
  | none => .finding s.line (.missingArgument s.name)
  | some arg =>
    match Text.integer? arg with
    | none => .finding s.line (.badValue s.name arg)
    | some v => use v

/-- A block that has no meaning where it stands. -/
def unknownBlock (heading : Heading) : Readout ι :=
  .finding heading.line (.unknownKeyword ("<" ++ heading.tag ++ ">"))

/-- A statement that has no meaning where it stands. -/
def unknownStatement (s : Statement) : Readout ι :=
  .finding s.line (.unknownKeyword s.name)

end AprsRelay
