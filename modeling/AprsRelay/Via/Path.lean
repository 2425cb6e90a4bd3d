import AprsRelay.Text.Utf8

/-!
# Via Paths

The via path of a frame is a list of fields between commas. Reading it stops at
an empty field, and at a field that starts with `q`, from where on the path
only tells which gateway saw the frame. A field that is too long is left out.
Neither is an error of the frame: they are noted, and the fields that were read
still count.

## Main definitions

* `PathFault`: What can be wrong with a field.
* `ViaPath`: The fields that count, with what was noted on the way.
* `ViaPath.scan`: Reading the fields one after the other.
* `ViaPath.ofSegment`: The path of a header.
-/

namespace AprsRelay

/-- What can be wrong with a field of a via path. -/
inductive PathFault where
  /-- Nothing stands between two commas, or before the first. -/
  | emptyField (index : Nat)
  /-- The field is longer than a via field can be. -/
  | fieldTooLong (index length : Nat)
  deriving DecidableEq, Repr

namespace PathFault

/-- The short name of a kind of fault, under which it is counted. -/
def label : PathFault → String
  | emptyField _ => "empty_field"
  | fieldTooLong _ _ => "field_too_long"

/-- The text that reports a fault. -/
def message : PathFault → String
  | emptyField index => s!"zero-length via field at index {index}"
  | fieldTooLong index length => s!"via field at index {index} is {length} bytes long"

end PathFault

/-- The fields of a via path that count, the faults of the others, and whether
    reading stopped at a gateway field. -/
structure ViaPath where
  fields : List String
  faults : List PathFault
  provenance : Bool
  deriving DecidableEq, Repr

namespace ViaPath

/-- The most bytes that a via field can have: a call of nine, a dash, a number
    of two digits, and the mark of a relay. -/
def maxFieldLength : Nat := 13

/-- A path without fields. -/
def empty : ViaPath :=
  ⟨[], [], false⟩

/-- Put a field in front of a path, or note that it is too long. -/
def push (index : Nat) (field : List Char) (path : ViaPath) : ViaPath :=
  if Text.byteLength field ≤ maxFieldLength then
    { path with fields := String.ofList field :: path.fields }
  else
    { path with faults := .fieldTooLong index (Text.byteLength field) :: path.faults }

/-- Read the fields from the given index on. An empty field ends the path, and
    is a fault unless it is the last; so does a field that starts with `q`. -/
def scan (index : Nat) : List (List Char) → ViaPath
  | [] => empty
  -- A comma may end the path, which leaves an empty field behind it.
  | [[]] => empty
  | [] :: _ :: _ => { empty with faults := [.emptyField index] }
  | ('q' :: _) :: _ => { empty with provenance := true }
  | field :: fields => (scan (index + 1) fields).push index field

/-- The fields of a segment, whether they count or not: what stands between
    commas before the first `:`. -/
def pieces (segment : String) : List (List Char) :=
  (segment.toList.takeWhile (· != ':')).splitOn ','

/-- The path of a segment, which is the text behind the destination call. -/
def ofSegment (segment : String) : ViaPath :=
  scan 0 (pieces segment)

end ViaPath

end AprsRelay
