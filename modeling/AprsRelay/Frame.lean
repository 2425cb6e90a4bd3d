import AprsRelay.Text.Cut
import AprsRelay.Text.Utf8

/-!
# Frames

A received frame is a line of monitor text: a source call, `>`, a destination
call, a via path between `,` and `:` unless there is none, and a payload. The
header ends at the first `:` behind the destination, so the payload may hold
any character.

## Main definitions

* `Frame`: The parts of a frame.
* `Frame.WellFormed`: Parts that can be told apart again once written.
* `Frame.text`: The line that the parts make.
* `Frame.parse`: The parts of a line.
* `FrameError`: The reasons why a line is no frame.
* `Frame.viaSegment`, `Frame.destinationEnd`, `Frame.payloadStart`: The via
  path with its final `:`, and the two marks of a header, in bytes.
-/

namespace AprsRelay

/-- A frame in parts. The via path stands without the `:` that ends it, and is
    absent when the destination call is followed by `:` directly. -/
structure Frame where
  source : String
  destination : String
  via : Option String
  payload : String
  deriving DecidableEq, Repr

/-- Why a line is no frame. -/
inductive FrameError where
  /-- There is no `>`, or nothing before it. -/
  | missingSource
  /-- Nothing stands between `>` and the end of the destination call. -/
  | missingDestination
  /-- The header has no end. -/
  | missingPayload
  deriving DecidableEq, Repr

/-- The text that reports a refused line. -/
def FrameError.message : FrameError → String
  | missingSource => "missing '>' after source call"
  | missingDestination => "empty destination call"
  | missingPayload => "missing ':' payload delimiter"

namespace Frame

/-- Parts that can be told apart again: neither call is empty, the source call
    has no `>`, the destination call neither `,` nor `:`, and the via path no
    `:`. -/
structure WellFormed (f : Frame) : Prop where
  source_ne_empty : f.source ≠ ""
  source_no_arrow : '>' ∉ f.source.toList
  destination_ne_empty : f.destination ≠ ""
  destination_no_comma : ',' ∉ f.destination.toList
  destination_no_colon : ':' ∉ f.destination.toList
  via_no_colon : ∀ path, f.via = some path → ':' ∉ path.toList

/-- The via path up to and including the `:` that ends the header; empty when
    the frame has no via path. -/
def viaSegment (f : Frame) : String :=
  match f.via with
  | none => ""
  | some path => path ++ ":"

/-- The header: everything before the payload. -/
def header (f : Frame) : String :=
  f.source ++ ">" ++ f.destination ++
    match f.via with
    | none => ":"
    | some path => "," ++ path ++ ":"

/-- The line that the parts make. -/
def text (f : Frame) : String :=
  f.header ++ f.payload

/-- The number of bytes before the character that ends the destination call. -/
def destinationEnd (f : Frame) : Nat :=
  Text.byteLength (f.source ++ ">" ++ f.destination).toList

/-- The number of bytes before the payload. -/
def payloadStart (f : Frame) : Nat :=
  Text.byteLength f.header.toList

/-- The characters that end a destination call. -/
def endsDestination (c : Char) : Bool :=
  c == ',' || c == ':'

/-- The parts of what follows the destination call, given the character that
    ended it. -/
def parseRest (source destination : List Char) (ending : Char) (rest : List Char) :
    Except FrameError Frame :=
  if ending = ':' then
    .ok ⟨String.ofList source, String.ofList destination, none, String.ofList rest⟩
  else
    match Text.cutAt (· == ':') rest with
    | none => .error .missingPayload
    | some (path, _, payload) =>
      .ok ⟨String.ofList source, String.ofList destination, some (String.ofList path),
        String.ofList payload⟩

/-- The parts of a line, or the first thing that it lacks. -/
def parse (line : String) : Except FrameError Frame :=
  match Text.cutAt (· == '>') line.toList with
  | none | some ([], _, _) => .error .missingSource
  | some (source, _, rest) =>
    match Text.cutAt endsDestination rest with
    | none => .error .missingPayload
    | some ([], _, _) => .error .missingDestination
    | some (destination, ending, rest) => parseRest source destination ending rest

end Frame

end AprsRelay
