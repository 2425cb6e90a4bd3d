import AprsRelay.Keywords
import AprsRelay.Text.AsciiCase

/-!
# Interfaces, Sources and Digipeaters

A station hears and sends on interfaces. A digipeater sends on one of them and
hears through its sources, each of which listens to one interface. The three
kinds of entity refer to each other by number.

## Main definitions

* `InterfaceId`, `SourceId`, `DigipeaterId`: Numbers of entities.
* `RelayFormat`: How a source wants its frames relayed.
* `Interface`: An interface and the sources that listen to it.
* `Source`: A listener of a digipeater.
* `Digipeater`: A transmitter with its sources.
-/

namespace AprsRelay

/-- The number of an interface, counted from zero. -/
structure InterfaceId where
  index : Nat
  deriving DecidableEq, Repr

/-- The number of a source, counted from zero. -/
structure SourceId where
  index : Nat
  deriving DecidableEq, Repr

/-- The number of a digipeater, counted from zero. -/
structure DigipeaterId where
  index : Nat
  deriving DecidableEq, Repr

/-- How a source wants its frames relayed. Words without a meaning are kept as
    they are written. -/
inductive RelayFormat where
  | unset
  | digipeated
  | directOnly
  | thirdParty
  | other (word : String)
  deriving DecidableEq, Repr

/-- The format that a word names, in capitals or not. -/
def RelayFormat.ofWord (word : String) : RelayFormat :=
  if Text.sameLetters word "digipeated" then digipeated
  else if Text.sameLetters word "directonly" then directOnly
  else if Text.sameLetters word "third-party" then thirdParty
  else other word

/-- An interface, whether a digipeater may send on it, and the sources that
    listen to it. -/
structure Interface where
  id : InterfaceId
  callsign : String
  canTransmit : Bool
  feeds : List SourceId
  deriving DecidableEq, Repr

/-- A listener of a digipeater. Its own keyword sets come before those of the
    digipeater. The filters and the format are kept for the transmitter. -/
structure Source where
  id : SourceId
  interface : InterfaceId
  parent : DigipeaterId
  relayFormat : RelayFormat
  filters : List String
  trace : Option KeywordSet
  wide : Option KeywordSet
  deriving DecidableEq, Repr

/-- A transmitter with its sources. The rate limit and the viscous delay are
    kept for the transmitter. -/
structure Digipeater where
  id : DigipeaterId
  transmitter : InterfaceId
  rateLimit : Nat
  viscousDelay : Nat
  trace : KeywordSet
  wide : KeywordSet
  sources : List SourceId
  deriving DecidableEq, Repr

end AprsRelay
