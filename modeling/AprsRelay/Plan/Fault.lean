import AprsRelay.BlockFile.Node

/-!
# Faults of a Block File

A block is read to its end before it is refused, so that all its faults are
reported at once, each with the file and the line where it was found.

## Main definitions

* `FaultCause`: What can be wrong.
* `Finding`: A cause and a line.
* `Fault`: A finding and a file.
* `Rejection`: A block that was refused, with its faults.
* `Readout`: What was made of the nodes of a block, good and bad.
-/

namespace AprsRelay

/-- What can be wrong in a block file. -/
inductive FaultCause where
  | unknownInterface (callsign : String)
  | transmitNotAllowed (callsign : String)
  | missingTransmit
  | noSources
  | missingSource
  | sourceRejected
  | badViscousDelay (value : Int)
  | badValue (keyword value : String)
  | missingArgument (keyword : String)
  | unknownKeyword (keyword : String)
  | unclosed (tag : String)
  | emptyKeywords (tag : String)
  deriving DecidableEq, Repr

/-- The text that reports a cause. -/
def FaultCause.message : FaultCause → String
  | unknownInterface callsign => s!"unknown interface: '{callsign}'"
  | transmitNotAllowed callsign => s!"transmit interface has no tx-ok setting: '{callsign}'"
  | missingTransmit => "digipeater defined without transmit interface"
  | noSources => "digipeater defined without <source> blocks"
  | missingSource => "source block without source interface"
  | sourceRejected => "source block rejected"
  | badViscousDelay value => s!"bad value for viscous-delay: '{value}'"
  | badValue keyword value => s!"bad value for {keyword}: '{value}'"
  | missingArgument keyword => s!"missing argument for '{keyword}'"
  | unknownKeyword keyword => s!"unknown config keyword: '{keyword}'"
  | unclosed tag => s!"block <{tag}> has no matching closing tag"
  | emptyKeywords tag => s!"<{tag}> block has no keys"

/-- A cause and the line where it was found. -/
structure Finding where
  line : Nat
  cause : FaultCause
  deriving DecidableEq, Repr

/-- A finding and the file that was read. -/
structure Fault extends Finding where
  file : String
  deriving DecidableEq, Repr

/-- The text that reports a fault. -/
def Fault.message (f : Fault) : String :=
  s!"{f.file}:{f.line} " ++ f.cause.message

/-- A block that was refused. -/
structure Rejection where
  file : String
  line : Nat
  faults : List Fault
  deriving DecidableEq, Repr

namespace Rejection

/-- The text that reports a refused block. -/
def message (r : Rejection) : String :=
  let count := r.faults.length
  s!"{r.file}:{r.line} digipeater block rejected with {count} fault(s)"

/-- Whether a fault with the given cause is among those of a block. -/
def has (r : Rejection) (cause : FaultCause) : Bool :=
  r.faults.any fun f => f.cause = cause

/-- Refuse the block that starts on the given line. -/
def ofFindings (file : String) (line : Nat) (findings : List Finding) : Rejection :=
  ⟨file, line, findings.map fun f => { f with file }⟩

end Rejection

/-- What was made of some nodes: the items that they state, and what is wrong
    with them, both in the order of the file. -/
structure Readout (ι : Type) where
  items : List ι
  findings : List Finding
  deriving DecidableEq, Repr

namespace Readout

variable {ι : Type}

/-- A node that says nothing. -/
def nothing : Readout ι :=
  ⟨[], []⟩

/-- A node that states an item. -/
def item (i : ι) : Readout ι :=
  ⟨[i], []⟩

/-- A node with something wrong. -/
def finding (line : Nat) (cause : FaultCause) : Readout ι :=
  ⟨[], [⟨line, cause⟩]⟩

/-- What was made of a body, given what is made of each node. -/
def ofBody (read : Node → Readout ι) (body : List Node) : Readout ι :=
  ⟨body.flatMap fun node => (read node).items, body.flatMap fun node => (read node).findings⟩

/-- The value of the last item that has one. -/
def latest? {α : Type} (r : Readout ι) (value? : ι → Option α) : Option α :=
  (r.items.filterMap value?).getLast?

end Readout

/-- The finding of a block that was not closed. -/
def Block.unclosedFindings (b : Block) : List Finding :=
  if b.closed then [] else [⟨b.line, .unclosed b.tag⟩]

end AprsRelay
