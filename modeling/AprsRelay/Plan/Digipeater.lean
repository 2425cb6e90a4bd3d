import AprsRelay.Plan.Limits
import AprsRelay.Plan.Source

/-!
# Digipeater Blocks

A `<digipeater>` block names the interface to send on and holds one source
block or more. It may set the rate limit and the viscous delay, and bring
keyword sets that take the place of the standard ones. With a single fault
anywhere in it the whole block is refused.

## Main definitions

* `DigipeaterItem`: What a node of a digipeater block says.
* `readDigipeaterNode`: One node of a digipeater block.
* `digipeaterFindings`: Everything that is wrong with a digipeater block.
* `digipeaterPlan?`: The digipeater that a block asks for.
* `DigipeaterPlan.ofBlock`: The plan of a block, or its faults.
-/

namespace AprsRelay

/-- What a node of a digipeater block says. -/
inductive DigipeaterItem where
  | transmitter (id : InterfaceId)
  | rateLimit (limit : Nat)
  | viscousDelay (delay : Nat)
  | keywords (set : KeywordSet)
  | source (plan : SourcePlan)
  deriving DecidableEq, Repr

namespace DigipeaterItem

/-- The interface to send on that an item names. -/
def transmitter? : DigipeaterItem → Option InterfaceId
  | transmitter id => some id
  | _ => none

/-- The rate limit that an item sets. -/
def rateLimit? : DigipeaterItem → Option Nat
  | rateLimit limit => some limit
  | _ => none

/-- The viscous delay that an item sets. -/
def viscousDelay? : DigipeaterItem → Option Nat
  | viscousDelay delay => some delay
  | _ => none

/-- The keyword set of the given kind that an item declares. -/
def keywords? (kind : KeywordKind) : DigipeaterItem → Option KeywordSet
  | keywords set => if set.kind = kind then some set else none
  | _ => none

/-- The source that an item asks for. -/
def source? : DigipeaterItem → Option SourcePlan
  | source plan => some plan
  | _ => none

end DigipeaterItem

/-- A `transmit` statement, whose interface a digipeater has to be allowed to
    send on. -/
def readTransmit (station : Station) (s : Statement) : Readout DigipeaterItem :=
  readInterface station s fun id callsign =>
    if station.canTransmit id then .item (.transmitter id)
    else .finding s.line (.transmitNotAllowed callsign)

/-- A `viscous-delay` statement, whose number has to be in range. -/
def readViscousDelay (s : Statement) : Readout DigipeaterItem :=
  readInteger s fun v =>
    if isViscousDelay v then .item (.viscousDelay (viscousDelay v))
    else .finding s.line (.badViscousDelay v)

/-- One node of a digipeater block. -/
def readDigipeaterNode (station : Station) : Node → Readout DigipeaterItem
  | .statement s =>
    match s.name with
    | "transmit" => readTransmit station s
    | "ratelimit" => readInteger s fun v => .item (.rateLimit (rateLimit v))
    | "viscous-delay" => readViscousDelay s
    | _ => unknownStatement s
  | .block heading body =>
    match heading.tag with
    | "trace" => readKeywords .trace { heading with body } .keywords
    | "wide" => readKeywords .wide { heading with body } .keywords
    | "source" => readSource station { heading with body } .source
    | _ => unknownBlock heading

/-- What was made of the nodes of a digipeater block. -/
def digipeaterBody (station : Station) (b : Block) : Readout DigipeaterItem :=
  .ofBody (readDigipeaterNode station) b.body

/-- Everything that is wrong with a digipeater block. -/
def digipeaterFindings (station : Station) (b : Block) : List Finding :=
  b.unclosedFindings ++ (digipeaterBody station b).findings ++
    (if b.body.any fun node => (node.statementNamed? "transmit").isSome then []
      else [⟨b.line, .missingTransmit⟩]) ++
    if b.body.any fun node => (node.blockTagged? "source").isSome then []
    else [⟨b.line, .noSources⟩]

/-- The digipeater that a block asks for. The last of several statements
    counts, except that every source does. -/
def digipeaterPlan? (station : Station) (b : Block) : Option DigipeaterPlan :=
  let body := digipeaterBody station b
  (body.latest? DigipeaterItem.transmitter?).map fun transmitter =>
    { transmitter
      rateLimit := (body.latest? DigipeaterItem.rateLimit?).getD standardRateLimit
      viscousDelay := (body.latest? DigipeaterItem.viscousDelay?).getD 0
      trace := body.latest? (DigipeaterItem.keywords? .trace)
      wide := body.latest? (DigipeaterItem.keywords? .wide)
      sources := body.items.filterMap DigipeaterItem.source? }

/-- The plan of a digipeater block in the file with the given name, or the
    block refused with everything that is wrong with it. -/
def DigipeaterPlan.ofBlock (station : Station) (file : String) (b : Block) :
    Except Rejection DigipeaterPlan :=
  match digipeaterFindings station b, digipeaterPlan? station b with
  | [], some plan => .ok plan
  | findings, _ => .error (.ofFindings file b.line findings)

end AprsRelay
