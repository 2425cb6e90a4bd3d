import AprsRelay.Plan.Keywords

/-!
# Source Blocks

A `<source>` block names the interface to listen to, and may bring filters, a
relay format and keyword sets of its own. With a single fault in it the whole
block is refused.

## Main definitions

* `SourceItem`: What a node of a source block says.
* `readSourceNode`: One node of a source block.
* `sourceFindings`: Everything that is wrong inside a source block.
* `sourcePlan?`: The source that a block asks for.
* `readSource`: A source block as part of the block around it.
-/

namespace AprsRelay

/-- What a node of a source block says. -/
inductive SourceItem where
  | interface (id : InterfaceId)
  | filter (text : String)
  | relayFormat (format : RelayFormat)
  | keywords (set : KeywordSet)
  deriving DecidableEq, Repr

namespace SourceItem

/-- The interface that an item names. -/
def interface? : SourceItem → Option InterfaceId
  | interface id => some id
  | _ => none

/-- The filter that an item adds. -/
def filter? : SourceItem → Option String
  | filter text => some text
  | _ => none

/-- The relay format that an item sets. -/
def relayFormat? : SourceItem → Option RelayFormat
  | relayFormat format => some format
  | _ => none

/-- The keyword set of the given kind that an item declares. -/
def keywords? (kind : KeywordKind) : SourceItem → Option KeywordSet
  | keywords set => if set.kind = kind then some set else none
  | _ => none

end SourceItem

/-- A `filter` statement: its words, with one blank between them. -/
def readFilter (s : Statement) : Readout SourceItem :=
  match s.args with
  | [] => .finding s.line (.missingArgument s.name)
  | args => .item (.filter (" ".intercalate args))

/-- A `relay-format` statement. Without an argument it says nothing. -/
def readRelayFormat (s : Statement) : Readout SourceItem :=
  match s.argument? with
  | none => .nothing
  | some arg => .item (.relayFormat (.ofWord arg))

/-- One node of a source block. -/
def readSourceNode (station : Station) : Node → Readout SourceItem
  | .statement s =>
    match s.name with
    | "source" => readInterface station s fun id _ => .item (.interface id)
    | "filter" => readFilter s
    | "relay-format" => readRelayFormat s
    | _ => unknownStatement s
  | .block heading body =>
    match heading.tag with
    | "trace" => readKeywords .trace { heading with body } .keywords
    | "wide" => readKeywords .wide { heading with body } .keywords
    | _ => unknownBlock heading

/-- What was made of the nodes of a source block. -/
def sourceBody (station : Station) (b : Block) : Readout SourceItem :=
  .ofBody (readSourceNode station) b.body

/-- Everything that is wrong inside a source block. -/
def sourceFindings (station : Station) (b : Block) : List Finding :=
  b.unclosedFindings ++ (sourceBody station b).findings ++
    if b.body.any fun node => (node.statementNamed? "source").isSome then []
    else [⟨b.line, .missingSource⟩]

/-- The source that a block asks for. The last of several statements counts,
    except that every filter does. -/
def sourcePlan? (station : Station) (b : Block) : Option SourcePlan :=
  let body := sourceBody station b
  (body.latest? SourceItem.interface?).map fun interface =>
    { interface
      relayFormat := (body.latest? SourceItem.relayFormat?).getD .unset
      filters := body.items.filterMap SourceItem.filter?
      trace := body.latest? (SourceItem.keywords? .trace)
      wide := body.latest? (SourceItem.keywords? .wide) }

/-- A source block as part of the block around it. It states its plan if
    nothing is wrong with it. -/
def readSource {ι : Type} (station : Station) (b : Block) (use : SourcePlan → ι) :
    Readout ι :=
  match sourceFindings station b, sourcePlan? station b with
  | [], some plan => .item (use plan)
  | findings, _ => ⟨[], findings ++ [⟨b.line, .sourceRejected⟩]⟩

end AprsRelay
