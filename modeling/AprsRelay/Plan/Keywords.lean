import AprsRelay.Plan.Argument

/-!
# Keyword Blocks

The blocks `<trace>` and `<wide>` list keywords and may set the two hop caps.
A block without keywords is a fault, since it could never match.

## Main definitions

* `KeywordItem`: What a statement of a keyword block says.
* `readKeywordNode`: One node of a keyword block.
* `keywordFindings`: Everything that is wrong with a keyword block.
* `keywordSet?`: The set that a keyword block declares.
* `readKeywords`: A keyword block as part of the block around it.
-/

namespace AprsRelay

/-- What a statement of a keyword block says. -/
inductive KeywordItem where
  | listed (keys : List String)
  | maxRequested (cap : Nat)
  | maxDone (cap : Nat)
  deriving DecidableEq, Repr

/-- The keywords of a `keys` statement. They may be parted by blanks or by
    commas. -/
def keysOf (args : List String) : List String :=
  args.flatMap fun arg =>
    ((arg.toList.splitOn ',').filter fun key => !key.isEmpty).map String.ofList

/-- The largest hop cap. -/
def maxHopCap : Int := 7

/-- A statement that sets a hop cap, from one to the largest. -/
def readHopCap (s : Statement) (use : Nat → KeywordItem) : Readout KeywordItem :=
  readInteger s fun v =>
    if 1 ≤ v ∧ v ≤ maxHopCap then .item (use v.toNat)
    else .finding s.line (.badValue s.name (toString v))

/-- One node of a keyword block. -/
def readKeywordNode : Node → Readout KeywordItem
  | .statement s =>
    match s.name with
    | "keys" => .item (.listed (keysOf s.args))
    | "maxreq" => readHopCap s .maxRequested
    | "maxdone" => readHopCap s .maxDone
    | _ => unknownStatement s
  | .block heading _ => unknownBlock heading

namespace KeywordItem

/-- The keywords of an item. -/
def keys : KeywordItem → List String
  | listed keys => keys
  | _ => []

/-- The cap on requested hops that an item sets. -/
def maxRequested? : KeywordItem → Option Nat
  | maxRequested cap => some cap
  | _ => none

/-- The cap on done hops that an item sets. -/
def maxDone? : KeywordItem → Option Nat
  | maxDone cap => some cap
  | _ => none

end KeywordItem

/-- The keywords that the statements of a block list. -/
def listedKeys (r : Readout KeywordItem) : List String :=
  r.items.flatMap KeywordItem.keys

/-- Everything that is wrong with a keyword block. -/
def keywordFindings (b : Block) : List Finding :=
  let body := Readout.ofBody readKeywordNode b.body
  b.unclosedFindings ++ body.findings ++
    if listedKeys body = [] then [⟨b.line, .emptyKeywords b.tag⟩] else []

/-- The set that a keyword block declares. The last of several caps counts. -/
def keywordSet? (kind : KeywordKind) (b : Block) : Option KeywordSet :=
  let body := Readout.ofBody readKeywordNode b.body
  (KeywordSet.ofKeys? kind (listedKeys body)).map fun set =>
    set.withCaps ((body.latest? KeywordItem.maxRequested?).getD KeywordSet.defaultCap)
      ((body.latest? KeywordItem.maxDone?).getD KeywordSet.defaultCap)

/-- A keyword block as part of the block around it. It states its set if
    nothing is wrong with it. -/
def readKeywords {ι : Type} (kind : KeywordKind) (b : Block) (use : KeywordSet → ι) :
    Readout ι :=
  match keywordFindings b with
  | [] => ⟨(keywordSet? kind b).toList.map use, []⟩
  | findings => ⟨[], findings⟩

end AprsRelay
