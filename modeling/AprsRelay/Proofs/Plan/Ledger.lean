import AprsRelay.Plan.Digipeater

/-!
# One List of Faults for All Blocks

The builder makes a list for every node and puts the lists together. It could
also walk over a block once, with a single list that every block inside adds
to. Such a walk has no list of its own for a source block: it takes the block
when there are as many faults behind it as before. A fault that was found
earlier could then be mistaken for one of the block, or hide it.

This module has the walk, and the rules by which it is reasoned about. What a
walk over a part of a block does is said by `Ledger.Adds`: whatever faults were
found before, they stay as they are, certain findings come behind them, and the
result is of a certain kind. Findings of parts that follow each other are put
one behind the other, and counting faults before and behind a part is then the
same as asking for the findings of the part.

## Main definitions

* `Ledger`: Walks that add to one list of faults.
* `Ledger.watched`: A walk that counts the faults before and behind.
* `KeywordDraft`, `SourceDraft`, `DigipeaterDraft`: What was stated so far.
* `Ledger.keywords`, `Ledger.source`, `Ledger.digipeater`: The walks over
  blocks.
* `Ledger.ofBlock`: The plan of a block, or the block refused.
* `Ledger.Adds`: What a walk adds, and how it ends.

## Theorems

* `Ledger.Adds.bind`: One part after the other.
* `Ledger.adds_watched`: Counting tells whether a part found anything.
* `Ledger.adds_foldlM`: From a node to a body, with an invariant.
-/

namespace AprsRelay

/-- A finding in the file with the given name. -/
def Finding.inFile (file : String) (f : Finding) : Fault :=
  { f with file }

/-- A walk over parts of a block that adds to one list of faults. -/
abbrev Ledger (α : Type) : Type :=
  StateM (List Fault) α

namespace Ledger

variable {α β : Type}

/-- Add a fault. -/
def fault (file : String) (line : Nat) (cause : FaultCause) : Ledger Unit :=
  modify fun found => found ++ [Finding.inFile file ⟨line, cause⟩]

/-- Add a fault if a condition holds. -/
def faultIf (file : String) (condition : Bool) (line : Nat) (cause : FaultCause) : Ledger Unit :=
  if condition then fault file line cause else pure ()

/-- How many faults there are so far. -/
def count : Ledger Nat :=
  List.length <$> get

/-- A walk, and whether there are as many faults behind it as before. -/
def watched (walk : Ledger α) : Ledger (α × Bool) := do
  let before ← count
  let a ← walk
  let behind ← count
  return (a, behind == before)

/-- A fault for a block that was not closed. -/
def unclosed (file : String) (b : Block) : Ledger Unit :=
  faultIf file (!b.closed) b.line (.unclosed b.tag)

/-- The interface that the argument of a statement names, and its callsign. -/
def interface (station : Station) (file : String) (s : Statement) :
    Ledger (Option (InterfaceId × String)) :=
  match s.argument? with
  | none => do
    fault file s.line (.missingArgument s.name)
    return none
  | some arg =>
    match station.findInterface? (station.callsignOf arg) with
    | none => do
      fault file s.line (.unknownInterface (station.callsignOf arg))
      return none
    | some id => return some (id, station.callsignOf arg)

/-- The number that the argument of a statement denotes. -/
def integer (file : String) (s : Statement) : Ledger (Option Int) :=
  match s.argument? with
  | none => do
    fault file s.line (.missingArgument s.name)
    return none
  | some arg =>
    match Text.integer? arg with
    | none => do
      fault file s.line (.badValue s.name arg)
      return none
    | some v => return some v

end Ledger

/-! ## Keyword blocks -/

/-- What the statements of a keyword block have stated so far. -/
structure KeywordDraft where
  keys : List String := []
  maxRequested : Nat := KeywordSet.defaultCap
  maxDone : Nat := KeywordSet.defaultCap

/-- A draft with one more item. -/
def KeywordDraft.add (d : KeywordDraft) : KeywordItem → KeywordDraft
  | .listed keys => { d with keys := d.keys ++ keys }
  | .maxRequested cap => { d with maxRequested := cap }
  | .maxDone cap => { d with maxDone := cap }

namespace Ledger

/-- The hop cap of a statement. -/
def hopCap (file : String) (s : Statement) : Ledger (Option Nat) := do
  match ← integer file s with
  | none => return none
  | some v =>
    if 1 ≤ v ∧ v ≤ maxHopCap then
      return some v.toNat
    else
      fault file s.line (.badValue s.name (toString v))
      return none

/-- The walk over one node of a keyword block. -/
def keywordNode (file : String) (d : KeywordDraft) : Node → Ledger KeywordDraft
  | .statement s =>
    match s.name with
    | "keys" => return { d with keys := d.keys ++ keysOf s.args }
    | "maxreq" => do
      let cap ← hopCap file s
      return { d with maxRequested := cap.getD d.maxRequested }
    | "maxdone" => do
      let cap ← hopCap file s
      return { d with maxDone := cap.getD d.maxDone }
    | _ => do
      fault file s.line (.unknownKeyword s.name)
      return d
  | .block heading _ => do
    fault file heading.line (.unknownKeyword ("<" ++ heading.tag ++ ">"))
    return d

/-- The walk over a keyword block. A block that brought faults has no set. -/
def keywords (file : String) (kind : KeywordKind) (b : Block) : Ledger (Option KeywordSet) := do
  let made ← watched do
    unclosed file b
    let draft ← b.body.foldlM (keywordNode file) {}
    let set := KeywordSet.ofKeys? kind draft.keys
    faultIf file set.isNone b.line (.emptyKeywords b.tag)
    return set.map fun set => set.withCaps draft.maxRequested draft.maxDone
  return if made.2 then made.1 else none

end Ledger

/-! ## Source blocks -/

/-- What a source block asks for, as far as it was stated. -/
structure SourceFields where
  interface : Option InterfaceId := none
  relayFormat : RelayFormat := .unset
  filters : List String := []
  trace : Option KeywordSet := none
  wide : Option KeywordSet := none

/-- What the nodes of a source block have stated so far, and whether a
    `source` statement was among them. -/
structure SourceDraft extends SourceFields where
  sawSource : Bool := false

/-- The same fields with the outcome of a keyword block. -/
def SourceFields.withKeywords (d : SourceFields) (kind : KeywordKind) (set : Option KeywordSet) :
    SourceFields :=
  match kind with
  | .trace => { d with trace := set }
  | .wide => { d with wide := set }

/-- The same fields with one more item. -/
def SourceFields.add (d : SourceFields) : SourceItem → SourceFields
  | .interface id => { d with interface := some id }
  | .filter text => { d with filters := d.filters ++ [text] }
  | .relayFormat format => { d with relayFormat := format }
  | .keywords set => d.withKeywords set.kind (some set)

/-- The source that the fields ask for on an interface. -/
def SourceFields.plan (d : SourceFields) (interface : InterfaceId) : SourcePlan :=
  { interface, relayFormat := d.relayFormat, filters := d.filters, trace := d.trace,
    wide := d.wide }

namespace Ledger

/-- The walk over one node of a source block. -/
def sourceNode (station : Station) (file : String) (d : SourceDraft) :
    Node → Ledger SourceDraft
  | .statement s =>
    match s.name with
    | "source" => do
      let named ← interface station file s
      return { d with interface := named.map Prod.fst, sawSource := true }
    | "filter" =>
      match s.args with
      | [] => do
        fault file s.line (.missingArgument s.name)
        return d
      | args => return { d with filters := d.filters ++ [" ".intercalate args] }
    | "relay-format" =>
      match s.argument? with
      | none => return d
      | some arg => return { d with relayFormat := .ofWord arg }
    | _ => do
      fault file s.line (.unknownKeyword s.name)
      return d
  | .block heading body =>
    match heading.tag with
    | "trace" => do
      let set ← keywords file .trace { heading with body }
      return { d with toSourceFields := d.withKeywords .trace set }
    | "wide" => do
      let set ← keywords file .wide { heading with body }
      return { d with toSourceFields := d.withKeywords .wide set }
    | _ => do
      fault file heading.line (.unknownKeyword ("<" ++ heading.tag ++ ">"))
      return d

/-- The walk over a source block. A block that brought faults is refused with
    one more. -/
def source (station : Station) (file : String) (b : Block) : Ledger (Option SourcePlan) := do
  let made ← watched do
    unclosed file b
    let draft ← b.body.foldlM (sourceNode station file) {}
    faultIf file (!draft.sawSource) b.line .missingSource
    return draft
  match made.1.interface, made.2 with
  | some id, true => return some (made.1.plan id)
  | _, _ => do
    fault file b.line .sourceRejected
    return none

end Ledger

/-! ## Digipeater blocks -/

/-- What a digipeater block asks for, as far as it was stated. -/
structure DigipeaterFields where
  transmitter : Option InterfaceId := none
  rateLimit : Nat := standardRateLimit
  viscousDelay : Nat := 0
  trace : Option KeywordSet := none
  wide : Option KeywordSet := none
  sources : List SourcePlan := []

/-- What the nodes of a digipeater block have stated so far, whether a
    `transmit` statement was among them and how many source blocks. -/
structure DigipeaterDraft extends DigipeaterFields where
  sawTransmit : Bool := false
  sourceBlocks : Nat := 0

/-- The same fields with the outcome of a keyword block. -/
def DigipeaterFields.withKeywords (d : DigipeaterFields) (kind : KeywordKind)
    (set : Option KeywordSet) : DigipeaterFields :=
  match kind with
  | .trace => { d with trace := set }
  | .wide => { d with wide := set }

/-- The same fields with one more item. -/
def DigipeaterFields.add (d : DigipeaterFields) : DigipeaterItem → DigipeaterFields
  | .transmitter id => { d with transmitter := some id }
  | .rateLimit limit => { d with rateLimit := limit }
  | .viscousDelay delay => { d with viscousDelay := delay }
  | .source plan => { d with sources := d.sources ++ [plan] }
  | .keywords set => d.withKeywords set.kind (some set)

/-- The digipeater that the fields ask for on an interface. -/
def DigipeaterFields.plan (d : DigipeaterFields) (transmitter : InterfaceId) : DigipeaterPlan :=
  { transmitter, rateLimit := d.rateLimit, viscousDelay := d.viscousDelay, trace := d.trace,
    wide := d.wide, sources := d.sources }

namespace Ledger

/-- The walk over one node of a digipeater block. -/
def digipeaterNode (station : Station) (file : String) (d : DigipeaterDraft) :
    Node → Ledger DigipeaterDraft
  | .statement s =>
    match s.name with
    | "transmit" => do
      match ← interface station file s with
      | none => return { d with sawTransmit := true }
      | some (id, callsign) =>
        if station.canTransmit id then
          return { d with transmitter := some id, sawTransmit := true }
        else
          fault file s.line (.transmitNotAllowed callsign)
          return { d with sawTransmit := true }
    | "ratelimit" => do
      match ← integer file s with
      | none => return d
      | some v => return { d with rateLimit := rateLimit v }
    | "viscous-delay" => do
      match ← integer file s with
      | none => return d
      | some v =>
        faultIf file (!isViscousDelay v) s.line (.badViscousDelay v)
        return { d with viscousDelay := viscousDelay v }
    | _ => do
      fault file s.line (.unknownKeyword s.name)
      return d
  | .block heading body =>
    match heading.tag with
    | "trace" => do
      let set ← keywords file .trace { heading with body }
      return { d with toDigipeaterFields := d.withKeywords .trace set }
    | "wide" => do
      let set ← keywords file .wide { heading with body }
      return { d with toDigipeaterFields := d.withKeywords .wide set }
    | "source" => do
      let plan ← source station file { heading with body }
      return { d with sources := d.sources ++ plan.toList, sourceBlocks := d.sourceBlocks + 1 }
    | _ => do
      fault file heading.line (.unknownKeyword ("<" ++ heading.tag ++ ">"))
      return d

/-- The walk over a digipeater block. -/
def digipeater (station : Station) (file : String) (b : Block) : Ledger DigipeaterDraft := do
  unclosed file b
  let draft ← b.body.foldlM (digipeaterNode station file) {}
  faultIf file (!draft.sawTransmit) b.line .missingTransmit
  faultIf file (draft.sourceBlocks == 0) b.line .noSources
  return draft

/-- The plan of a digipeater block, or the block refused with all faults that
    the walk over it has found. -/
def ofBlock (station : Station) (file : String) (b : Block) : Except Rejection DigipeaterPlan :=
  let made := (digipeater station file b).run []
  match made.1.transmitter, made.2 with
  | some id, [] => .ok (made.1.plan id)
  | _, faults => .error ⟨file, b.line, faults⟩

/-! ## What a walk adds -/

/-- A walk adds the given findings, whatever was found before, and ends as
    `post` says. -/
def Adds (file : String) (walk : Ledger α) (findings : List Finding) (post : α → Prop) : Prop :=
  ∀ found, (walk.run found).2 = found ++ findings.map (Finding.inFile file) ∧
    post (walk.run found).1

section

variable {file : String}

theorem adds_pure {post : α → Prop} {a : α} (h : post a) :
    Adds file (pure a : Ledger α) [] post :=
  fun found => ⟨(List.append_nil found).symm, h⟩

theorem adds_fault (line : Nat) (cause : FaultCause) :
    Adds file (fault file line cause) [⟨line, cause⟩] fun _ => True :=
  fun _ => ⟨rfl, trivial⟩

theorem adds_faultIf (condition : Bool) (line : Nat) (cause : FaultCause) :
    Adds file (faultIf file condition line cause) (if condition then [⟨line, cause⟩] else [])
      fun _ => True := by
  cases condition with
  | true => exact adds_fault line cause
  | false => exact adds_pure trivial

theorem adds_faultIf_not (condition : Bool) (line : Nat) (cause : FaultCause) :
    Adds file (faultIf file (!condition) line cause) (if condition then [] else [⟨line, cause⟩])
      fun _ => True := by
  cases condition with
  | true => exact adds_pure trivial
  | false => exact adds_fault line cause

theorem Adds.bind {walk : Ledger α} {next : α → Ledger β} {first second : List Finding}
    {mid : α → Prop} {post : β → Prop} (hwalk : Adds file walk first mid)
    (hnext : ∀ a, mid a → Adds file (next a) second post) :
    Adds file (walk >>= next) (first ++ second) post := by
  intro found
  rcases hwalk found with ⟨hfirst, hmid⟩
  rcases hnext _ hmid (walk.run found).2 with ⟨hsecond, hpost⟩
  refine ⟨?_, hpost⟩
  rw [List.map_append, ← List.append_assoc, ← hfirst]
  exact hsecond

theorem Adds.mono {walk : Ledger α} {findings : List Finding} {post post' : α → Prop}
    (h : Adds file walk findings post) (hpost : ∀ a, post a → post' a) :
    Adds file walk findings post' :=
  fun found => ⟨(h found).1, hpost _ (h found).2⟩

-- A last step that finds nothing.
theorem Adds.bind_pure {walk : Ledger α} {f : α → β} {findings : List Finding} {mid : α → Prop}
    {post : β → Prop} (h : Adds file walk findings mid) (hpost : ∀ a, mid a → post (f a)) :
    Adds file (walk >>= fun a => pure (f a)) findings post := by
  rw [← List.append_nil findings]
  exact h.bind fun a ha => adds_pure (hpost a ha)

/-- As many faults behind a walk as before mean that it found nothing. -/
theorem adds_watched {walk : Ledger α} {findings : List Finding} {post : α → Prop}
    (h : Adds file walk findings post) :
    Adds file (watched walk) findings fun result =>
      post result.1 ∧ result.2 = findings.isEmpty := by
  intro found
  rcases h found with ⟨hadded, hpost⟩
  refine ⟨hadded, hpost, ?_⟩
  have hlength : ((walk.run found).2.length == found.length) = findings.isEmpty := by
    rw [hadded, List.length_append, List.length_map]
    cases findings with
    | nil => simp
    | cons f findings => simp
  exact hlength

/-- A walk over a body adds what is found at each node, in order. The invariant
    speaks of the nodes that are behind. -/
theorem adds_foldlM {σ : Type} {step : σ → Node → Ledger σ} {read : Node → List Finding}
    (inv : List Node → σ → Prop)
    (hstep : ∀ done node d, inv done d →
      Adds file (step d node) (read node) (inv (done ++ [node])))
    (body done : List Node) (d : σ) (hd : inv done d) :
    Adds file (body.foldlM step d) (body.flatMap read) (inv (done ++ body)) := by
  induction body generalizing done d with
  | nil =>
      rw [List.append_nil]
      exact adds_pure hd
  | cons node nodes ih =>
      rw [List.foldlM_cons, List.flatMap_cons, List.append_cons]
      exact (hstep done node d hd).bind fun d' hd' => ih _ d' hd'

end

end Ledger

end AprsRelay
