import AprsRelay.Plan.Digipeater
import AprsRelay.Proofs.BlockFile.Alike

/-!
# Alike Blocks

Blocks that are alike yield the same plan, or they are refused for the same
causes on corresponding lines. The builder copies line numbers into its
findings and does not look at them otherwise. A callsign it only looks up,
without regard to capitals, and what it found goes into the plan. When nothing
was found the callsign is reported as it is written, so the causes are equal
but for the callsigns in them.

This is shown for each reader in turn, from the arguments of statements to
digipeater blocks. At each level the items are equal and the findings
correspond.

## Main definitions

* `Block.Alike`: Blocks with alike nodes.
* `FaultCause.Alike`, `Finding.Alike`, `Fault.Alike`, `Rejection.Alike`: What
  is wrong on both sides.
* `Readout.Alike`: Equal items and corresponding findings.

## Theorems

* `callsigns_callsignOf`, `findInterface?_congr_letters`: Alike callsigns stand
  for the same interface.
* `alike_readInterface`, `alike_readInteger`: Alike arguments.
* `alike_ofBody`: A body, given what is made of its nodes.
* `alike_readKeywords`, `alike_readSource`: Blocks inside other blocks.
* `ofBlock_alike`: A digipeater block.
-/

namespace AprsRelay

/-- Alike headings with alike nodes below them. -/
structure Block.Alike (c : Likeness) (b b' : Block) : Prop where
  heading : b.toHeading.Alike c b'.toHeading
  body : List.Forall₂ (Node.Alike c) b.body b'.body

/-- The same cause, where a callsign may be written differently. -/
inductive FaultCause.Alike (c : Likeness) : FaultCause → FaultCause → Prop
  | same (cause : FaultCause) : FaultCause.Alike c cause cause
  | unknownInterface (a b : String) (h : c.callsigns a b) :
      FaultCause.Alike c (.unknownInterface a) (.unknownInterface b)
  | transmitNotAllowed (a b : String) (h : c.callsigns a b) :
      FaultCause.Alike c (.transmitNotAllowed a) (.transmitNotAllowed b)

/-- Alike causes on corresponding lines. -/
structure Finding.Alike (c : Likeness) (f f' : Finding) : Prop where
  line : c.lines f.line f'.line
  cause : f.cause.Alike c f'.cause

/-- The same in a file of the same name. -/
structure Fault.Alike (c : Likeness) (f f' : Fault) : Prop where
  finding : f.toFinding.Alike c f'.toFinding
  file : f.file = f'.file

/-- Blocks on corresponding lines that are refused for alike faults, as many
    and in the same order. -/
structure Rejection.Alike (c : Likeness) (r r' : Rejection) : Prop where
  file : r.file = r'.file
  line : c.lines r.line r'.line
  faults : List.Forall₂ (Fault.Alike c) r.faults r'.faults

/-- The same items, and findings that are alike. -/
structure Readout.Alike {ι : Type} (c : Likeness) (r r' : Readout ι) : Prop where
  items : r.items = r'.items
  findings : List.Forall₂ (Finding.Alike c) r.findings r'.findings

variable {c : Likeness} {ι : Type}

/-! ## Callsigns -/

-- The station's own call may be asked for in capitals or not.
theorem callsigns_callsignOf (station : Station) {a b : String} (h : c.callsigns a b) :
    c.callsigns (station.callsignOf a) (station.callsignOf b) := by
  have hown : Text.sameLetters b "$mycall" = Text.sameLetters a "$mycall" := by
    rw [Text.sameLetters, ← (Text.sameLetters_iff a b).1 (c.sameLetters a b h), Text.sameLetters]
  rw [Station.callsignOf, Station.callsignOf, hown]
  split
  · exact c.callsigns_refl station.mycall
  · exact h

theorem findInterface?_congr_letters (station : Station) {a b : String}
    (h : Text.sameLetters a b = true) : station.findInterface? a = station.findInterface? b := by
  simp only [Station.findInterface?, Text.sameLetters, (Text.sameLetters_iff a b).1 h]

/-! ## Nodes of a body -/

namespace Readout.Alike

theorem refl_item (i : ι) : (Readout.item i).Alike c (.item i) :=
  ⟨rfl, .nil⟩

theorem refl_nothing : (Readout.nothing : Readout ι).Alike c .nothing :=
  ⟨rfl, .nil⟩

theorem finding {line line' : Nat} {cause cause' : FaultCause} (hline : c.lines line line')
    (hcause : cause.Alike c cause') :
    (Readout.finding line cause : Readout ι).Alike c (.finding line' cause') :=
  ⟨rfl, .cons ⟨hline, hcause⟩ .nil⟩

/-- The same cause on corresponding lines. -/
theorem finding_same {line line' : Nat} (hline : c.lines line line') (cause : FaultCause) :
    (Readout.finding line cause : Readout ι).Alike c (.finding line' cause) :=
  finding hline (.same cause)

theorem latest?_eq {α : Type} {r r' : Readout ι} (h : r.Alike c r') (value? : ι → Option α) :
    r.latest? value? = r'.latest? value? := by
  rw [latest?, h.items, latest?]

end Readout.Alike

/-- When alike nodes are read alike, so are alike bodies. -/
theorem alike_ofBody {read read' : Node → Readout ι}
    (h : ∀ node node', node.Alike c node' → (read node).Alike c (read' node'))
    {body body' : List Node} (hbody : List.Forall₂ (Node.Alike c) body body') :
    (Readout.ofBody read body).Alike c (.ofBody read' body') := by
  induction hbody with
  | nil => exact ⟨rfl, .nil⟩
  | cons hnode _ ih =>
      have hfirst := h _ _ hnode
      refine ⟨?_, List.rel_append hfirst.findings ih.findings⟩
      simp only [Readout.ofBody, List.flatMap_cons, hfirst.items]
      exact congrArg _ ih.items

-- Whether some node is of a kind, and what is found if there is none.
theorem forall₂_ite_any {pick : Node → Bool}
    (hpick : ∀ node node', node.Alike c node' → pick node = pick node')
    {body body' : List Node} (hbody : List.Forall₂ (Node.Alike c) body body')
    {line line' : Nat} (hline : c.lines line line') (cause : FaultCause) :
    List.Forall₂ (Finding.Alike c) (if body.any pick then [] else [⟨line, cause⟩])
      (if body'.any pick then [] else [⟨line', cause⟩]) := by
  have hany : body.any pick = body'.any pick := by
    induction hbody with
    | nil => rfl
    | cons hnode _ ih => rw [List.any_cons, List.any_cons, hpick _ _ hnode, ih]
  rw [hany]
  split
  · exact .nil
  · exact .cons ⟨hline, .same cause⟩ .nil

theorem isSome_eq_of_rel {α β : Type} {R : α → β → Prop} {x : Option α} {y : Option β}
    (h : Option.Rel R x y) : x.isSome = y.isSome := by
  cases h <;> rfl

theorem Node.Alike.rel_statementNamed? {node node' : Node} (h : node.Alike c node')
    (name : String) :
    Option.Rel (Statement.Alike c) (node.statementNamed? name) (node'.statementNamed? name) := by
  cases h with
  | block heading heading' body body' _ _ => exact .none
  | statement s s' hs =>
      simp only [Node.statementNamed?, ← hs.name]
      split
      · exact .some hs
      · exact .none

-- Blocks with a tag stand in the same places on both sides.
theorem Node.Alike.rel_blockTagged? {node node' : Node} (h : node.Alike c node')
    (tag : String) :
    Option.Rel (Block.Alike c) (node.blockTagged? tag) (node'.blockTagged? tag) := by
  cases h with
  | statement s s' _ => exact .none
  | block heading heading' body body' hheading hbody =>
      simp only [Node.blockTagged?, ← hheading.tag]
      split
      · exact .some ⟨hheading, hbody⟩
      · exact .none

theorem Block.Alike.unclosedFindings {b b' : Block} (h : b.Alike c b') :
    List.Forall₂ (Finding.Alike c) b.unclosedFindings b'.unclosedFindings := by
  rw [Block.unclosedFindings, Block.unclosedFindings, ← h.heading.closed, ← h.heading.tag]
  split
  · exact .nil
  · exact .cons ⟨h.heading.line, .same _⟩ .nil

theorem alike_unknownBlock {heading heading' : Heading} (h : heading.Alike c heading') :
    (unknownBlock heading : Readout ι).Alike c (unknownBlock heading') := by
  rw [unknownBlock, unknownBlock, ← h.tag]
  exact .finding_same h.line _

/-! ## Statements -/

section

variable {s s' : Statement} (h : s.Alike c s')
include h

theorem Statement.Alike.rel_argument? : Option.Rel c.callsigns s.argument? s'.argument? := by
  have hargs := h.args
  rw [Statement.argument?, Statement.argument?]
  generalize s.args = args at hargs
  generalize s'.args = args' at hargs
  cases hargs with
  | callsign arg arg' others _ hcall => exact .some hcall
  | same args =>
      cases args with
      | nil => exact .none
      | cons arg args => exact .some (c.callsigns_refl arg)

-- Only two keywords name an interface.
theorem Statement.Alike.args_eq (hname : ¬ (s.name = "transmit" ∨ s.name = "source")) :
    s.args = s'.args := by
  have hargs := h.args
  generalize s.args = args at hargs
  generalize s'.args = args' at hargs
  cases hargs with
  | same args => rfl
  | callsign arg arg' others hcall _ => exact absurd hcall hname

theorem alike_unknownStatement :
    (unknownStatement s : Readout ι).Alike c (unknownStatement s') := by
  rw [unknownStatement, unknownStatement, ← h.name]
  exact .finding_same h.line _

theorem alike_readInterface (station : Station) (use use' : InterfaceId → String → Readout ι)
    (huse : ∀ id a b, c.callsigns a b → (use id a).Alike c (use' id b)) :
    (readInterface station s use).Alike c (readInterface station s' use') := by
  have harg := h.rel_argument?
  rw [readInterface, readInterface]
  generalize s.argument? = arg at harg
  generalize s'.argument? = arg' at harg
  cases harg with
  | none =>
      simp only [← h.name]
      exact .finding_same h.line _
  | some hcall =>
      have hown := callsigns_callsignOf station hcall
      simp only [← findInterface?_congr_letters station (c.sameLetters _ _ hown)]
      split
      · exact .finding h.line (.unknownInterface _ _ hown)
      · exact huse _ _ _ hown

theorem alike_readInteger (hname : ¬ (s.name = "transmit" ∨ s.name = "source"))
    (use use' : Int → Readout ι) (huse : ∀ v, (use v).Alike c (use' v)) :
    (readInteger s use).Alike c (readInteger s' use') := by
  rw [readInteger, readInteger, Statement.argument?, Statement.argument?, h.args_eq hname,
    h.name]
  split
  · exact .finding_same h.line _
  · split
    · exact .finding_same h.line _
    · exact huse _

/-! ## Keyword blocks -/

theorem alike_readHopCap (hname : ¬ (s.name = "transmit" ∨ s.name = "source"))
    (use : Nat → KeywordItem) : (readHopCap s use).Alike c (readHopCap s' use) := by
  refine alike_readInteger h hname _ _ fun v => ?_
  rw [h.name]
  split
  · exact .refl_item _
  · exact .finding_same h.line _

end

theorem alike_readKeywordNode (node node' : Node) (h : node.Alike c node') :
    (readKeywordNode node).Alike c (readKeywordNode node') := by
  cases h with
  | block heading heading' body body' hheading _ => exact alike_unknownBlock hheading
  | statement s s' hs =>
      simp only [readKeywordNode, ← hs.name]
      split
      · rename_i hname
        rw [hs.args_eq (by rw [hname]; decide)]
        exact .refl_item _
      · rename_i hname
        exact alike_readHopCap hs (by rw [hname]; decide) _
      · rename_i hname
        exact alike_readHopCap hs (by rw [hname]; decide) _
      · exact alike_unknownStatement hs

section

variable {b b' : Block} (h : b.Alike c b')
include h

theorem alike_keywordBody :
    (Readout.ofBody readKeywordNode b.body).Alike c (.ofBody readKeywordNode b'.body) :=
  alike_ofBody alike_readKeywordNode h.body

theorem forall₂_keywordFindings :
    List.Forall₂ (Finding.Alike c) (keywordFindings b) (keywordFindings b') := by
  have hbody := alike_keywordBody h
  refine List.rel_append (List.rel_append h.unclosedFindings hbody.findings) ?_
  rw [listedKeys, listedKeys, hbody.items, ← h.heading.tag]
  split
  · exact .cons ⟨h.heading.line, .same _⟩ .nil
  · exact .nil

theorem keywordSet?_alike (kind : KeywordKind) : keywordSet? kind b = keywordSet? kind b' := by
  have hbody := alike_keywordBody h
  simp only [keywordSet?, listedKeys, hbody.items, hbody.latest?_eq]

theorem alike_readKeywords (kind : KeywordKind) (use : KeywordSet → ι) :
    (readKeywords kind b use).Alike c (readKeywords kind b' use) := by
  have hfindings := forall₂_keywordFindings h
  rw [readKeywords, readKeywords, keywordSet?_alike h]
  generalize keywordFindings b = findings at hfindings
  generalize keywordFindings b' = findings' at hfindings
  cases hfindings with
  | nil => exact ⟨rfl, .nil⟩
  | cons hfirst hrest => exact ⟨rfl, .cons hfirst hrest⟩

end

/-! ## Source blocks -/

theorem alike_readFilter {s s' : Statement} (h : s.Alike c s') (hargs : s.args = s'.args) :
    (readFilter s).Alike c (readFilter s') := by
  rw [readFilter, readFilter, hargs, h.name]
  split
  · exact .finding_same h.line _
  · exact .refl_item _

theorem alike_readRelayFormat {s s' : Statement} (hargs : s.args = s'.args) :
    (readRelayFormat s).Alike c (readRelayFormat s') := by
  rw [readRelayFormat, readRelayFormat, Statement.argument?, Statement.argument?, hargs]
  split
  · exact .refl_nothing
  · exact .refl_item _

section

variable (station : Station)

theorem alike_readSourceNode (node node' : Node) (h : node.Alike c node') :
    (readSourceNode station node).Alike c (readSourceNode station node') := by
  cases h with
  | statement s s' hs =>
      simp only [readSourceNode, ← hs.name]
      split
      · exact alike_readInterface hs station _ _ fun _ _ _ _ => .refl_item _
      · rename_i hname
        exact alike_readFilter hs (hs.args_eq (by rw [hname]; decide))
      · rename_i hname
        exact alike_readRelayFormat (hs.args_eq (by rw [hname]; decide))
      · exact alike_unknownStatement hs
  | block heading heading' body body' hheading hbody =>
      simp only [readSourceNode, ← hheading.tag]
      split
      · exact alike_readKeywords ⟨hheading, hbody⟩ .trace _
      · exact alike_readKeywords ⟨hheading, hbody⟩ .wide _
      · exact alike_unknownBlock hheading

variable {b b' : Block} (h : b.Alike c b')
include h

theorem alike_sourceBody : (sourceBody station b).Alike c (sourceBody station b') :=
  alike_ofBody (alike_readSourceNode station) h.body

theorem forall₂_sourceFindings :
    List.Forall₂ (Finding.Alike c) (sourceFindings station b) (sourceFindings station b') := by
  refine List.rel_append (List.rel_append h.unclosedFindings
    (alike_sourceBody station h).findings) ?_
  exact forall₂_ite_any (fun _ _ hnode => isSome_eq_of_rel (hnode.rel_statementNamed? "source"))
    h.body h.heading.line _

theorem sourcePlan?_alike : sourcePlan? station b = sourcePlan? station b' := by
  have hbody := alike_sourceBody station h
  simp only [sourcePlan?, hbody.items, hbody.latest?_eq]

theorem alike_readSource (use : SourcePlan → ι) :
    (readSource station b use).Alike c (readSource station b' use) := by
  have hfindings := forall₂_sourceFindings station h
  have hrejected : List.Forall₂ (Finding.Alike c) [⟨b.line, .sourceRejected⟩]
      [⟨b'.line, .sourceRejected⟩] := .cons ⟨h.heading.line, .same _⟩ .nil
  rw [readSource, readSource, sourcePlan?_alike station h]
  generalize sourceFindings station b = findings at hfindings
  generalize sourceFindings station b' = findings' at hfindings
  cases hfindings with
  | cons hfirst hrest => exact ⟨rfl, .cons hfirst (List.rel_append hrest hrejected)⟩
  | nil =>
      cases sourcePlan? station b' with
      | none => exact ⟨rfl, hrejected⟩
      | some plan => exact .refl_item _

end

/-! ## Digipeater blocks -/

section

variable (station : Station)

theorem alike_readTransmit {s s' : Statement} (h : s.Alike c s') :
    (readTransmit station s).Alike c (readTransmit station s') := by
  refine alike_readInterface h station _ _ fun id a b hcall => ?_
  split
  · exact .refl_item _
  · exact .finding h.line (.transmitNotAllowed a b hcall)

theorem alike_readViscousDelay {s s' : Statement} (h : s.Alike c s')
    (hname : ¬ (s.name = "transmit" ∨ s.name = "source")) :
    (readViscousDelay s).Alike c (readViscousDelay s') := by
  refine alike_readInteger h hname _ _ fun v => ?_
  split
  · exact .refl_item _
  · exact .finding_same h.line _

theorem alike_readDigipeaterNode (node node' : Node) (h : node.Alike c node') :
    (readDigipeaterNode station node).Alike c (readDigipeaterNode station node') := by
  cases h with
  | statement s s' hs =>
      simp only [readDigipeaterNode, ← hs.name]
      split
      · exact alike_readTransmit station hs
      · rename_i hname
        exact alike_readInteger hs (by rw [hname]; decide) _ _ fun v => .refl_item _
      · rename_i hname
        exact alike_readViscousDelay hs (by rw [hname]; decide)
      · exact alike_unknownStatement hs
  | block heading heading' body body' hheading hbody =>
      simp only [readDigipeaterNode, ← hheading.tag]
      split
      · exact alike_readKeywords ⟨hheading, hbody⟩ .trace _
      · exact alike_readKeywords ⟨hheading, hbody⟩ .wide _
      · exact alike_readSource station ⟨hheading, hbody⟩ _
      · exact alike_unknownBlock hheading

variable {b b' : Block} (h : b.Alike c b')
include h

theorem alike_digipeaterBody :
    (digipeaterBody station b).Alike c (digipeaterBody station b') :=
  alike_ofBody (alike_readDigipeaterNode station) h.body

theorem forall₂_digipeaterFindings :
    List.Forall₂ (Finding.Alike c) (digipeaterFindings station b)
      (digipeaterFindings station b') := by
  refine List.rel_append (List.rel_append (List.rel_append h.unclosedFindings
    (alike_digipeaterBody station h).findings) ?_) ?_
  · exact forall₂_ite_any
      (fun _ _ hnode => isSome_eq_of_rel (hnode.rel_statementNamed? "transmit")) h.body
      h.heading.line _
  · exact forall₂_ite_any (fun _ _ hnode => isSome_eq_of_rel (hnode.rel_blockTagged? "source"))
      h.body h.heading.line _

theorem digipeaterPlan?_alike : digipeaterPlan? station b = digipeaterPlan? station b' := by
  have hbody := alike_digipeaterBody station h
  simp only [digipeaterPlan?, hbody.items, hbody.latest?_eq]

theorem alike_ofFindings (file : String) {findings findings' : List Finding}
    (hfindings : List.Forall₂ (Finding.Alike c) findings findings') :
    (Rejection.ofFindings file b.line findings).Alike c
      (Rejection.ofFindings file b'.line findings') := by
  refine ⟨rfl, h.heading.line, ?_⟩
  rw [Rejection.ofFindings, Rejection.ofFindings, List.forall₂_map_left_iff,
    List.forall₂_map_right_iff]
  exact hfindings.imp fun _ _ hfinding => ⟨hfinding, rfl⟩

/-- Alike blocks yield the same plan, or they are both refused, for alike
    faults. -/
theorem ofBlock_alike (file : String) :
    (∃ plan, DigipeaterPlan.ofBlock station file b = .ok plan ∧
        DigipeaterPlan.ofBlock station file b' = .ok plan) ∨
      ∃ r r', DigipeaterPlan.ofBlock station file b = .error r ∧
        DigipeaterPlan.ofBlock station file b' = .error r' ∧ r.Alike c r' := by
  have hfindings := forall₂_digipeaterFindings station h
  rw [DigipeaterPlan.ofBlock, DigipeaterPlan.ofBlock, digipeaterPlan?_alike station h]
  generalize digipeaterFindings station b = findings at hfindings
  generalize digipeaterFindings station b' = findings' at hfindings
  cases hfindings with
  | cons hfirst hrest =>
      exact .inr ⟨_, _, rfl, rfl, alike_ofFindings h file (.cons hfirst hrest)⟩
  | nil =>
      cases digipeaterPlan? station b' with
      | none => exact .inr ⟨_, _, rfl, rfl, alike_ofFindings h file .nil⟩
      | some plan => exact .inl ⟨plan, rfl, rfl⟩

end

end AprsRelay
