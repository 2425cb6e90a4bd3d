import AprsRelay.Proofs.BlockFile.Nesting
import AprsRelay.Proofs.Plan.Interfaces
import AprsRelay.Proofs.Plan.Walk

/-!
# The Faults That Are Reported

Of a block that is refused every fault is reported, in reading order. The
report on a block begins with the fault that it was not closed, goes on with
the faults of its nodes, one after the other, and ends with what is missing in
it. A source block is reported as refused as soon as there is a fault in it.

What is reported of a node is what a walk over this node alone would find. That
is worth saying because the walk over a block carries all faults along and
decides by their number: a fault of one node neither adds to the report on
another nor takes anything away from it.

## Main definitions

* `faultsOf`: The faults of a block that was read.
* `Ledger.faults`: The faults of a walk where none were found before.
* `nodeFaults`: The faults of one node of a digipeater block.
* `keywordReport`, `sourceReport`, `digipeaterReport`: The faults of a block.
* `FoundIn`: Findings on the lines of a forest.

## Theorems

* `map_keywordFindings`, `map_sourceFindings`, `map_digipeaterFindings`: The
  findings of the builder are the report.
* `foundIn_digipeaterFindings`: Findings are on lines of the block.
* `ofBlock_report`: What is reported of a digipeater block.
-/

namespace AprsRelay

/-- The faults of a block; none where a plan was built. -/
def faultsOf : Except Rejection DigipeaterPlan → List Fault
  | .ok _ => []
  | .error r => r.faults

/-- One fault if a condition holds, and none if it does not. -/
def faultsIf (condition : Prop) [Decidable condition] (file : String) (line : Nat)
    (cause : FaultCause) : List Fault :=
  if condition then [Finding.inFile file ⟨line, cause⟩] else []

/-- A `keys` statement of the block has an argument with a keyword in it, that
    is, with something between its commas. -/
def Block.HoldsKey (b : Block) : Prop :=
  ∃ s ∈ b.statements "keys", ∃ arg ∈ s.args, ∃ key ∈ arg.toList.splitOn ',', key ≠ []

instance (b : Block) : Decidable b.HoldsKey :=
  inferInstanceAs (Decidable (∃ s ∈ b.statements "keys", ∃ arg ∈ s.args,
    ∃ key ∈ arg.toList.splitOn ',', key ≠ []))

/-- The faults of a walk where none were found before. -/
def Ledger.faults {α : Type} (walk : Ledger α) : List Fault :=
  (walk.run []).2

/-- The faults of a node of a digipeater block, taken alone. -/
def nodeFaults (station : Station) (file : String) (node : Node) : List Fault :=
  (Ledger.digipeaterNode station file {} node).faults

/-- The faults of a node of a source block, taken alone. -/
def sourceNodeFaults (station : Station) (file : String) (node : Node) : List Fault :=
  (Ledger.sourceNode station file {} node).faults

/-- The faults of a node of a keyword block, taken alone. -/
def keywordNodeFaults (file : String) (node : Node) : List Fault :=
  (Ledger.keywordNode file {} node).faults

/-- The faults of a keyword block. -/
def keywordReport (file : String) (b : Block) : List Fault :=
  faultsIf (b.closed = false) file b.line (.unclosed b.tag) ++
    b.body.flatMap (keywordNodeFaults file) ++
    faultsIf (¬ b.HoldsKey) file b.line (.emptyKeywords b.tag)

/-- The faults inside a source block. -/
def sourceFaults (station : Station) (file : String) (b : Block) : List Fault :=
  faultsIf (b.closed = false) file b.line (.unclosed b.tag) ++
    b.body.flatMap (sourceNodeFaults station file) ++
    faultsIf (b.statements "source" = []) file b.line .missingSource

/-- The faults of a source block: those inside it, and that it is refused for
    them. -/
def sourceReport (station : Station) (file : String) (b : Block) : List Fault :=
  sourceFaults station file b ++
    faultsIf (sourceFaults station file b ≠ []) file b.line .sourceRejected

/-- The faults of a digipeater block. -/
def digipeaterReport (station : Station) (file : String) (b : Block) : List Fault :=
  faultsIf (b.closed = false) file b.line (.unclosed b.tag) ++
    b.body.flatMap (nodeFaults station file) ++
    faultsIf (b.statements "transmit" = []) file b.line .missingTransmit ++
    faultsIf (b.children "source" = []) file b.line .noSources

section

variable {file : String}

theorem faults_eq_of_adds {α : Type} {walk : Ledger α} {findings : List Finding}
    {post : α → Prop} (h : Ledger.Adds file walk findings post) :
    walk.faults = findings.map (Finding.inFile file) :=
  (h []).1

theorem nodeFaults_eq (station : Station) (node : Node) :
    nodeFaults station file node =
      (readDigipeaterNode station node).findings.map (Finding.inFile file) :=
  faults_eq_of_adds (Ledger.adds_digipeaterNode station {} node)

theorem sourceNodeFaults_eq (station : Station) (node : Node) :
    sourceNodeFaults station file node =
      (readSourceNode station node).findings.map (Finding.inFile file) :=
  faults_eq_of_adds (Ledger.adds_sourceNode station {} node)

theorem keywordNodeFaults_eq (node : Node) :
    keywordNodeFaults file node = (readKeywordNode node).findings.map (Finding.inFile file) :=
  faults_eq_of_adds (Ledger.adds_keywordNode {} node)

theorem map_ite (p q : Prop) [Decidable p] [Decidable q] (h : p ↔ q) (line : Nat)
    (cause : FaultCause) :
    (if p then [(⟨line, cause⟩ : Finding)] else []).map (Finding.inFile file) =
      faultsIf q file line cause := by
  unfold faultsIf
  rw [if_congr h rfl rfl]
  split <;> rfl

-- The same for a finding that is made unless something holds.
theorem map_ite_not (p q : Prop) [Decidable p] [Decidable q] (h : p ↔ ¬ q) (line : Nat)
    (cause : FaultCause) :
    (if p then [] else [(⟨line, cause⟩ : Finding)]).map (Finding.inFile file) =
      faultsIf q file line cause := by
  unfold faultsIf
  rw [if_congr h rfl rfl, ite_not]
  split <;> rfl

theorem map_unclosedFindings (b : Block) :
    b.unclosedFindings.map (Finding.inFile file) =
      faultsIf (b.closed = false) file b.line (.unclosed b.tag) :=
  map_ite_not _ _ (Bool.not_eq_false _).symm.to_iff _ _

theorem map_findings_ofBody {ι : Type} (read : Node → Readout ι) (faults : Node → List Fault)
    (h : ∀ node, faults node = (read node).findings.map (Finding.inFile file))
    (body : List Node) :
    (Readout.ofBody read body).findings.map (Finding.inFile file) = body.flatMap faults := by
  simp only [Readout.ofBody, List.map_flatMap, ← h]

/-! ## Reports -/

theorem map_keywordFindings (b : Block) :
    (keywordFindings b).map (Finding.inFile file) = keywordReport file b := by
  have hkeys : listedKeys (.ofBody readKeywordNode b.body) = [] ↔ ¬ b.HoldsKey := by
    rw [listedKeys_eq]
    simp only [Block.HoldsKey, List.flatMap_eq_nil_iff, not_exists, not_and, ← keysOf_ne_nil_iff,
      ne_eq, not_not]
  rw [keywordReport, keywordFindings, List.map_append, List.map_append, map_unclosedFindings,
    map_findings_ofBody readKeywordNode _ keywordNodeFaults_eq, map_ite _ _ hkeys]

theorem map_sourceFindings (station : Station) (b : Block) :
    (sourceFindings station b).map (Finding.inFile file) = sourceFaults station file b := by
  rw [sourceFaults, sourceFindings, List.map_append, List.map_append, map_unclosedFindings,
    map_ite_not _ _ (any_isSome_iff _ _), sourceBody,
    map_findings_ofBody (readSourceNode station) _ (sourceNodeFaults_eq station)]
  rfl

theorem map_digipeaterFindings (station : Station) (b : Block) :
    (digipeaterFindings station b).map (Finding.inFile file) =
      digipeaterReport station file b := by
  rw [digipeaterReport, digipeaterFindings, List.map_append, List.map_append, List.map_append,
    map_unclosedFindings, map_ite_not _ _ (any_isSome_iff _ _),
    map_ite_not _ _ (any_isSome_iff _ _), digipeaterBody,
    map_findings_ofBody (readDigipeaterNode station) _ (nodeFaults_eq station)]
  rfl

/-- A source block inside a digipeater block is reported as such. -/
theorem nodeFaults_source (station : Station) (b : Block) (htag : b.tag = "source") :
    nodeFaults station file (.block b.toHeading b.body) = sourceReport station file b := by
  rw [nodeFaults_eq, readDigipeaterNode]
  simp only [htag]
  rw [findings_readSource, List.map_append, map_sourceFindings]
  have hnil : sourceFindings station b = [] ↔ ¬ sourceFaults station file b ≠ [] := by
    rw [← map_sourceFindings, ne_eq, List.map_eq_nil_iff, not_not]
  rw [map_ite_not _ _ hnil]
  rfl

theorem nodeFaults_keywords (station : Station) (kind : KeywordKind) (b : Block)
    (htag : b.tag = kind.tag) :
    nodeFaults station file (.block b.toHeading b.body) = keywordReport file b ∧
      sourceNodeFaults station file (.block b.toHeading b.body) = keywordReport file b := by
  rw [nodeFaults_eq, sourceNodeFaults_eq, readDigipeaterNode, readSourceNode]
  cases kind with
  | trace =>
      simp only [htag, KeywordKind.tag]
      rw [findings_readKeywords, findings_readKeywords, map_keywordFindings]
      exact ⟨rfl, rfl⟩
  | wide =>
      simp only [htag, KeywordKind.tag]
      rw [findings_readKeywords, findings_readKeywords, map_keywordFindings]
      exact ⟨rfl, rfl⟩

end

/-! ## Lines -/

section

variable {ι : Type}

theorem line_of_readInteger (s : Statement) (use : Int → Readout ι)
    (huse : ∀ v, ∀ f ∈ (use v).findings, f.line = s.line) :
    ∀ f ∈ (readInteger s use).findings, f.line = s.line := by
  unfold readInteger
  cases s.argument? with
  | none => simp [Readout.finding]
  | some arg =>
      simp only
      cases Text.integer? arg with
      | none => simp [Readout.finding]
      | some v => exact huse v

theorem line_of_readInterface (station : Station) (s : Statement)
    (use : InterfaceId → String → Readout ι)
    (huse : ∀ id callsign, ∀ f ∈ (use id callsign).findings, f.line = s.line) :
    ∀ f ∈ (readInterface station s use).findings, f.line = s.line := by
  unfold readInterface
  cases s.argument? with
  | none => simp [Readout.finding]
  | some arg =>
      simp only
      cases station.findInterface? (station.callsignOf arg) with
      | none => simp [Readout.finding]
      | some id => exact huse id _

theorem line_of_unknownStatement (s : Statement) :
    ∀ f ∈ (unknownStatement s : Readout ι).findings, f.line = s.line := by
  simp [unknownStatement, Readout.finding]

theorem line_of_unknownBlock (heading : Heading) :
    ∀ f ∈ (unknownBlock heading : Readout ι).findings, f.line = heading.line := by
  simp [unknownBlock, Readout.finding]

-- An item, or else a finding on the line of the statement.
theorem line_of_ite (p : Prop) [Decidable p] (i : ι) (line : Nat) (cause : FaultCause) :
    ∀ f ∈ (if p then Readout.item i else .finding line cause).findings, f.line = line := by
  split <;> simp [Readout.item, Readout.finding]

end

theorem line_of_unclosedFindings (b : Block) : ∀ f ∈ b.unclosedFindings, f.line = b.line := by
  unfold Block.unclosedFindings
  split <;> simp

theorem line_of_ite_findings (p : Prop) [Decidable p] (line : Nat) (cause : FaultCause) :
    ∀ f ∈ (if p then [] else [(⟨line, cause⟩ : Finding)]), f.line = line := by
  split <;> simp

/-- Findings on the lines of a forest. -/
def FoundIn (forest : List Node) (findings : List Finding) : Prop :=
  ∀ f ∈ findings, f.line ∈ outlineLines forest

theorem foundIn_append (forest : List Node) (a b : List Finding) (ha : FoundIn forest a)
    (hb : FoundIn forest b) : FoundIn forest (a ++ b) :=
  List.forall_mem_append.2 ⟨ha, hb⟩

theorem foundIn_of_line (node : Node) (findings : List Finding)
    (h : ∀ f ∈ findings, f.line = node.line) : FoundIn [node] findings := by
  intro f hf
  rw [h f hf]
  exact line_mem_outlineLines node

-- Where the findings of nodes are inside these nodes, those of a body are
-- inside the block.
theorem foundIn_ofBody {ι : Type} (read : Node → Readout ι)
    (hread : ∀ node, FoundIn [node] (read node).findings) (heading : Heading)
    (body : List Node) : FoundIn [.block heading body] (Readout.ofBody read body).findings := by
  intro f hf
  rcases List.mem_flatMap.1 hf with ⟨node, hnode, hmem⟩
  rw [outlineLines_block]
  exact List.mem_cons_of_mem _ (outlineLines_subset body node hnode (hread node f hmem))

theorem line_of_readKeywordNode (node : Node) :
    ∀ f ∈ (readKeywordNode node).findings, f.line = node.line := by
  have hcap : ∀ (s : Statement) (use : Nat → KeywordItem),
      ∀ f ∈ (readHopCap s use).findings, f.line = s.line := fun s use =>
    line_of_readInteger s _ fun v => line_of_ite _ _ _ _
  cases node with
  | block heading body => exact line_of_unknownBlock heading
  | statement s =>
      unfold readKeywordNode
      simp only
      split
      · simp [Readout.item]
      · exact hcap s _
      · exact hcap s _
      · exact line_of_unknownStatement s

theorem foundIn_keywordFindings (b : Block) :
    FoundIn [.block b.toHeading b.body] (keywordFindings b) := by
  refine foundIn_append _ _ _ (foundIn_append _ _ _ ?_ ?_) ?_
  · exact foundIn_of_line _ _ (line_of_unclosedFindings b)
  · exact foundIn_ofBody _ (fun node => foundIn_of_line node _ (line_of_readKeywordNode node)) _ _
  · refine foundIn_of_line _ _ ?_
    split <;> simp [Node.line]

theorem foundIn_readSourceNode (station : Station) (node : Node) :
    FoundIn [node] (readSourceNode station node).findings := by
  cases node with
  | block heading body =>
      unfold readSourceNode
      simp only
      split
      · rw [findings_readKeywords]
        exact foundIn_keywordFindings { heading with body }
      · rw [findings_readKeywords]
        exact foundIn_keywordFindings { heading with body }
      · exact foundIn_of_line _ _ (line_of_unknownBlock heading)
  | statement s =>
      refine foundIn_of_line _ _ ?_
      unfold readSourceNode
      simp only
      split
      · refine line_of_readInterface station s _ fun id callsign => ?_
        simp [Readout.item]
      · unfold readFilter
        split <;> simp [Readout.item, Readout.finding, Node.line]
      · unfold readRelayFormat
        split <;> simp [Readout.item, Readout.nothing]
      · exact line_of_unknownStatement s

theorem foundIn_sourceFindings (station : Station) (b : Block) :
    FoundIn [.block b.toHeading b.body] (sourceFindings station b) := by
  refine foundIn_append _ _ _ (foundIn_append _ _ _ ?_ ?_) ?_
  · exact foundIn_of_line _ _ (line_of_unclosedFindings b)
  · exact foundIn_ofBody _ (foundIn_readSourceNode station) _ _
  · exact foundIn_of_line _ _ (line_of_ite_findings _ _ _)

theorem foundIn_readDigipeaterNode (station : Station) (node : Node) :
    FoundIn [node] (readDigipeaterNode station node).findings := by
  cases node with
  | block heading body =>
      unfold readDigipeaterNode
      simp only
      split
      · rw [findings_readKeywords]
        exact foundIn_keywordFindings { heading with body }
      · rw [findings_readKeywords]
        exact foundIn_keywordFindings { heading with body }
      · rw [findings_readSource]
        exact foundIn_append _ _ _ (foundIn_sourceFindings station { heading with body })
          (foundIn_of_line _ _ (line_of_ite_findings _ _ _))
      · exact foundIn_of_line _ _ (line_of_unknownBlock heading)
  | statement s =>
      refine foundIn_of_line _ _ ?_
      unfold readDigipeaterNode
      simp only
      split
      · exact line_of_readInterface station s _ fun id callsign => line_of_ite _ _ _ _
      · refine line_of_readInteger s _ fun v => ?_
        simp [Readout.item]
      · exact line_of_readInteger s _ fun v => line_of_ite _ _ _ _
      · exact line_of_unknownStatement s

/-- Everything that is found in a block is on the line of the block or of a
    node inside it. -/
theorem foundIn_digipeaterFindings (station : Station) (b : Block) :
    FoundIn [.block b.toHeading b.body] (digipeaterFindings station b) := by
  refine foundIn_append _ _ _ (foundIn_append _ _ _ (foundIn_append _ _ _ ?_ ?_) ?_) ?_
  · exact foundIn_of_line _ _ (line_of_unclosedFindings b)
  · exact foundIn_ofBody _ (foundIn_readDigipeaterNode station) _ _
  · exact foundIn_of_line _ _ (line_of_ite_findings _ _ _)
  · exact foundIn_of_line _ _ (line_of_ite_findings _ _ _)

/-! ## What is reported -/

theorem faultsOf_ofBlock (station : Station) (file : String) (b : Block) :
    faultsOf (DigipeaterPlan.ofBlock station file b) =
      (digipeaterFindings station b).map (Finding.inFile file) := by
  by_cases h : digipeaterFindings station b = []
  · rcases exists_digipeaterPlan? station b h with ⟨plan, hplan⟩
    rw [(ofBlock_eq_ok_iff station file b plan).2 ⟨h, hplan⟩, h]
    rfl
  · rw [ofBlock_eq_error station file b h]
    rfl

/-- The faults of a digipeater block, whether its plan is built from lists of
    findings or by a walk that carries one list along. They are the faults of
    its nodes in order, between the fault that it was not closed and what is
    missing in it. At a node the walk adds the faults of this node, whatever
    was stated and found before, and these depend on no other node, and on
    nothing in the station but its callsign and its interfaces. For a source
    block they end with the fault that it is refused as soon as there are any,
    and keyword blocks have the same faults wherever they stand. Every fault is
    in the file that was read and on the line of the block or of a node in
    it. -/
theorem ofBlock_report (station : Station) (file : String) (b : Block) :
    Ledger.ofBlock station file b = DigipeaterPlan.ofBlock station file b ∧
      faultsOf (DigipeaterPlan.ofBlock station file b) = digipeaterReport station file b ∧
      (∀ node d found, ((Ledger.digipeaterNode station file d node).run found).2 =
        found ++ nodeFaults station file node) ∧
      (∀ other : Station, other.mycall = station.mycall →
        other.interfaces = station.interfaces →
          nodeFaults other file = nodeFaults station file) ∧
      (∀ sub : Block, sub.tag = "source" →
        nodeFaults station file (.block sub.toHeading sub.body) =
          sourceReport station file sub) ∧
      (∀ (kind : KeywordKind) (sub : Block), sub.tag = kind.tag →
        nodeFaults station file (.block sub.toHeading sub.body) = keywordReport file sub ∧
          sourceNodeFaults station file (.block sub.toHeading sub.body) =
            keywordReport file sub) ∧
      ∀ fault ∈ faultsOf (DigipeaterPlan.ofBlock station file b),
        fault.file = file ∧ fault.line ∈ outlineLines [.block b.toHeading b.body] := by
  refine ⟨Ledger.ofBlock_eq station file b, ?_, ?_, ?_, nodeFaults_source station,
    nodeFaults_keywords station, ?_⟩
  · rw [faultsOf_ofBlock, map_digipeaterFindings]
  · intro node d found
    rw [nodeFaults_eq]
    exact (Ledger.adds_digipeaterNode station d node found).1
  · intro other hmycall hinterfaces
    funext node
    rw [nodeFaults_eq, nodeFaults_eq,
      readDigipeaterNode_congr (sameInterfaces_of_eq hmycall hinterfaces)]
  · intro fault hfault
    rw [faultsOf_ofBlock] at hfault
    rcases List.mem_map.1 hfault with ⟨f, hf, rfl⟩
    exact ⟨rfl, foundIn_digipeaterFindings station b f hf⟩

/-- A station with one interface, on which it may send. -/
def oneInterface : Station :=
  (⟨"OH2MQK-1", [], [], []⟩ : Station).addInterface "OH2MQK-1" true

/-- A digipeater block that runs to the end of the file, and so does its second
    source block. Nothing is wrong with the first. -/
def runningOn : Block :=
  { line := 1, tag := "digipeater", closed := false, body :=
    [.statement ⟨2, "transmit", ["OH2XYZ"]⟩,
      .block ⟨3, "source", true⟩ [.statement ⟨4, "source", ["$mycall"]⟩],
      .block ⟨6, "source", false⟩ [.statement ⟨7, "source", ["oh2mqk-1"]⟩,
        .block ⟨8, "wide", true⟩ [.statement ⟨9, "keys", [",,"]⟩],
        .statement ⟨11, "viscous-delay", ["5"]⟩]] }

-- The first source block is not refused for what was found before it.
theorem ofBlock_report_runningOn :
    (faultsOf (DigipeaterPlan.ofBlock oneInterface "digi.conf" runningOn)).map
        (fun fault => (fault.line, fault.cause)) =
      [(1, .unclosed "digipeater"), (2, .unknownInterface "OH2XYZ"), (6, .unclosed "source"),
        (8, .emptyKeywords "wide"), (11, .unknownKeyword "viscous-delay"),
        (6, .sourceRejected)] := by
  rw [(ofBlock_report oneInterface "digi.conf" runningOn).2.1]
  decide

end AprsRelay
