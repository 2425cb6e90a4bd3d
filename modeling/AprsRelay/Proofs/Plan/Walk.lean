import AprsRelay.Proofs.Plan.Ledger
import AprsRelay.Proofs.Plan.Rules

/-!
# The Walk and the Builder

A walk with one list of faults comes to the same plan as the builder, or to the
same faults in the same order. There is one lemma for each kind of node, one
for a body by induction over its nodes, and one for each kind of block, from
the inside out. Each says that the part adds the findings that the builder has
for it.

Where a statement or block is faulty, the walk may forget what an earlier one
had stated, while the builder does not. So the two agree about what was stated
only as long as nothing was found, which is all that a plan asks for. Whether a
`source` or `transmit` statement or a source block was there is known in any
case.

## Main definitions

* `SourceDraft.Follows`, `DigipeaterDraft.Follows`: A draft after a node, or
  after a body.

## Theorems

* `adds_integer_bind`, `adds_interface_bind`: Arguments.
* `KeywordDraft.foldl_add`, `SourceFields.foldl_add`,
  `DigipeaterFields.foldl_add`: What items leave that are added one after the
  other.
* `adds_keywordNode`, `adds_sourceNode`, `adds_digipeaterNode`: Nodes.
* `adds_keywords`, `adds_source`, `adds_digipeater`: Blocks.
* `Ledger.ofBlock_eq`: The walk does what the builder does.
-/

namespace AprsRelay

namespace Ledger

section

variable {file : String} {β : Type}

theorem adds_unclosed (b : Block) :
    Adds file (unclosed file b) b.unclosedFindings fun _ => True :=
  adds_faultIf_not _ _ _

-- A fault that leaves nothing to go on with.
theorem adds_fault_bind {α : Type} {next : Option α → Ledger β} {post : β → Prop} (line : Nat)
    (cause : FaultCause) (h : Adds file (next none) [] post) :
    Adds file ((do fault file line cause; return none) >>= next) [⟨line, cause⟩] post := by
  have hfault : Adds file (do fault file line cause; return (none : Option α)) [⟨line, cause⟩]
      (· = none) := (adds_fault line cause).bind_pure fun _ _ => rfl
  refine hfault.bind (fun a ha => ?_)
  rw [ha]
  exact h

/-- A statement with a number: without one there is one finding and no item,
    and with one it is the number's use that counts. -/
theorem adds_integer_bind {ι : Type} {s : Statement} {use : Int → Readout ι}
    {next : Option Int → Ledger β} {post : β → Prop}
    (hnone : ∀ f, readInteger s use = ⟨[], [f]⟩ → Adds file (next none) [] post)
    (hsome : ∀ v, readInteger s use = use v →
      Adds file (next (some v)) (use v).findings post) :
    Adds file (integer file s >>= next) (readInteger s use).findings post := by
  unfold integer
  unfold readInteger at hnone hsome ⊢
  cases harg : s.argument? with
  | none =>
      simp only [harg] at hnone ⊢
      exact adds_fault_bind _ _ (hnone _ rfl)
  | some arg =>
      cases hv : Text.integer? arg with
      | none =>
          simp only [harg, hv] at hnone ⊢
          exact adds_fault_bind _ _ (hnone _ rfl)
      | some v =>
          simp only [harg, hv] at hsome ⊢
          exact (adds_pure rfl).bind fun a ha => ha ▸ hsome v rfl

theorem adds_interface_bind {ι : Type} {station : Station} {s : Statement}
    {use : InterfaceId → String → Readout ι} {next : Option (InterfaceId × String) → Ledger β}
    {post : β → Prop}
    (hnone : ∀ f, readInterface station s use = ⟨[], [f]⟩ → Adds file (next none) [] post)
    (hsome : ∀ id callsign, readInterface station s use = use id callsign →
      Adds file (next (some (id, callsign))) (use id callsign).findings post) :
    Adds file (interface station file s >>= next) (readInterface station s use).findings
      post := by
  unfold interface
  unfold readInterface at hnone hsome ⊢
  cases harg : s.argument? with
  | none =>
      simp only [harg] at hnone ⊢
      exact adds_fault_bind _ _ (hnone _ rfl)
  | some arg =>
      cases hid : station.findInterface? (station.callsignOf arg) with
      | none =>
          simp only [harg, hid] at hnone ⊢
          exact adds_fault_bind _ _ (hnone _ rfl)
      | some id =>
          simp only [harg, hid] at hsome ⊢
          exact (adds_pure rfl).bind fun a ha => ha ▸ hsome id _ rfl

theorem adds_hopCap (s : Statement) (use : Nat → KeywordItem) :
    Adds file (hopCap file s) (readHopCap s use).findings fun cap =>
      (readHopCap s use).items = cap.toList.map use := by
  unfold hopCap readHopCap
  refine adds_integer_bind (fun f hf => adds_pure ?_) (fun v hv => ?_)
  · rw [hf]
    rfl
  · rw [hv]
    by_cases hrange : 1 ≤ v ∧ v ≤ maxHopCap
    · simp only [if_pos hrange]
      exact adds_pure rfl
    · simp only [if_neg hrange]
      exact (adds_fault _ _).bind_pure fun _ _ => rfl

theorem adds_keywordNode (d : KeywordDraft) (node : Node) :
    Adds file (keywordNode file d node) (readKeywordNode node).findings fun d' =>
      d' = (readKeywordNode node).items.foldl KeywordDraft.add d := by
  cases node with
  | block heading body => exact (adds_fault _ _).bind_pure fun _ _ => rfl
  | statement s =>
      unfold keywordNode
      simp only
      split
      · rename_i hname
        simp only [readKeywordNode, hname]
        exact adds_pure rfl
      · rename_i hname
        simp only [readKeywordNode, hname]
        refine (adds_hopCap s .maxRequested).bind_pure fun cap hcap => ?_
        rw [hcap]
        cases cap <;> rfl
      · rename_i hname
        simp only [readKeywordNode, hname]
        refine (adds_hopCap s .maxDone).bind_pure fun cap hcap => ?_
        rw [hcap]
        cases cap <;> rfl
      · simp only [readKeywordNode]
        exact (adds_fault _ _).bind_pure fun _ _ => rfl

end

end Ledger

/-! ## Bodies and blocks -/

section

variable {ι : Type}

theorem items_ofBody_concat (read : Node → Readout ι) (done : List Node) (node : Node) :
    (Readout.ofBody read (done ++ [node])).items =
      (Readout.ofBody read done).items ++ (read node).items := by
  simp [Readout.ofBody]

theorem findings_ofBody_concat (read : Node → Readout ι) (done : List Node) (node : Node) :
    (Readout.ofBody read (done ++ [node])).findings =
      (Readout.ofBody read done).findings ++ (read node).findings := by
  simp [Readout.ofBody]

end

/-- Items that are added one after the other leave all keywords, and the last
    of several caps. -/
theorem KeywordDraft.foldl_add (items : List KeywordItem) (d : KeywordDraft) :
    items.foldl add d =
      { keys := d.keys ++ items.flatMap KeywordItem.keys
        maxRequested := (items.filterMap KeywordItem.maxRequested?).getLast?.getD d.maxRequested
        maxDone := (items.filterMap KeywordItem.maxDone?).getLast?.getD d.maxDone } := by
  induction items generalizing d with
  | nil => simp
  | cons item items ih =>
      rw [List.foldl_cons, ih]
      cases item <;>
        simp [add, KeywordItem.keys, KeywordItem.maxRequested?, KeywordItem.maxDone?,
          List.getLast?_cons]

/-- The same for a source block. -/
theorem SourceFields.foldl_add (items : List SourceItem) (d : SourceFields) :
    items.foldl add d =
      { interface := (items.filterMap SourceItem.interface?).getLast?.or d.interface
        relayFormat := (items.filterMap SourceItem.relayFormat?).getLast?.getD d.relayFormat
        filters := d.filters ++ items.filterMap SourceItem.filter?
        trace := (items.filterMap (SourceItem.keywords? .trace)).getLast?.or d.trace
        wide := (items.filterMap (SourceItem.keywords? .wide)).getLast?.or d.wide } := by
  induction items generalizing d with
  | nil => simp
  | cons item items ih =>
      rw [List.foldl_cons, ih]
      cases item with
      | keywords set =>
          cases hkind : set.kind <;>
            simp [add, withKeywords, hkind, SourceItem.keywords?, SourceItem.interface?,
              SourceItem.relayFormat?, SourceItem.filter?, List.filterMap_cons,
              List.getLast?_cons]
      | _ =>
          simp [add, SourceItem.keywords?, SourceItem.interface?, SourceItem.relayFormat?,
            SourceItem.filter?, List.filterMap_cons, List.getLast?_cons]

/-- The same for a digipeater block. -/
theorem DigipeaterFields.foldl_add (items : List DigipeaterItem) (d : DigipeaterFields) :
    items.foldl add d =
      { transmitter := (items.filterMap DigipeaterItem.transmitter?).getLast?.or d.transmitter
        rateLimit := (items.filterMap DigipeaterItem.rateLimit?).getLast?.getD d.rateLimit
        viscousDelay :=
          (items.filterMap DigipeaterItem.viscousDelay?).getLast?.getD d.viscousDelay
        trace := (items.filterMap (DigipeaterItem.keywords? .trace)).getLast?.or d.trace
        wide := (items.filterMap (DigipeaterItem.keywords? .wide)).getLast?.or d.wide
        sources := d.sources ++ items.filterMap DigipeaterItem.source? } := by
  induction items generalizing d with
  | nil => simp
  | cons item items ih =>
      rw [List.foldl_cons, ih]
      cases item with
      | keywords set =>
          cases hkind : set.kind <;>
            simp [add, withKeywords, hkind, DigipeaterItem.keywords?, DigipeaterItem.transmitter?,
              DigipeaterItem.rateLimit?, DigipeaterItem.viscousDelay?, DigipeaterItem.source?,
              List.filterMap_cons, List.getLast?_cons]
      | _ =>
          simp [add, DigipeaterItem.keywords?, DigipeaterItem.transmitter?,
            DigipeaterItem.rateLimit?, DigipeaterItem.viscousDelay?, DigipeaterItem.source?,
            List.filterMap_cons, List.getLast?_cons]

-- No keyword that a statement lists is empty, so a set is made as soon as one
-- is listed.
theorem ofKeys?_listedKeys_eq_none_iff (kind : KeywordKind) (b : Block) :
    KeywordSet.ofKeys? kind (listedKeys (.ofBody readKeywordNode b.body)) = none ↔
      listedKeys (.ofBody readKeywordNode b.body) = [] := by
  constructor
  · intro h
    by_contra hne
    have hall : ∀ key ∈ listedKeys (.ofBody readKeywordNode b.body), key ≠ "" := by
      intro key hkey
      rw [listedKeys_eq] at hkey
      rcases List.mem_flatMap.1 hkey with ⟨s, -, hs⟩
      exact ne_empty_of_mem_keysOf s.args key hs
    rw [KeywordSet.ofKeys?_of_ne_empty kind _ hne hall] at h
    exact Option.some_ne_none _ h
  · intro h
    rw [h]
    rfl

namespace Ledger

section

variable {file : String}

theorem adds_keywordBody (body : List Node) :
    Adds file (body.foldlM (keywordNode file) {}) (Readout.ofBody readKeywordNode body).findings
      fun d => d = (Readout.ofBody readKeywordNode body).items.foldl KeywordDraft.add {} := by
  refine adds_foldlM (fun done d =>
    d = (Readout.ofBody readKeywordNode done).items.foldl KeywordDraft.add {}) ?_ body [] {} rfl
  intro done node d hd
  refine (adds_keywordNode d node).mono fun d' hd' => ?_
  rw [hd', hd, items_ofBody_concat, List.foldl_append]

/-- A keyword block adds its own findings, and ends with its set if there are
    none. -/
theorem adds_keywords (kind : KeywordKind) (b : Block) :
    Adds file (keywords file kind b) (keywordFindings b) fun set =>
      set = if keywordFindings b = [] then keywordSet? kind b else none := by
  have hwalk : Adds file (do
      unclosed file b
      let draft ← b.body.foldlM (keywordNode file) {}
      let set := KeywordSet.ofKeys? kind draft.keys
      faultIf file set.isNone b.line (.emptyKeywords b.tag)
      return set.map fun set => set.withCaps draft.maxRequested draft.maxDone)
      (keywordFindings b) fun set => set = keywordSet? kind b := by
    rw [keywordFindings, List.append_assoc]
    refine (adds_unclosed b).bind fun _ _ => (adds_keywordBody b.body).bind fun d hd => ?_
    have hkeys : d.keys = listedKeys (.ofBody readKeywordNode b.body) := by
      rw [hd, KeywordDraft.foldl_add]
      rfl
    have hnone : (KeywordSet.ofKeys? kind d.keys).isNone = true ↔
        listedKeys (.ofBody readKeywordNode b.body) = [] := by
      rw [hkeys, Option.isNone_iff_eq_none, ofKeys?_listedKeys_eq_none_iff]
    rw [← if_congr hnone rfl rfl]
    refine (adds_faultIf _ _ _).bind_pure fun _ _ => ?_
    rw [hkeys, hd, KeywordDraft.foldl_add]
    rfl
  refine (adds_watched hwalk).bind_pure fun made hmade => ?_
  rw [hmade.1, hmade.2]
  cases keywordFindings b <;> rfl

end

end Ledger

section

variable {ι : Type}

theorem findings_readKeywords (kind : KeywordKind) (b : Block) (use : KeywordSet → ι) :
    (readKeywords kind b use).findings = keywordFindings b := by
  unfold readKeywords
  split
  · rename_i h
    exact h.symm
  · rfl

/-- A source block inside another block brings its own findings, and one more
    as soon as there are any. -/
theorem findings_readSource (station : Station) (b : Block) (use : SourcePlan → ι) :
    (readSource station b use).findings = sourceFindings station b ++
      if sourceFindings station b = [] then [] else [⟨b.line, .sourceRejected⟩] := by
  by_cases h : sourceFindings station b = []
  · rcases exists_sourcePlan? station b h with ⟨plan, hplan⟩
    rw [if_pos h, h, readSource, h, hplan]
    rfl
  · rw [if_neg h, readSource]
    split
    · rename_i hnil _
      exact absurd hnil h
    · rfl

end

/-- The source that a block asks for, by what its nodes have stated. -/
theorem sourcePlan?_eq (station : Station) (b : Block) (d : SourceFields)
    (h : d = (sourceBody station b).items.foldl SourceFields.add {}) :
    sourcePlan? station b = d.interface.map d.plan := by
  rw [h, SourceFields.foldl_add, sourcePlan?]
  simp only [Option.or_none]
  rfl

/-- A draft after a node of a source block: a `source` statement is noted in
    any case, and what the node states is there if nothing is wrong with it. -/
structure SourceDraft.Follows (r : Readout SourceItem) (isSource : Bool) (d d' : SourceDraft) :
    Prop where
  saw : d'.sawSource = (d.sawSource || isSource)
  stated : r.findings = [] → d'.toSourceFields = r.items.foldl SourceFields.add d.toSourceFields

namespace SourceDraft

variable (d : SourceDraft)

theorem follows_of_source (r : Readout SourceItem) (fields : SourceFields)
    (h : r.findings = [] → fields = r.items.foldl SourceFields.add d.toSourceFields) :
    Follows r true d { toSourceFields := fields, sawSource := true } where
  saw := (Bool.or_true _).symm
  stated := h

-- Any other node.
theorem follows_of_stated (r : Readout SourceItem) (fields : SourceFields)
    (h : r.findings = [] → fields = r.items.foldl SourceFields.add d.toSourceFields) :
    Follows r false d { d with toSourceFields := fields } where
  saw := (Bool.or_false _).symm
  stated := h

theorem follows_finding (line : Nat) (cause : FaultCause) :
    Follows (.finding line cause) false d d :=
  d.follows_of_stated _ _ fun h => absurd h (List.cons_ne_nil _ _)

theorem follows_keywords (kind : KeywordKind) (b : Block) (set : Option KeywordSet)
    (hset : set = if keywordFindings b = [] then keywordSet? kind b else none) :
    Follows (readKeywords kind b .keywords) false d
      { d with toSourceFields := d.withKeywords kind set } := by
  refine d.follows_of_stated _ _ fun h => ?_
  rw [findings_readKeywords] at h
  rcases exists_keywordSet kind b h with ⟨made, hmade, rfl, -⟩
  simp only [hset, readKeywords, h, hmade]
  rfl

end SourceDraft

namespace Ledger

section

variable {file : String}

theorem adds_sourceNode (station : Station) (d : SourceDraft) (node : Node) :
    Adds file (sourceNode station file d node) (readSourceNode station node).findings
      (SourceDraft.Follows (readSourceNode station node)
        (node.statementNamed? "source").isSome d) := by
  cases node with
  | block heading body =>
      unfold sourceNode
      simp only
      split
      · rename_i htag
        simp only [readSourceNode, htag]
        rw [findings_readKeywords]
        refine (adds_keywords .trace _).bind_pure fun set hset => ?_
        exact d.follows_keywords .trace _ set hset
      · rename_i htag
        simp only [readSourceNode, htag]
        rw [findings_readKeywords]
        refine (adds_keywords .wide _).bind_pure fun set hset => ?_
        exact d.follows_keywords .wide _ set hset
      · simp only [readSourceNode]
        exact (adds_fault _ _).bind_pure fun _ _ => d.follows_finding _ _
  | statement s =>
      unfold sourceNode
      simp only
      split
      · rename_i hname
        simp only [readSourceNode, Node.statementNamed?, hname]
        refine adds_interface_bind (fun f hf => adds_pure ?_) (fun id callsign hid => adds_pure ?_)
        · rw [hf]
          exact d.follows_of_source _ _ fun h => absurd h (List.cons_ne_nil _ _)
        · rw [hid]
          exact d.follows_of_source _ _ fun _ => rfl
      · rename_i hname
        simp only [readSourceNode, readFilter, Node.statementNamed?, hname]
        cases s.args with
        | nil => exact (adds_fault _ _).bind_pure fun _ _ => d.follows_finding _ _
        | cons arg args => exact adds_pure (d.follows_of_stated _ _ fun _ => rfl)
      · rename_i hname
        simp only [readSourceNode, readRelayFormat, Node.statementNamed?, hname]
        cases s.argument? with
        | none => exact adds_pure (d.follows_of_stated _ _ fun _ => rfl)
        | some arg => exact adds_pure (d.follows_of_stated _ _ fun _ => rfl)
      · rename_i hsource _ _
        simp only [readSourceNode, Node.statementNamed?, if_neg hsource]
        exact (adds_fault _ _).bind_pure fun _ _ => d.follows_finding _ _

theorem adds_sourceBody (station : Station) (body : List Node) :
    Adds file (body.foldlM (sourceNode station file) {})
      (Readout.ofBody (readSourceNode station) body).findings
      (SourceDraft.Follows (.ofBody (readSourceNode station) body)
        (body.any fun node => (node.statementNamed? "source").isSome) {}) := by
  refine adds_foldlM (fun done => SourceDraft.Follows (.ofBody (readSourceNode station) done)
    (done.any fun node => (node.statementNamed? "source").isSome) {}) ?_ body [] {}
    ⟨rfl, fun _ => rfl⟩
  intro done node d hd
  refine (adds_sourceNode station d node).mono fun d' hd' => ⟨?_, fun h => ?_⟩
  · rw [hd'.saw, hd.saw, List.any_append, Bool.or_assoc, List.any_cons, List.any_nil,
      Bool.or_false]
  · rw [findings_ofBody_concat] at h
    rcases List.append_eq_nil_iff.1 h with ⟨hdone, hnode⟩
    rw [hd'.stated hnode, hd.stated hdone, items_ofBody_concat, List.foldl_append]

/-- A source block adds its own findings and the one that it is refused, and
    ends with its plan if there are none. -/
theorem adds_source (station : Station) (b : Block) :
    Adds file (source station file b)
      (sourceFindings station b ++
        if sourceFindings station b = [] then [] else [⟨b.line, .sourceRejected⟩])
      fun plan => plan = if sourceFindings station b = [] then sourcePlan? station b else none := by
  have hwalk : Adds file (do
      unclosed file b
      let draft ← b.body.foldlM (sourceNode station file) {}
      faultIf file (!draft.sawSource) b.line .missingSource
      return draft)
      (sourceFindings station b) fun d => sourceFindings station b = [] →
        d.toSourceFields = (sourceBody station b).items.foldl SourceFields.add {} := by
    rw [sourceFindings, List.append_assoc]
    refine (adds_unclosed b).bind fun _ _ => (adds_sourceBody station b.body).bind fun d hd => ?_
    have hsaw : d.sawSource = b.body.any fun node => (node.statementNamed? "source").isSome :=
      hd.saw.trans (Bool.false_or _)
    rw [← hsaw]
    refine (adds_faultIf_not _ _ _).bind_pure fun _ _ hnil => hd.stated ?_
    exact (List.append_eq_nil_iff.1 (List.append_eq_nil_iff.1 hnil).2).1
  refine (adds_watched hwalk).bind fun made hmade => ?_
  rcases hmade with ⟨hfields, hclean⟩
  by_cases h : sourceFindings station b = []
  · rcases exists_sourcePlan? station b h with ⟨plan, hplan⟩
    have hdraft := sourcePlan?_eq station b made.1.toSourceFields (hfields h)
    rw [hplan] at hdraft
    rcases Option.map_eq_some_iff.1 hdraft.symm with ⟨id, hid, rfl⟩
    simp only [h, hclean, hid, List.isEmpty_nil, if_true]
    exact adds_pure hplan.symm
  · have hdirty : (sourceFindings station b).isEmpty = false := by
      rw [List.isEmpty_eq_false_iff]
      exact h
    rw [if_neg h, if_neg h, hclean, hdirty]
    cases made.1.interface <;> exact (adds_fault _ _).bind_pure fun _ _ => rfl

end

end Ledger

/-- The digipeater that a block asks for, by what its nodes have stated. -/
theorem digipeaterPlan?_eq (station : Station) (b : Block) (d : DigipeaterFields)
    (h : d = (digipeaterBody station b).items.foldl DigipeaterFields.add {}) :
    digipeaterPlan? station b = d.transmitter.map d.plan := by
  rw [h, DigipeaterFields.foldl_add, digipeaterPlan?]
  simp only [Option.or_none]
  rfl

-- A block with findings is refused with them.
theorem ofBlock_eq_error (station : Station) (file : String) (b : Block)
    (h : digipeaterFindings station b ≠ []) :
    DigipeaterPlan.ofBlock station file b =
      .error (.ofFindings file b.line (digipeaterFindings station b)) := by
  unfold DigipeaterPlan.ofBlock
  split
  · rename_i hnil _
    exact absurd hnil h
  · rfl

/-- A draft after a node of a digipeater block: `transmit` statements and
    source blocks are noted in any case, and what the node states is there if
    nothing is wrong with it. -/
structure DigipeaterDraft.Follows (r : Readout DigipeaterItem) (isTransmit isSource : Bool)
    (d d' : DigipeaterDraft) : Prop where
  saw : d'.sawTransmit = (d.sawTransmit || isTransmit)
  blocks : (d'.sourceBlocks == 0) = (d.sourceBlocks == 0 && !isSource)
  stated : r.findings = [] →
    d'.toDigipeaterFields = r.items.foldl DigipeaterFields.add d.toDigipeaterFields

namespace DigipeaterDraft

variable (d : DigipeaterDraft)

theorem follows_of_transmit (r : Readout DigipeaterItem) (fields : DigipeaterFields)
    (h : r.findings = [] → fields = r.items.foldl DigipeaterFields.add d.toDigipeaterFields) :
    Follows r true false d { d with toDigipeaterFields := fields, sawTransmit := true } where
  saw := (Bool.or_true _).symm
  blocks := (Bool.and_true _).symm
  stated := h

-- A node that is neither a `transmit` statement nor a source block.
theorem follows_of_stated (r : Readout DigipeaterItem) (fields : DigipeaterFields)
    (h : r.findings = [] → fields = r.items.foldl DigipeaterFields.add d.toDigipeaterFields) :
    Follows r false false d { d with toDigipeaterFields := fields } where
  saw := (Bool.or_false _).symm
  blocks := (Bool.and_true _).symm
  stated := h

theorem follows_finding (line : Nat) (cause : FaultCause) :
    Follows (.finding line cause) false false d d :=
  d.follows_of_stated _ _ fun h => absurd h (List.cons_ne_nil _ _)

theorem follows_keywords (kind : KeywordKind) (b : Block) (set : Option KeywordSet)
    (hset : set = if keywordFindings b = [] then keywordSet? kind b else none) :
    Follows (readKeywords kind b .keywords) false false d
      { d with toDigipeaterFields := d.withKeywords kind set } := by
  refine d.follows_of_stated _ _ fun h => ?_
  rw [findings_readKeywords] at h
  rcases exists_keywordSet kind b h with ⟨made, hmade, rfl, -⟩
  simp only [hset, readKeywords, h, hmade]
  rfl

theorem follows_source (station : Station) (b : Block) (plan : Option SourcePlan)
    (hplan : plan = if sourceFindings station b = [] then sourcePlan? station b else none) :
    Follows (readSource station b .source) false true d
      { d with sources := d.sources ++ plan.toList, sourceBlocks := d.sourceBlocks + 1 } where
  saw := (Bool.or_false _).symm
  blocks := (Bool.and_false _).symm
  stated := by
    intro h
    rw [findings_readSource] at h
    have hclean := (List.append_eq_nil_iff.1 h).1
    rcases exists_sourcePlan? station b hclean with ⟨made, hmade⟩
    simp only [hplan, readSource, hclean, hmade]
    rfl

end DigipeaterDraft

namespace Ledger

section

variable {file : String}

theorem adds_digipeaterNode (station : Station) (d : DigipeaterDraft) (node : Node) :
    Adds file (digipeaterNode station file d node) (readDigipeaterNode station node).findings
      (DigipeaterDraft.Follows (readDigipeaterNode station node)
        (node.statementNamed? "transmit").isSome (node.blockTagged? "source").isSome d) := by
  cases node with
  | block heading body =>
      unfold digipeaterNode
      simp only
      split
      · rename_i htag
        simp only [readDigipeaterNode, Node.blockTagged?, htag]
        rw [findings_readKeywords]
        refine (adds_keywords .trace _).bind_pure fun set hset => ?_
        exact d.follows_keywords .trace _ set hset
      · rename_i htag
        simp only [readDigipeaterNode, Node.blockTagged?, htag]
        rw [findings_readKeywords]
        refine (adds_keywords .wide _).bind_pure fun set hset => ?_
        exact d.follows_keywords .wide _ set hset
      · rename_i htag
        simp only [readDigipeaterNode, Node.blockTagged?, htag]
        rw [findings_readSource]
        refine (adds_source station _).bind_pure fun plan hplan => ?_
        exact d.follows_source station _ plan hplan
      · rename_i hsource
        simp only [readDigipeaterNode, Node.blockTagged?, if_neg hsource]
        exact (adds_fault _ _).bind_pure fun _ _ => d.follows_finding _ _
  | statement s =>
      unfold digipeaterNode
      simp only
      split
      · rename_i hname
        simp only [readDigipeaterNode, readTransmit, Node.statementNamed?, hname]
        refine adds_interface_bind (fun f hf => adds_pure ?_) (fun id callsign hid => ?_)
        · rw [hf]
          exact d.follows_of_transmit _ _ fun h => absurd h (List.cons_ne_nil _ _)
        · rw [hid]
          by_cases hcan : station.canTransmit id = true
          · simp only [if_pos hcan]
            exact adds_pure (d.follows_of_transmit _ _ fun _ => rfl)
          · simp only [if_neg hcan]
            exact (adds_fault _ _).bind_pure fun _ _ =>
              d.follows_of_transmit _ _ fun h => absurd h (List.cons_ne_nil _ _)
      · rename_i hname
        simp only [readDigipeaterNode, Node.statementNamed?, hname]
        refine adds_integer_bind (fun f hf => adds_pure ?_) (fun v hv => adds_pure ?_)
        · rw [hf]
          exact d.follows_finding f.line f.cause
        · rw [hv]
          exact d.follows_of_stated _ _ fun _ => rfl
      · rename_i hname
        simp only [readDigipeaterNode, readViscousDelay, Node.statementNamed?, hname]
        refine adds_integer_bind (fun f hf => adds_pure ?_) (fun v hv => ?_)
        · rw [hf]
          exact d.follows_finding f.line f.cause
        · rw [hv, apply_ite Readout.findings]
          refine (adds_faultIf_not (isViscousDelay v) _ _).bind_pure fun _ _ =>
            d.follows_of_stated _ { d with viscousDelay := viscousDelay v } fun h => ?_
          rw [findings_ite_eq_nil_iff] at h
          rw [if_pos h]
          rfl
      · rename_i htransmit _ _
        simp only [readDigipeaterNode, Node.statementNamed?, if_neg htransmit]
        exact (adds_fault _ _).bind_pure fun _ _ => d.follows_finding _ _

theorem adds_digipeaterBody (station : Station) (body : List Node) :
    Adds file (body.foldlM (digipeaterNode station file) {})
      (Readout.ofBody (readDigipeaterNode station) body).findings
      (DigipeaterDraft.Follows (.ofBody (readDigipeaterNode station) body)
        (body.any fun node => (node.statementNamed? "transmit").isSome)
        (body.any fun node => (node.blockTagged? "source").isSome) {}) := by
  refine adds_foldlM (fun done =>
    DigipeaterDraft.Follows (.ofBody (readDigipeaterNode station) done)
      (done.any fun node => (node.statementNamed? "transmit").isSome)
      (done.any fun node => (node.blockTagged? "source").isSome) {}) ?_ body [] {}
    ⟨rfl, rfl, fun _ => rfl⟩
  intro done node d hd
  refine (adds_digipeaterNode station d node).mono fun d' hd' => ⟨?_, ?_, fun h => ?_⟩
  · simp only [hd'.saw, hd.saw, List.any_append, List.any_cons, List.any_nil, Bool.or_assoc,
      Bool.or_false]
  · simp only [hd'.blocks, hd.blocks, List.any_append, List.any_cons, List.any_nil,
      Bool.not_or, Bool.and_assoc, Bool.not_false, Bool.and_true]
  · rw [findings_ofBody_concat] at h
    rcases List.append_eq_nil_iff.1 h with ⟨hdone, hnode⟩
    rw [hd'.stated hnode, hd.stated hdone, items_ofBody_concat, List.foldl_append]

/-- A digipeater block adds its findings, and ends with what it states if there
    are none. -/
theorem adds_digipeater (station : Station) (b : Block) :
    Adds file (digipeater station file b) (digipeaterFindings station b) fun d =>
      digipeaterFindings station b = [] → d.transmitter.map d.plan = digipeaterPlan? station b := by
  rw [digipeaterFindings, List.append_assoc, List.append_assoc]
  refine (adds_unclosed b).bind fun _ _ =>
    (adds_digipeaterBody station b.body).bind fun d hd => ?_
  have hsaw : d.sawTransmit = b.body.any fun node => (node.statementNamed? "transmit").isSome :=
    hd.saw.trans (Bool.false_or _)
  have hblocks : (d.sourceBlocks == 0) =
      !b.body.any fun node => (node.blockTagged? "source").isSome :=
    hd.blocks.trans (Bool.true_and _)
  rw [← hsaw, hblocks]
  refine (adds_faultIf_not _ _ _).bind fun _ _ => (adds_faultIf_not _ _ _).bind_pure
    fun _ _ hnil => (digipeaterPlan?_eq station b _ (hd.stated ?_)).symm
  exact (List.append_eq_nil_iff.1 (List.append_eq_nil_iff.1 hnil).2).1

/-- The walk with one list of faults does what the builder does: the plans are
    the same, and so are the faults and their order. -/
theorem ofBlock_eq (station : Station) (file : String) (b : Block) :
    ofBlock station file b = DigipeaterPlan.ofBlock station file b := by
  have hwalk : Adds file (digipeater station file b) _ _ := adds_digipeater station b
  rcases hwalk [] with ⟨hfaults, hplan⟩
  rw [List.nil_append] at hfaults
  unfold ofBlock
  generalize (digipeater station file b).run [] = made at hfaults hplan ⊢
  simp only
  by_cases h : digipeaterFindings station b = []
  · rcases exists_digipeaterPlan? station b h with ⟨plan, hmade⟩
    have hdraft := hplan h
    rw [hmade] at hdraft
    rcases Option.map_eq_some_iff.1 hdraft with ⟨id, hid, rfl⟩
    rw [(ofBlock_eq_ok_iff station file b _).2 ⟨h, hmade⟩, hfaults, h, hid]
    rfl
  · rw [ofBlock_eq_error station file b h, hfaults]
    cases hfindings : digipeaterFindings station b with
    | nil => exact absurd hfindings h
    | cons f findings => cases made.1.transmitter <;> rfl

end

end Ledger

end AprsRelay
