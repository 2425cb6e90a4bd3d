import AprsRelay.Proofs.Plan.Declared

/-!
# The Rules for Blocks

What a block has to look like to be taken, said of the block alone. There is
one rule for each of the three kinds of block and one for the nodes inside
each kind. A rule lists what may stand in a block and what has to, and does
not speak of faults.

The builder knows no rule. It collects faults while it walks over the nodes,
and a source block is refused when the faults found so far have become more.
That the two agree is shown from the inside out: first for the arguments of
statements, then for keyword blocks, source blocks and digipeater blocks. At
each level a block is without findings when all its nodes are, it was closed,
and the statement or block that it cannot do without is there.

Findings alone do not make a plan. The last lemmas of the two outer levels
say that a block that follows its rule leaves nothing open: the statement that
has to be there has named an interface.

## Main definitions

* `KeywordNodeRule`, `KeywordRule`: What may stand in a `<trace>` or `<wide>`
  block, and what such a block has to be like.
* `SourceNodeRule`, `SourceRule`: The same for `<source>` blocks.
* `DigipeaterNodeRule`, `DigipeaterRule`: The same for `<digipeater>` blocks.

## Theorems

* `findings_readInterface_eq_nil_iff`, `findings_readInteger_eq_nil_iff`: When
  an argument is without fault.
* `listedKeys_eq`: The keywords of a block are those of its `keys` statements.
* `keywordFindings_eq_nil_iff`, `sourceFindings_eq_nil_iff`,
  `digipeaterFindings_eq_nil_iff`: A block is without findings when it follows
  its rule.
* `exists_sourcePlan?`, `exists_digipeaterPlan?`: Without findings there is a
  plan.
* `exists_ofBlock_iff`: A plan is built when the rule is followed.
-/

namespace AprsRelay

/-- A keyword block lists keywords and sets hop caps from one to seven. No
    block may stand inside it. -/
def KeywordNodeRule : Node → Prop
  | .statement s =>
    s.name = "keys" ∨
      (s.name = "maxreq" ∨ s.name = "maxdone") ∧ ∃ v, s.integer? = some v ∧ 1 ≤ v ∧ v ≤ 7
  | .block _ _ => False

/-- A keyword block is closed and lists at least one keyword. Keywords are
    parted by blanks or commas, and what is empty between them is none. -/
structure KeywordRule (b : Block) : Prop where
  closed : b.closed = true
  nodes : ∀ node ∈ b.body, KeywordNodeRule node
  listed : ∃ s ∈ b.statements "keys", ∃ arg ∈ s.args, ∃ key ∈ arg.toList.splitOn ',', key ≠ []

/-- A source block names interfaces that there are, has filters with at least
    one word, relay formats of any kind, and keyword blocks. -/
def SourceNodeRule (station : Station) : Node → Prop
  | .statement s =>
    (s.name = "source" ∧ ∃ id, s.interface? station = some id) ∨
      (s.name = "filter" ∧ s.args ≠ []) ∨ s.name = "relay-format"
  | .block heading body =>
    (heading.tag = "trace" ∨ heading.tag = "wide") ∧ KeywordRule { heading with body }

/-- A source block is closed and names an interface to listen to. -/
structure SourceRule (station : Station) (b : Block) : Prop where
  closed : b.closed = true
  nodes : ∀ node ∈ b.body, SourceNodeRule station node
  named : b.statements "source" ≠ []

/-- A digipeater block names interfaces that may be sent on, sets a rate limit
    of any size and a viscous delay from zero to nine, and has source blocks
    and keyword blocks. -/
def DigipeaterNodeRule (station : Station) : Node → Prop
  | .statement s =>
    (s.name = "transmit" ∧ ∃ id, s.interface? station = some id ∧ station.canTransmit id = true) ∨
      (s.name = "ratelimit" ∧ ∃ v, s.integer? = some v) ∨
        (s.name = "viscous-delay" ∧ ∃ v, s.integer? = some v ∧ 0 ≤ v ∧ v ≤ 9)
  | .block heading body =>
    ((heading.tag = "trace" ∨ heading.tag = "wide") ∧ KeywordRule { heading with body }) ∨
      (heading.tag = "source" ∧ SourceRule station { heading with body })

/-- A digipeater block is closed, names an interface to send on and has a
    source block. -/
structure DigipeaterRule (station : Station) (b : Block) : Prop where
  closed : b.closed = true
  nodes : ∀ node ∈ b.body, DigipeaterNodeRule station node
  named : b.statements "transmit" ≠ []
  sources : b.children "source" ≠ []

/-! ## Arguments -/

section

variable {ι : Type}

theorem findings_readInteger_eq_nil_iff (s : Statement) (use : Int → Readout ι) :
    (readInteger s use).findings = [] ↔ ∃ v, s.integer? = some v ∧ (use v).findings = [] := by
  constructor
  · intro h
    rcases exists_of_readInteger s use h with ⟨v, hv, heq⟩
    rw [heq] at h
    exact ⟨v, hv, h⟩
  · intro h
    rcases h with ⟨v, hv, huse⟩
    rcases Option.bind_eq_some_iff.1 hv with ⟨arg, harg, hnumber⟩
    simp only [readInteger, harg, hnumber]
    exact huse

-- Whether the use of an interface is a fault depends on its number only, not
-- on the callsign that a fault would report.
theorem findings_readInterface_eq_nil_iff (station : Station) (s : Statement)
    (use : InterfaceId → String → Readout ι) (fits : InterfaceId → Prop)
    (huse : ∀ id callsign, (use id callsign).findings = [] ↔ fits id) :
    (readInterface station s use).findings = [] ↔
      ∃ id, s.interface? station = some id ∧ fits id := by
  constructor
  · intro h
    rcases exists_of_readInterface station s use h with ⟨id, callsign, hid, heq⟩
    rw [heq] at h
    exact ⟨id, hid, (huse id callsign).1 h⟩
  · intro h
    rcases h with ⟨id, hid, hfits⟩
    rcases Option.bind_eq_some_iff.1 hid with ⟨arg, harg, hnamed⟩
    have hfind : station.findInterface? (station.callsignOf arg) = some id := hnamed
    simp only [readInterface, harg, hfind]
    exact (huse id _).2 hfits

theorem findings_ite_eq_nil_iff (P : Prop) [Decidable P] (i : ι) (line : Nat)
    (cause : FaultCause) :
    (if P then Readout.item i else .finding line cause).findings = [] ↔ P := by
  by_cases h : P <;> simp [h, Readout.item, Readout.finding]

-- A node that is a fault in itself has to break its rule.
theorem findings_finding_eq_nil_iff (line : Nat) (cause : FaultCause) (rule : Prop)
    (h : ¬ rule) : (Readout.finding line cause : Readout ι).findings = [] ↔ rule :=
  ⟨fun hnil => absurd hnil (List.cons_ne_nil _ _), fun hrule => absurd hrule h⟩

end

theorem unclosedFindings_eq_nil_iff (b : Block) : b.unclosedFindings = [] ↔ b.closed = true := by
  unfold Block.unclosedFindings
  by_cases h : b.closed = true <;> simp [h]

-- There is a node of a kind when something is picked.
theorem any_isSome_iff {α : Type} (body : List Node) (pick? : Node → Option α) :
    (body.any fun node => (pick? node).isSome) = true ↔ body.filterMap pick? ≠ [] := by
  rw [List.any_eq_true, ne_eq, List.filterMap_eq_nil_iff]
  constructor
  · rintro ⟨node, hnode, hsome⟩ hnone
    rw [hnone node hnode] at hsome
    exact Bool.false_ne_true hsome
  · intro h
    by_contra hno
    refine h (fun node hnode => Option.not_isSome_iff_eq_none.1 fun hsome => ?_)
    exact hno ⟨node, hnode, hsome⟩

-- A finding that is made when no node of a kind is there is not made when
-- one is.
theorem ite_any_eq_nil_iff {α : Type} (body : List Node) (pick? : Node → Option α)
    (finding : Finding) :
    (if body.any fun node => (pick? node).isSome then [] else [finding]) = [] ↔
      body.filterMap pick? ≠ [] := by
  rw [← any_isSome_iff]
  by_cases h : (body.any fun node => (pick? node).isSome) = true <;> simp [h]

/-! ## Keyword blocks -/

theorem findings_readHopCap_eq_nil_iff (s : Statement) (use : Nat → KeywordItem) :
    (readHopCap s use).findings = [] ↔ ∃ v, s.integer? = some v ∧ 1 ≤ v ∧ v ≤ 7 := by
  simp only [readHopCap, findings_readInteger_eq_nil_iff, findings_ite_eq_nil_iff]
  exact Iff.rfl

theorem findings_readKeywordNode_eq_nil_iff (node : Node) :
    (readKeywordNode node).findings = [] ↔ KeywordNodeRule node := by
  cases node with
  | block heading body => exact findings_finding_eq_nil_iff _ _ _ id
  | statement s =>
      unfold readKeywordNode KeywordNodeRule
      simp only
      -- The keyword of the statement decides which part of the rule applies.
      split
      · rename_i hname
        simp [Readout.item, hname]
      · rename_i hname
        simp [findings_readHopCap_eq_nil_iff, hname]
      · rename_i hname
        simp [findings_readHopCap_eq_nil_iff, hname]
      · rename_i hkeys hreq hdone
        refine findings_finding_eq_nil_iff _ _ _ ?_
        rintro (h | ⟨h | h, -⟩)
        · exact hkeys h
        · exact hreq h
        · exact hdone h

-- Only `keys` statements list keywords, whatever else may be wrong with them.
theorem keys_readKeywordNode (node : Node) :
    (readKeywordNode node).items.flatMap KeywordItem.keys =
      (node.statementNamed? "keys").toList.flatMap fun s => keysOf s.args := by
  have hcap : ∀ (s : Statement) (use : Nat → KeywordItem), (∀ cap, (use cap).keys = []) →
      (readHopCap s use).items.flatMap KeywordItem.keys = [] := by
    intro s use huse
    unfold readHopCap readInteger
    cases s.argument? with
    | none => rfl
    | some arg =>
        simp only
        cases Text.integer? arg with
        | none => rfl
        | some v =>
            simp only
            split
            · simp [Readout.item, huse]
            · rfl
  cases node with
  | block heading body => rfl
  | statement s =>
      unfold readKeywordNode Node.statementNamed?
      simp only
      split
      · rename_i hname
        simp [Readout.item, KeywordItem.keys, hname]
      · rename_i hname
        simp [hcap s .maxRequested fun _ => rfl, hname]
      · rename_i hname
        simp [hcap s .maxDone fun _ => rfl, hname]
      · rename_i hkeys _ _
        rw [if_neg hkeys]
        rfl

/-- The keywords of a block are those that its `keys` statements list. -/
theorem listedKeys_eq (b : Block) :
    listedKeys (.ofBody readKeywordNode b.body) =
      (b.statements "keys").flatMap fun s => keysOf s.args := by
  unfold listedKeys Readout.ofBody Block.statements
  simp only
  induction b.body with
  | nil => rfl
  | cons node nodes ih =>
      have hnode := keys_readKeywordNode node
      rw [List.flatMap_cons, List.flatMap_append, ih, hnode, List.filterMap_cons]
      cases node.statementNamed? "keys" with
      | none => rfl
      | some s => simp

theorem keysOf_ne_nil_iff (args : List String) :
    keysOf args ≠ [] ↔ ∃ arg ∈ args, ∃ key ∈ arg.toList.splitOn ',', key ≠ [] := by
  simp [keysOf, List.flatMap_eq_nil_iff]

/-- A keyword block is without findings when it follows the rule. -/
theorem keywordFindings_eq_nil_iff (b : Block) : keywordFindings b = [] ↔ KeywordRule b := by
  have hlisted : (if listedKeys (.ofBody readKeywordNode b.body) = [] then
      [(⟨b.line, .emptyKeywords b.tag⟩ : Finding)] else []) = [] ↔
        ∃ s ∈ b.statements "keys", ∃ arg ∈ s.args, ∃ key ∈ arg.toList.splitOn ',', key ≠ [] := by
    rw [listedKeys_eq]
    simp only [List.flatMap_eq_nil_iff, ite_eq_right_iff, List.cons_ne_nil, imp_false, not_forall,
      ← ne_eq, keysOf_ne_nil_iff, exists_prop]
  simp only [keywordFindings, List.append_eq_nil_iff, unclosedFindings_eq_nil_iff,
    findings_ofBody_eq_nil_iff, findings_readKeywordNode_eq_nil_iff, hlisted]
  exact ⟨fun h => ⟨h.1.1, h.1.2, h.2⟩, fun h => ⟨⟨h.closed, h.nodes⟩, h.listed⟩⟩

theorem findings_readKeywords_eq_nil_iff {ι : Type} (kind : KeywordKind) (b : Block)
    (use : KeywordSet → ι) : (readKeywords kind b use).findings = [] ↔ KeywordRule b := by
  rw [← keywordFindings_eq_nil_iff]
  unfold readKeywords
  split
  · rename_i h
    exact ⟨fun _ => h, fun _ => rfl⟩
  · exact Iff.rfl

/-! ## Source blocks -/

theorem findings_readSourceNode_eq_nil_iff (station : Station) (node : Node) :
    (readSourceNode station node).findings = [] ↔ SourceNodeRule station node := by
  cases node with
  | block heading body =>
      unfold readSourceNode SourceNodeRule
      simp only
      split
      · rename_i htag
        simp [findings_readKeywords_eq_nil_iff, htag]
      · rename_i htag
        simp [findings_readKeywords_eq_nil_iff, htag]
      · rename_i htrace hwide
        refine findings_finding_eq_nil_iff _ _ _ ?_
        rintro ⟨h | h, -⟩
        · exact htrace h
        · exact hwide h
  | statement s =>
      unfold readSourceNode SourceNodeRule
      simp only
      split
      · rename_i hname
        have hread := findings_readInterface_eq_nil_iff station s
          (fun id _ => .item (SourceItem.interface id)) (fun _ => True)
          (fun _ _ => ⟨fun _ => trivial, fun _ => rfl⟩)
        simp only [and_true] at hread
        simp [hread, hname]
      · rename_i hname
        unfold readFilter
        cases hargs : s.args with
        | nil => simp [Readout.finding, hname]
        | cons arg args => simp [Readout.item, hname]
      · rename_i hname
        unfold readRelayFormat
        cases s.argument? with
        | none => simp [Readout.nothing, hname]
        | some arg => simp [Readout.item, hname]
      · rename_i hsource hfilter hformat
        refine findings_finding_eq_nil_iff _ _ _ ?_
        rintro (⟨h, -⟩ | ⟨h, -⟩ | h)
        · exact hsource h
        · exact hfilter h
        · exact hformat h

/-- A source block is without findings when it follows the rule. -/
theorem sourceFindings_eq_nil_iff (station : Station) (b : Block) :
    sourceFindings station b = [] ↔ SourceRule station b := by
  simp only [sourceFindings, sourceBody, List.append_eq_nil_iff, unclosedFindings_eq_nil_iff,
    findings_ofBody_eq_nil_iff, findings_readSourceNode_eq_nil_iff, ite_any_eq_nil_iff]
  exact ⟨fun h => ⟨h.1.1, h.1.2, h.2⟩, fun h => ⟨⟨h.closed, h.nodes⟩, h.named⟩⟩

-- Where every node states what is picked from it, something is stated last
-- as soon as something is picked.
theorem exists_getLast?_of_forall₂ {α β : Type} {R : α → β → Prop} (picked : List α)
    (values : List β) (h : List.Forall₂ R picked values) (hne : picked ≠ []) :
    ∃ y, values.getLast? = some y := by
  have hvalues : values ≠ [] := by
    intro hnil
    rw [hnil, List.forall₂_nil_right_iff] at h
    exact hne h
  exact ⟨values.getLast hvalues, List.getLast?_eq_some_getLast hvalues⟩

/-- A source block without findings has a plan. -/
theorem exists_sourcePlan? (station : Station) (b : Block) (h : sourceFindings station b = []) :
    ∃ plan, sourcePlan? station b = some plan := by
  have hclean := clean_of_sourceFindings station b h
  have hnamed := ((sourceFindings_eq_nil_iff station b).1 h).named
  rcases exists_getLast?_of_forall₂ _ _ (forall₂_items _ _ _ _ _ fun node hnode =>
    interface_of_cleanSourceNode station node _ (hclean node hnode)) hnamed with ⟨id, hid⟩
  exact ⟨_, congrArg (Option.map _) hid⟩

theorem findings_readSource_eq_nil_iff {ι : Type} (station : Station) (b : Block)
    (use : SourcePlan → ι) :
    (readSource station b use).findings = [] ↔ SourceRule station b := by
  rw [← sourceFindings_eq_nil_iff]
  constructor
  · intro h
    rcases exists_of_readSource station b use h with ⟨plan, hclean, -⟩
    exact hclean.1
  · intro h
    rcases exists_sourcePlan? station b h with ⟨plan, hplan⟩
    simp only [readSource, h, hplan]
    rfl

/-! ## Digipeater blocks -/

theorem findings_readDigipeaterNode_eq_nil_iff (station : Station) (node : Node) :
    (readDigipeaterNode station node).findings = [] ↔ DigipeaterNodeRule station node := by
  cases node with
  | block heading body =>
      unfold readDigipeaterNode DigipeaterNodeRule
      simp only
      split
      · rename_i htag
        simp [findings_readKeywords_eq_nil_iff, htag]
      · rename_i htag
        simp [findings_readKeywords_eq_nil_iff, htag]
      · rename_i htag
        simp [findings_readSource_eq_nil_iff, htag]
      · rename_i htrace hwide hsource
        refine findings_finding_eq_nil_iff _ _ _ ?_
        rintro (⟨h | h, -⟩ | ⟨h, -⟩)
        · exact htrace h
        · exact hwide h
        · exact hsource h
  | statement s =>
      unfold readDigipeaterNode DigipeaterNodeRule
      simp only
      split
      · rename_i hname
        have hread := findings_readInterface_eq_nil_iff station s _
          (fun id => station.canTransmit id = true) (fun id callsign =>
            findings_ite_eq_nil_iff (station.canTransmit id = true)
              (DigipeaterItem.transmitter id) s.line (.transmitNotAllowed callsign))
        simp [readTransmit, hread, hname]
      · rename_i hname
        simp [findings_readInteger_eq_nil_iff, Readout.item, hname]
      · rename_i hname
        simp [readViscousDelay, findings_readInteger_eq_nil_iff, findings_ite_eq_nil_iff,
          isViscousDelay, hname]
      · rename_i htransmit hlimit hdelay
        refine findings_finding_eq_nil_iff _ _ _ ?_
        rintro (⟨h, -⟩ | ⟨h, -⟩ | ⟨h, -⟩)
        · exact htransmit h
        · exact hlimit h
        · exact hdelay h

/-- A digipeater block is without findings when it follows the rule. -/
theorem digipeaterFindings_eq_nil_iff (station : Station) (b : Block) :
    digipeaterFindings station b = [] ↔ DigipeaterRule station b := by
  simp only [digipeaterFindings, digipeaterBody, List.append_eq_nil_iff,
    unclosedFindings_eq_nil_iff, findings_ofBody_eq_nil_iff,
    findings_readDigipeaterNode_eq_nil_iff, ite_any_eq_nil_iff]
  exact ⟨fun h => ⟨h.1.1.1, h.1.1.2, h.1.2, h.2⟩,
    fun h => ⟨⟨⟨h.closed, h.nodes⟩, h.named⟩, h.sources⟩⟩

theorem transmitter_of_cleanDigipeaterNode (station : Station) (node : Node)
    (items : List DigipeaterItem) (h : CleanDigipeaterNode station node items) :
    List.Forall₂ (fun s id => Statement.interface? station s = some id)
      (node.statementNamed? "transmit").toList
      (items.filterMap DigipeaterItem.transmitter?) := by
  cases h with
  | transmitter s id hname hid _ => exact forall₂_of_name s hname hid
  | rateLimit s v hname _ => exact forall₂_of_other_name s hname (by decide)
  | viscousDelay s v hname _ _ => exact forall₂_of_other_name s hname (by decide)
  | keywords kind b set _ _ => exact .nil
  | source b plan _ _ => exact .nil

/-- A digipeater block without findings has a plan. -/
theorem exists_digipeaterPlan? (station : Station) (b : Block)
    (h : digipeaterFindings station b = []) : ∃ plan, digipeaterPlan? station b = some plan := by
  have hclean := clean_of_digipeaterFindings station b h
  have hnamed := ((digipeaterFindings_eq_nil_iff station b).1 h).named
  rcases exists_getLast?_of_forall₂ _ _ (forall₂_items _ _ _ _ _ fun node hnode =>
    transmitter_of_cleanDigipeaterNode station node _ (hclean node hnode)) hnamed with ⟨id, hid⟩
  exact ⟨_, congrArg (Option.map _) hid⟩

/-- A plan is built for the blocks that follow the rule, and for no others. -/
theorem exists_ofBlock_iff (station : Station) (file : String) (b : Block) :
    (∃ plan, DigipeaterPlan.ofBlock station file b = .ok plan) ↔ DigipeaterRule station b := by
  rw [← digipeaterFindings_eq_nil_iff]
  constructor
  · rintro ⟨plan, hplan⟩
    exact ((ofBlock_eq_ok_iff station file b plan).1 hplan).1
  · intro h
    rcases exists_digipeaterPlan? station b h with ⟨plan, hplan⟩
    exact ⟨plan, (ofBlock_eq_ok_iff station file b plan).2 ⟨h, hplan⟩⟩

end AprsRelay
