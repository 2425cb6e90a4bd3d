import AprsRelay.Proofs.Plan.Rules

/-!
# What a Plan Holds

A plan can be read off its block statement by statement. Of several statements
that set the same thing the last one counts; filters, keywords and source
blocks add up in the order of the file. The builder makes a list of items of
the body first and looks for the last item of a kind. In a block that follows
its rule every statement of a keyword gives one item, so the last item is that
of the last statement.

Together with the rules this says all about building a plan: which blocks have
one, and what it is. `SourceStated` and `DigipeaterStated` determine the plan,
so that the characterisation is an equivalence and leaves no second plan open.

## Main definitions

* `Block.lastInteger?`, `Block.lastInterface?`: The number and the interface
  of the last statement with a keyword.
* `Block.statedSet`: The keyword set that a keyword block states.
* `SourceStated`, `DigipeaterStated`: A plan holds what its block states.

## Theorems

* `latest?_eq_bind`: The last item is that of the last node.
* `keywordSet?_eq_statedSet`, `declaredSet?_eq_map`: The keyword sets of a
  plan.
* `sourceStated_of_cleanSource`, `digipeaterStated_of_ofBlock`: The plans of
  the two outer blocks.
* `rightUnique_sourceStated`, `rightUnique_digipeaterStated`: There is only one
  such plan.
* `ofBlock_of_stated`: A plan with these contents is built.
* `ofBlock_eq_ok_iff_stated`: Which plan is built, and when.
-/

namespace AprsRelay

namespace Block

/-- The number in the last statement with the given keyword. -/
def lastInteger? (b : Block) (name : String) : Option Int :=
  (b.statements name).getLast?.bind Statement.integer?

/-- The interface in the last statement with the given keyword. -/
def lastInterface? (station : Station) (b : Block) (name : String) : Option InterfaceId :=
  (b.statements name).getLast?.bind (Statement.interface? station)

/-- The keyword set that a block states. A cap that is not set is four. -/
def statedSet (kind : KeywordKind) (b : Block) : KeywordSet where
  kind := kind
  keys := (b.statements "keys").flatMap fun s => keysOf s.args
  maxRequested := ((b.lastInteger? "maxreq").getD 4).toNat
  maxDone := ((b.lastInteger? "maxdone").getD 4).toNat

/-- The words of all `relay-format` statements that have one. -/
def relayWords (b : Block) : List String :=
  (b.statements "relay-format").filterMap Statement.argument?

end Block

/-- A source to be holds what its block states. -/
structure SourceStated (station : Station) (b : Block) (plan : SourcePlan) : Prop where
  interface : b.lastInterface? station "source" = some plan.interface
  relayFormat : plan.relayFormat = (b.relayWords.getLast?.map RelayFormat.ofWord).getD .unset
  filters : plan.filters = (b.statements "filter").map fun s => " ".intercalate s.args
  trace : plan.trace = (b.children "trace").getLast?.map (Block.statedSet .trace)
  wide : plan.wide = (b.children "wide").getLast?.map (Block.statedSet .wide)

/-- A digipeater to be holds what its block states. A rate limit that is not
    set or out of range is 300, and a viscous delay that is not set is zero. -/
structure DigipeaterStated (station : Station) (b : Block) (plan : DigipeaterPlan) : Prop where
  transmitter : b.lastInterface? station "transmit" = some plan.transmitter
  rateLimit : (plan.rateLimit : Int) =
    ((b.lastInteger? "ratelimit").filter fun v => 10 ≤ v ∧ v ≤ 300).getD 300
  viscousDelay : (plan.viscousDelay : Int) = (b.lastInteger? "viscous-delay").getD 0
  trace : plan.trace = (b.children "trace").getLast?.map (Block.statedSet .trace)
  wide : plan.wide = (b.children "wide").getLast?.map (Block.statedSet .wide)
  sources : List.Forall₂ (SourceStated station) (b.children "source") plan.sources

/-- The last item is that of the last node, if every node of a body states
    what is picked from it. -/
theorem latest?_eq_bind {ι α β : Type} (read : Node → Readout ι) (body : List Node)
    (pick? : Node → Option α) (value? : ι → Option β) (f : α → Option β)
    (h : ∀ node ∈ body, List.Forall₂ (fun x y => f x = some y) (pick? node).toList
      ((read node).items.filterMap value?)) :
    (Readout.ofBody read body).latest? value? = (body.filterMap pick?).getLast?.bind f :=
  getLast?_of_forall₂ f _ _ (forall₂_items _ read body pick? value? h)

/-! ## Keyword blocks -/

section

variable (node : Node) (items : List KeywordItem) (h : CleanKeywordNode node items)
include h

theorem maxRequested_of_cleanKeywordNode :
    List.Forall₂ (fun s cap => (Statement.integer? s).map Int.toNat = some cap)
      (node.statementNamed? "maxreq").toList (items.filterMap KeywordItem.maxRequested?) := by
  cases h with
  | maxRequested s v hname hv _ => exact forall₂_of_name s hname (by rw [hv, Option.map_some])
  | maxDone s v hname _ _ => exact forall₂_of_other_name s hname (by decide)
  | listed s hname => exact forall₂_of_other_name s hname (by decide)

theorem maxDone_of_cleanKeywordNode :
    List.Forall₂ (fun s cap => (Statement.integer? s).map Int.toNat = some cap)
      (node.statementNamed? "maxdone").toList (items.filterMap KeywordItem.maxDone?) := by
  cases h with
  | maxDone s v hname hv _ => exact forall₂_of_name s hname (by rw [hv, Option.map_some])
  | maxRequested s v hname _ _ => exact forall₂_of_other_name s hname (by decide)
  | listed s hname => exact forall₂_of_other_name s hname (by decide)

end

-- A cap that was found last is the number of the last statement.
theorem getD_latest?_eq (b : Block) (name : String) (value? : KeywordItem → Option Nat)
    (h : ∀ node ∈ b.body, List.Forall₂
      (fun s cap => (Statement.integer? s).map Int.toNat = some cap)
      (node.statementNamed? name).toList ((readKeywordNode node).items.filterMap value?)) :
    ((Readout.ofBody readKeywordNode b.body).latest? value?).getD KeywordSet.defaultCap =
      ((b.lastInteger? name).getD 4).toNat := by
  have hlast := latest?_eq_bind readKeywordNode b.body _ value? _ h
  have hbind : (b.body.filterMap (Node.statementNamed? name)).getLast?.bind
      (fun s => (Statement.integer? s).map Int.toNat) = (b.lastInteger? name).map Int.toNat :=
    (Option.map_bind).symm
  rw [hlast, hbind]
  cases b.lastInteger? name <;> rfl

/-- A keyword block without findings declares the set that it states. -/
theorem keywordSet?_eq_statedSet (kind : KeywordKind) (b : Block) (h : keywordFindings b = []) :
    keywordSet? kind b = some (b.statedSet kind) := by
  have hclean : ∀ node ∈ b.body, CleanKeywordNode node (readKeywordNode node).items := by
    simp only [keywordFindings, List.append_eq_nil_iff] at h
    intro node hnode
    exact cleanKeywordNode_of_findings node ((findings_ofBody_eq_nil_iff _ _).1 h.1.2 node hnode)
  have hreq := getD_latest?_eq b "maxreq" _ fun node hnode =>
    maxRequested_of_cleanKeywordNode node _ (hclean node hnode)
  have hdone := getD_latest?_eq b "maxdone" _ fun node hnode =>
    maxDone_of_cleanKeywordNode node _ (hclean node hnode)
  rcases exists_keywordSet kind b h with ⟨set, hset, hkind, hkeys, -, -⟩
  rw [keywordSet?] at hset ⊢
  rcases Option.map_eq_some_iff.1 hset with ⟨made, hmade, heq⟩
  rw [← heq] at hkind hkeys
  have hmadeKind : made.kind = kind := hkind
  have hmadeKeys : made.keys = listedKeys (.ofBody readKeywordNode b.body) := hkeys
  rw [listedKeys_eq] at hmadeKeys
  simp only [hmade, Option.map_some, hreq, hdone, KeywordSet.withCaps, hmadeKind, hmadeKeys]
  rfl

/-- The keyword set of a plan is the one that the last keyword block states. -/
theorem declaredSet?_eq_map (kind : KeywordKind) (b : Block)
    (h : ∀ sub ∈ b.children kind.tag, KeywordRule sub) :
    b.declaredSet? kind = (b.children kind.tag).getLast?.map (Block.statedSet kind) := by
  unfold Block.declaredSet?
  cases hlast : (b.children kind.tag).getLast? with
  | none => rfl
  | some sub =>
      have hrule := h sub (List.mem_of_getLast? hlast)
      exact keywordSet?_eq_statedSet kind sub ((keywordFindings_eq_nil_iff sub).2 hrule)

-- The blocks with a tag are those nodes that are blocks with that tag.
theorem mem_children_iff (b : Block) (tag : String) (sub : Block) :
    sub ∈ b.children tag ↔ sub.tag = tag ∧ Node.block sub.toHeading sub.body ∈ b.body :=
  BlockFile.mem_blocks_iff ⟨"", b.body⟩ tag sub

/-! ## Source blocks -/

theorem keywordRule_of_sourceRule (station : Station) (b : Block) (h : SourceRule station b)
    (kind : KeywordKind) : ∀ sub ∈ b.children kind.tag, KeywordRule sub := by
  intro sub hsub
  rcases (mem_children_iff b kind.tag sub).1 hsub with ⟨-, hnode⟩
  exact (h.nodes _ hnode).2

section

variable (station : Station) (node : Node) (items : List SourceItem)
  (h : CleanSourceNode station node items)
include h

theorem filters_of_cleanSourceNode :
    List.Forall₂ (fun s text => " ".intercalate (Statement.args s) = text)
      (node.statementNamed? "filter").toList (items.filterMap SourceItem.filter?) := by
  cases h with
  | filter s hname _ => exact forall₂_of_name s hname rfl
  | interface s id hname _ => exact forall₂_of_other_name s hname (by decide)
  | relayFormat s hname =>
      rw [Node.statementNamed?, hname, if_neg (by decide)]
      cases s.argument? with
      | none => exact .nil
      | some arg => exact .nil
  | keywords kind b set _ _ => exact .nil

theorem relayFormat_of_cleanSourceNode :
    List.Forall₂ (fun word format => some (RelayFormat.ofWord word) = some format)
      ((node.statementNamed? "relay-format").bind Statement.argument?).toList
      (items.filterMap SourceItem.relayFormat?) := by
  cases h with
  | relayFormat s hname =>
      rw [Node.statementNamed?, if_pos hname, Option.bind_some]
      cases s.argument? with
      | none => exact .nil
      | some arg => exact .cons rfl .nil
  | interface s id hname _ =>
      rw [Node.statementNamed?, hname, if_neg (by decide)]
      exact .nil
  | filter s hname _ =>
      rw [Node.statementNamed?, hname, if_neg (by decide)]
      exact .nil
  | keywords kind b set _ _ => exact .nil

end

/-- The plan of a clean source block holds what the block states. -/
theorem sourceStated_of_cleanSource (station : Station) (b : Block) (plan : SourcePlan)
    (h : CleanSource station b plan) : SourceStated station b plan := by
  have hclean := clean_of_sourceFindings station b h.1
  have hrule := (sourceFindings_eq_nil_iff station b).1 h.1
  rcases declared_of_cleanSource station b plan h with ⟨hinterface, htrace, hwide⟩
  have hfilters : List.Forall₂ (fun s text => " ".intercalate (Statement.args s) = text)
      (b.statements "filter") ((sourceBody station b).items.filterMap SourceItem.filter?) :=
    forall₂_items _ _ _ _ _ fun node hnode =>
      filters_of_cleanSourceNode station node _ (hclean node hnode)
  have hformat := latest?_eq_bind _ b.body _ SourceItem.relayFormat? _ fun node hnode =>
    relayFormat_of_cleanSourceNode station node _ (hclean node hnode)
  have hplan := h.2
  rw [sourcePlan?] at hplan
  rcases Option.map_eq_some_iff.1 hplan with ⟨interface, -, heq⟩
  refine ⟨hinterface, ?_, ?_, ?_, ?_⟩
  · rw [← heq, Block.relayWords, Block.statements, List.filterMap_filterMap]
    exact congrArg (·.getD .unset) (hformat.trans (Option.map_eq_bind).symm)
  · rw [← heq]
    rw [← List.forall₂_map_left_iff, List.forall₂_eq_eq_eq] at hfilters
    exact hfilters.symm
  · rw [htrace]
    exact declaredSet?_eq_map .trace b (keywordRule_of_sourceRule station b hrule .trace)
  · rw [hwide]
    exact declaredSet?_eq_map .wide b (keywordRule_of_sourceRule station b hrule .wide)

theorem rightUnique_sourceStated (station : Station) :
    Relator.RightUnique (SourceStated station) := by
  intro b p q hp hq
  have hinterface := Option.some.inj (hp.interface.symm.trans hq.interface)
  rcases p with ⟨_, _, _, _, _⟩
  rcases q with ⟨_, _, _, _, _⟩
  rw [SourcePlan.mk.injEq]
  exact ⟨hinterface, hp.relayFormat.trans hq.relayFormat.symm, hp.filters.trans hq.filters.symm,
    hp.trace.trans hq.trace.symm, hp.wide.trans hq.wide.symm⟩

/-! ## Digipeater blocks -/

theorem keywordRule_of_digipeaterRule (station : Station) (b : Block)
    (h : DigipeaterRule station b) (kind : KeywordKind) :
    ∀ sub ∈ b.children kind.tag, KeywordRule sub := by
  intro sub hsub
  rcases (mem_children_iff b kind.tag sub).1 hsub with ⟨htag, hnode⟩
  rcases h.nodes _ hnode with ⟨-, hrule⟩ | ⟨hsource, -⟩
  · exact hrule
  · exact absurd (htag.symm.trans hsource) kind.tag_ne_source

section

variable (station : Station) (node : Node) (items : List DigipeaterItem)
  (h : CleanDigipeaterNode station node items)
include h

theorem rateLimit_of_cleanDigipeaterNode :
    List.Forall₂ (fun s limit => (Statement.integer? s).map rateLimit = some limit)
      (node.statementNamed? "ratelimit").toList (items.filterMap DigipeaterItem.rateLimit?) := by
  cases h with
  | rateLimit s v hname hv => exact forall₂_of_name s hname (by rw [hv, Option.map_some])
  | transmitter s id hname _ _ => exact forall₂_of_other_name s hname (by decide)
  | viscousDelay s v hname _ _ => exact forall₂_of_other_name s hname (by decide)
  | keywords kind b set _ _ => exact .nil
  | source b plan _ _ => exact .nil

-- In a clean block the number of a viscous delay is in range, so it is the
-- delay itself.
theorem viscousDelay_of_cleanDigipeaterNode :
    List.Forall₂ (fun s (delay : Nat) => Statement.integer? s = some (delay : Int))
      (node.statementNamed? "viscous-delay").toList
      (items.filterMap DigipeaterItem.viscousDelay?) := by
  cases h with
  | viscousDelay s v hname hv hrange =>
      exact forall₂_of_name s hname (by rw [hv, (viscousDelay_eq_iff v).2 hrange])
  | transmitter s id hname _ _ => exact forall₂_of_other_name s hname (by decide)
  | rateLimit s v hname _ => exact forall₂_of_other_name s hname (by decide)
  | keywords kind b set _ _ => exact .nil
  | source b plan _ _ => exact .nil

end

theorem natCast_rateLimit (v : Int) :
    (rateLimit v : Int) = if 10 ≤ v ∧ v ≤ 300 then v else 300 := by
  unfold rateLimit standardRateLimit
  split
  · omega
  · rfl

/-- The plan that was built of a block holds what the block states. -/
theorem digipeaterStated_of_ofBlock (station : Station) (file : String) (b : Block)
    (plan : DigipeaterPlan) (h : DigipeaterPlan.ofBlock station file b = .ok plan) :
    DigipeaterStated station b plan := by
  rcases (ofBlock_eq_ok_iff station file b plan).1 h with ⟨hfindings, hplan⟩
  rcases declared_of_ofBlock station file b plan h with ⟨htrace, hwide, hsources⟩
  have hclean := clean_of_digipeaterFindings station b hfindings
  have hrule := (digipeaterFindings_eq_nil_iff station b).1 hfindings
  have htransmitter := latest?_eq_bind _ b.body _ DigipeaterItem.transmitter? _
    fun node hnode => transmitter_of_cleanDigipeaterNode station node _ (hclean node hnode)
  have hlimit := latest?_eq_bind _ b.body _ DigipeaterItem.rateLimit? _
    fun node hnode => rateLimit_of_cleanDigipeaterNode station node _ (hclean node hnode)
  have hdelays : List.Forall₂ (fun s (delay : Nat) => Statement.integer? s = some (delay : Int))
      (b.statements "viscous-delay")
      ((digipeaterBody station b).items.filterMap DigipeaterItem.viscousDelay?) :=
    forall₂_items _ _ _ _ _ fun node hnode =>
      viscousDelay_of_cleanDigipeaterNode station node _ (hclean node hnode)
  have hdelay : ((digipeaterBody station b).latest? DigipeaterItem.viscousDelay?).map
      (fun delay : Nat => (delay : Int)) = b.lastInteger? "viscous-delay" := by
    rw [Readout.latest?, ← List.getLast?_map]
    exact getLast?_of_forall₂ Statement.integer? _ _ (List.forall₂_map_right_iff.2 hdelays)
  have hsubs := keywordRule_of_digipeaterRule station b hrule
  rw [digipeaterPlan?] at hplan
  rcases Option.map_eq_some_iff.1 hplan with ⟨transmitter, hlatest, heq⟩
  refine ⟨?_, ?_, ?_, ?_, ?_, ?_⟩
  · rw [← heq]
    exact htransmitter.symm.trans hlatest
  · have hlast : (digipeaterBody station b).latest? DigipeaterItem.rateLimit? =
        (b.lastInteger? "ratelimit").map rateLimit := hlimit.trans (Option.map_bind).symm
    rw [← heq, hlast]
    cases b.lastInteger? "ratelimit" with
    | none => rfl
    | some v =>
        rw [Option.map_some, Option.getD_some, natCast_rateLimit, Option.filter_some]
        by_cases hrange : 10 ≤ v ∧ v ≤ 300 <;> simp [hrange]
  · rw [← heq, ← hdelay]
    simp only
    cases (digipeaterBody station b).latest? DigipeaterItem.viscousDelay? <;> rfl
  · rw [htrace]
    exact declaredSet?_eq_map .trace b (hsubs .trace)
  · rw [hwide]
    exact declaredSet?_eq_map .wide b (hsubs .wide)
  · exact hsources.imp fun sub source hsub => sourceStated_of_cleanSource station sub source hsub

theorem rightUnique_digipeaterStated (station : Station) :
    Relator.RightUnique (DigipeaterStated station) := by
  intro b p q hp hq
  have htransmitter := Option.some.inj (hp.transmitter.symm.trans hq.transmitter)
  have hlimit := Int.ofNat.inj (hp.rateLimit.trans hq.rateLimit.symm)
  have hdelay := Int.ofNat.inj (hp.viscousDelay.trans hq.viscousDelay.symm)
  have hsources := (rightUnique_sourceStated station).forall₂ hp.sources hq.sources
  rcases p with ⟨_, _, _, _, _, _⟩
  rcases q with ⟨_, _, _, _, _, _⟩
  rw [DigipeaterPlan.mk.injEq]
  exact ⟨htransmitter, hlimit, hdelay, hp.trace.trans hq.trace.symm, hp.wide.trans hq.wide.symm,
    hsources⟩

/-- The plan that holds what a block states is built, if the block follows the
    rule. -/
theorem ofBlock_of_stated (station : Station) (file : String) (b : Block) (plan : DigipeaterPlan)
    (hrule : DigipeaterRule station b) (hstated : DigipeaterStated station b plan) :
    DigipeaterPlan.ofBlock station file b = .ok plan := by
  rcases (exists_ofBlock_iff station file b).2 hrule with ⟨built, hbuilt⟩
  -- Some plan is built, and what it has to hold is known.
  have hsame := rightUnique_digipeaterStated station
    (digipeaterStated_of_ofBlock station file b built hbuilt) hstated
  rw [hbuilt, hsame]

end AprsRelay
