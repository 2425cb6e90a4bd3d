import AprsRelay.Plan.Digipeater

/-!
# Nodes without Fault

What a node of a block says when nothing is wrong with it. A node of a source
block or of a digipeater block can be clean in a few ways only, and in each of
them it states certain items. The two relations list these ways, so that what
is proved of clean blocks needs a case for each way and none for the faults.

Reading a node is a match on its keyword or tag in which every branch can end
in a fault. The inversion is made once here, branch by branch.

## Main definitions

* `Station.named?`, `Statement.interface?`, `Statement.integer?`: The interface
  and the number that an argument stands for.
* `KeywordKind.tag`: The tag of the blocks that declare a set.
* `CleanSourceNode`, `CleanDigipeaterNode`: The ways to be clean.

## Theorems

* `cleanSourceNode_of_findings`, `cleanDigipeaterNode_of_findings`: A node
  without findings is clean in one of these ways.
* `clean_of_sourceFindings`, `clean_of_digipeaterFindings`: Every node of a
  block without findings is.
* `ofBlock_eq_ok_iff`: A block yields a plan when there is nothing to find.
-/

namespace AprsRelay

/-- The interface that an argument names. -/
def Station.named? (station : Station) (arg : String) : Option InterfaceId :=
  station.findInterface? (station.callsignOf arg)

/-- The interface that the argument of a statement stands for. -/
def Statement.interface? (station : Station) (s : Statement) : Option InterfaceId :=
  s.argument?.bind station.named?

/-- The number that the argument of a statement denotes. -/
def Statement.integer? (s : Statement) : Option Int :=
  s.argument?.bind Text.integer?

/-- The tag of the blocks that declare a keyword set of a kind. -/
def KeywordKind.tag : KeywordKind → String
  | .trace => "trace"
  | .wide => "wide"

variable {ι : Type}

-- A statement without a fault names an interface, and is read as the use of
-- it says.
theorem exists_of_readInterface (station : Station) (s : Statement)
    (use : InterfaceId → String → Readout ι)
    (h : (readInterface station s use).findings = []) :
    ∃ id callsign, s.interface? station = some id ∧
      readInterface station s use = use id callsign := by
  unfold readInterface at h ⊢
  unfold Statement.interface?
  cases harg : s.argument? with
  | none =>
      rw [harg] at h
      simp [Readout.finding] at h
  | some arg =>
      simp only [harg, Option.bind_some, Station.named?] at h ⊢
      cases hid : station.findInterface? (station.callsignOf arg) with
      | none =>
          rw [hid] at h
          simp [Readout.finding] at h
      | some id => exact ⟨id, station.callsignOf arg, rfl, rfl⟩

theorem exists_of_readInteger (s : Statement) (use : Int → Readout ι)
    (h : (readInteger s use).findings = []) :
    ∃ v, s.integer? = some v ∧ readInteger s use = use v := by
  unfold readInteger at h ⊢
  unfold Statement.integer?
  cases harg : s.argument? with
  | none =>
      rw [harg] at h
      simp [Readout.finding] at h
  | some arg =>
      simp only [harg, Option.bind_some] at h ⊢
      cases hv : Text.integer? arg with
      | none =>
          rw [hv] at h
          simp [Readout.finding] at h
      | some v => exact ⟨v, rfl, rfl⟩

/-- The ways in which a node of a keyword block is clean, with what it
    states. -/
inductive CleanKeywordNode : Node → List KeywordItem → Prop
  | listed (s : Statement) (hname : s.name = "keys") :
      CleanKeywordNode (.statement s) [.listed (keysOf s.args)]
  | maxRequested (s : Statement) (v : Int) (hname : s.name = "maxreq")
      (hv : s.integer? = some v) (hrange : 1 ≤ v ∧ v ≤ maxHopCap) :
      CleanKeywordNode (.statement s) [.maxRequested v.toNat]
  | maxDone (s : Statement) (v : Int) (hname : s.name = "maxdone")
      (hv : s.integer? = some v) (hrange : 1 ≤ v ∧ v ≤ maxHopCap) :
      CleanKeywordNode (.statement s) [.maxDone v.toNat]

/-- A keyword block of the given kind is clean and declares the given set. -/
def CleanKeywords (kind : KeywordKind) (b : Block) (set : KeywordSet) : Prop :=
  keywordFindings b = [] ∧ keywordSet? kind b = some set

/-- The ways in which a node of a source block is clean, with what it
    states. -/
inductive CleanSourceNode (station : Station) : Node → List SourceItem → Prop
  | interface (s : Statement) (id : InterfaceId) (hname : s.name = "source")
      (hid : s.interface? station = some id) :
      CleanSourceNode station (.statement s) [.interface id]
  | filter (s : Statement) (hname : s.name = "filter") (hargs : s.args ≠ []) :
      CleanSourceNode station (.statement s) [.filter (" ".intercalate s.args)]
  | relayFormat (s : Statement) (hname : s.name = "relay-format") :
      CleanSourceNode station (.statement s)
        (s.argument?.toList.map fun arg => .relayFormat (.ofWord arg))
  | keywords (kind : KeywordKind) (b : Block) (set : KeywordSet) (htag : b.tag = kind.tag)
      (hset : CleanKeywords kind b set) :
      CleanSourceNode station (.block b.toHeading b.body) [.keywords set]

/-- A source block is clean and asks for the given source. -/
def CleanSource (station : Station) (b : Block) (plan : SourcePlan) : Prop :=
  sourceFindings station b = [] ∧ sourcePlan? station b = some plan

/-- The ways in which a node of a digipeater block is clean, with what it
    states. -/
inductive CleanDigipeaterNode (station : Station) : Node → List DigipeaterItem → Prop
  | transmitter (s : Statement) (id : InterfaceId) (hname : s.name = "transmit")
      (hid : s.interface? station = some id) (hcan : station.canTransmit id = true) :
      CleanDigipeaterNode station (.statement s) [.transmitter id]
  | rateLimit (s : Statement) (v : Int) (hname : s.name = "ratelimit")
      (hv : s.integer? = some v) :
      CleanDigipeaterNode station (.statement s) [.rateLimit (rateLimit v)]
  | viscousDelay (s : Statement) (v : Int) (hname : s.name = "viscous-delay")
      (hv : s.integer? = some v) (hrange : isViscousDelay v = true) :
      CleanDigipeaterNode station (.statement s) [.viscousDelay (viscousDelay v)]
  | keywords (kind : KeywordKind) (b : Block) (set : KeywordSet) (htag : b.tag = kind.tag)
      (hset : CleanKeywords kind b set) :
      CleanDigipeaterNode station (.block b.toHeading b.body) [.keywords set]
  | source (b : Block) (plan : SourcePlan) (htag : b.tag = "source")
      (hplan : CleanSource station b plan) :
      CleanDigipeaterNode station (.block b.toHeading b.body) [.source plan]

-- A cap in range is stated.
theorem exists_of_readHopCap (s : Statement) (use : Nat → KeywordItem)
    (h : (readHopCap s use).findings = []) :
    ∃ v, s.integer? = some v ∧ (1 ≤ v ∧ v ≤ maxHopCap) ∧
      (readHopCap s use).items = [use v.toNat] := by
  rcases exists_of_readInteger s _ h with ⟨v, hv, heq⟩
  rw [readHopCap] at h ⊢
  rw [heq] at h ⊢
  split at h
  · rename_i hrange
    rw [if_pos hrange]
    exact ⟨v, hv, hrange, rfl⟩
  · simp [Readout.finding] at h

theorem cleanKeywordNode_of_findings (node : Node) (h : (readKeywordNode node).findings = []) :
    CleanKeywordNode node (readKeywordNode node).items := by
  unfold readKeywordNode at h ⊢
  split at h
  · rename_i s
    split at h
    · rename_i hname
      exact .listed s hname
    · rename_i hname
      rcases exists_of_readHopCap s _ h with ⟨v, hv, hrange, hitems⟩
      rw [hitems]
      exact .maxRequested s v hname hv hrange
    · rename_i hname
      rcases exists_of_readHopCap s _ h with ⟨v, hv, hrange, hitems⟩
      rw [hitems]
      exact .maxDone s v hname hv hrange
    · simp [unknownStatement, Readout.finding] at h
  · simp [unknownBlock, Readout.finding] at h

theorem findings_ofBody_eq_nil_iff (read : Node → Readout ι) (body : List Node) :
    (Readout.ofBody read body).findings = [] ↔ ∀ node ∈ body, (read node).findings = [] := by
  simp only [Readout.ofBody, List.flatMap_eq_nil_iff]

theorem exists_item_of_latest? {α : Type} (read : Node → Readout ι) (body : List Node)
    (value? : ι → Option α) (x : α) (h : (Readout.ofBody read body).latest? value? = some x) :
    ∃ node ∈ body, ∃ item ∈ (read node).items, value? item = some x := by
  have hmem := List.mem_of_getLast? h
  rcases List.mem_filterMap.1 hmem with ⟨item, hitem, hx⟩
  rcases List.mem_flatMap.1 hitem with ⟨node, hnode, hread⟩
  exact ⟨node, hnode, item, hread, hx⟩

theorem ne_empty_of_mem_keysOf (args : List String) (key : String) (h : key ∈ keysOf args) :
    key ≠ "" := by
  simp only [keysOf, List.mem_flatMap, List.mem_map, List.mem_filter] at h
  rcases h with ⟨arg, -, cs, ⟨-, hcs⟩, rfl⟩
  intro hempty
  have hnil : cs = [] := by simpa using congrArg String.toList hempty
  rw [hnil] at hcs
  exact absurd hcs (by decide)

theorem ne_empty_of_mem_listedKeys (body : List Node)
    (hbody : ∀ node ∈ body, (readKeywordNode node).findings = []) (key : String)
    (h : key ∈ listedKeys (.ofBody readKeywordNode body)) : key ≠ "" := by
  simp only [listedKeys, Readout.ofBody, List.mem_flatMap] at h
  rcases h with ⟨item, ⟨node, hnode, hitem⟩, hmem⟩
  have hclean := cleanKeywordNode_of_findings node (hbody node hnode)
  -- Only the first of the three ways to be clean states keywords.
  generalize (readKeywordNode node).items = items at hclean hitem
  cases hclean with
  | listed s _ =>
      rcases List.mem_singleton.1 hitem with rfl
      exact ne_empty_of_mem_keysOf s.args key hmem
  | maxRequested s v _ _ _ =>
      rcases List.mem_singleton.1 hitem with rfl
      exact absurd hmem List.not_mem_nil
  | maxDone s v _ _ _ =>
      rcases List.mem_singleton.1 hitem with rfl
      exact absurd hmem List.not_mem_nil

/-- The keywords of a clean block are those that its `keys` statements list.
    There is at least one, and none is empty. -/
theorem exists_keywordSet (kind : KeywordKind) (b : Block) (h : keywordFindings b = []) :
    ∃ set, keywordSet? kind b = some set ∧ set.kind = kind ∧
      set.keys = listedKeys (.ofBody readKeywordNode b.body) ∧
      set.keys ≠ [] ∧ ∀ key ∈ set.keys, key ≠ "" := by
  simp only [keywordFindings, List.append_eq_nil_iff] at h
  rcases h with ⟨⟨-, hbody⟩, hkeys⟩
  have hne : listedKeys (.ofBody readKeywordNode b.body) ≠ [] := by
    intro hnil
    rw [if_pos hnil] at hkeys
    simp at hkeys
  have hall := ne_empty_of_mem_listedKeys b.body ((findings_ofBody_eq_nil_iff _ _).1 hbody)
  have hset := KeywordSet.ofKeys?_of_ne_empty kind _ hne hall
  simp only [keywordSet?, hset, Option.map_some, Option.some.injEq, exists_eq_left']
  exact ⟨rfl, rfl, hne, hall⟩

theorem exists_of_readKeywords (kind : KeywordKind) (b : Block) (use : KeywordSet → ι)
    (h : (readKeywords kind b use).findings = []) :
    ∃ set, CleanKeywords kind b set ∧ (readKeywords kind b use).items = [use set] := by
  unfold readKeywords at h ⊢
  cases hfindings : keywordFindings b with
  | cons finding others => simp [hfindings] at h
  | nil =>
      rcases exists_keywordSet kind b hfindings with ⟨set, hset, -⟩
      refine ⟨set, ⟨hfindings, hset⟩, ?_⟩
      simp only [hset, Option.toList_some, List.map_cons, List.map_nil]

theorem cleanSourceNode_of_findings (station : Station) (node : Node)
    (h : (readSourceNode station node).findings = []) :
    CleanSourceNode station node (readSourceNode station node).items := by
  unfold readSourceNode at h ⊢
  split at h
  · rename_i s
    split at h
    · rename_i hname
      rcases exists_of_readInterface station s _ h with ⟨id, callsign, hid, heq⟩
      rw [heq]
      exact .interface s id hname hid
    · rename_i hname
      unfold readFilter at h ⊢
      split at h
      · simp [Readout.finding] at h
      · rename_i hargs
        exact .filter s hname hargs
    · rename_i hname
      have hclean : CleanSourceNode station (.statement s) _ := .relayFormat s hname
      unfold readRelayFormat
      cases harg : s.argument? with
      | none => simpa [harg, Readout.nothing] using hclean
      | some arg => simpa [harg, Readout.item] using hclean
    · simp [unknownStatement, Readout.finding] at h
  · rename_i heading body
    split at h
    · rename_i htag
      rcases exists_of_readKeywords .trace _ _ h with ⟨set, hset, hitems⟩
      rw [hitems]
      exact .keywords .trace { heading with body } set htag hset
    · rename_i htag
      rcases exists_of_readKeywords .wide _ _ h with ⟨set, hset, hitems⟩
      rw [hitems]
      exact .keywords .wide { heading with body } set htag hset
    · simp [unknownBlock, Readout.finding] at h

theorem exists_of_readSource (station : Station) (b : Block) (use : SourcePlan → ι)
    (h : (readSource station b use).findings = []) :
    ∃ plan, CleanSource station b plan ∧ (readSource station b use).items = [use plan] := by
  unfold readSource at h ⊢
  split at h
  · rename_i plan hfindings hplan
    exact ⟨plan, ⟨hfindings, hplan⟩, rfl⟩
  · simp at h

theorem cleanDigipeaterNode_of_findings (station : Station) (node : Node)
    (h : (readDigipeaterNode station node).findings = []) :
    CleanDigipeaterNode station node (readDigipeaterNode station node).items := by
  unfold readDigipeaterNode at h ⊢
  split at h
  · rename_i s
    split at h
    · rename_i hname
      unfold readTransmit at h ⊢
      rcases exists_of_readInterface station s _ h with ⟨id, callsign, hid, heq⟩
      rw [heq] at h ⊢
      split at h
      · rename_i hcan
        rw [if_pos hcan]
        exact .transmitter s id hname hid hcan
      · simp [Readout.finding] at h
    · rename_i hname
      rcases exists_of_readInteger s _ h with ⟨v, hv, heq⟩
      rw [heq]
      exact .rateLimit s v hname hv
    · rename_i hname
      unfold readViscousDelay at h ⊢
      rcases exists_of_readInteger s _ h with ⟨v, hv, heq⟩
      rw [heq] at h ⊢
      split at h
      · rename_i hrange
        rw [if_pos hrange]
        exact .viscousDelay s v hname hv hrange
      · simp [Readout.finding] at h
    · simp [unknownStatement, Readout.finding] at h
  · rename_i heading body
    split at h
    · rename_i htag
      rcases exists_of_readKeywords .trace _ _ h with ⟨set, hset, hitems⟩
      rw [hitems]
      exact .keywords .trace { heading with body } set htag hset
    · rename_i htag
      rcases exists_of_readKeywords .wide _ _ h with ⟨set, hset, hitems⟩
      rw [hitems]
      exact .keywords .wide { heading with body } set htag hset
    · rename_i htag
      rcases exists_of_readSource station _ _ h with ⟨plan, hplan, hitems⟩
      rw [hitems]
      exact .source { heading with body } plan htag hplan
    · simp [unknownBlock, Readout.finding] at h

/-- Every node of a source block without findings is clean. -/
theorem clean_of_sourceFindings (station : Station) (b : Block)
    (h : sourceFindings station b = []) :
    ∀ node ∈ b.body, CleanSourceNode station node (readSourceNode station node).items := by
  simp only [sourceFindings, List.append_eq_nil_iff] at h
  intro node hnode
  exact cleanSourceNode_of_findings station node
    ((findings_ofBody_eq_nil_iff _ _).1 h.1.2 node hnode)

theorem clean_of_digipeaterFindings (station : Station) (b : Block)
    (h : digipeaterFindings station b = []) :
    ∀ node ∈ b.body, CleanDigipeaterNode station node (readDigipeaterNode station node).items := by
  simp only [digipeaterFindings, List.append_eq_nil_iff] at h
  intro node hnode
  exact cleanDigipeaterNode_of_findings station node
    ((findings_ofBody_eq_nil_iff _ _).1 h.1.1.2 node hnode)

/-- A block yields a plan when there is nothing to find in it. -/
theorem ofBlock_eq_ok_iff (station : Station) (file : String) (b : Block)
    (plan : DigipeaterPlan) :
    DigipeaterPlan.ofBlock station file b = .ok plan ↔
      digipeaterFindings station b = [] ∧ digipeaterPlan? station b = some plan := by
  unfold DigipeaterPlan.ofBlock
  split
  · rename_i plan' hfindings hplan
    simp [hfindings, hplan]
  · rename_i hne
    constructor
    · intro h
      simp at h
    · intro h
      rcases h with ⟨hfindings, hplan⟩
      exact absurd hplan (hne plan hfindings)

end AprsRelay
