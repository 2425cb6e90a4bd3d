import AprsRelay.Proofs.Plan.Clean
import Mathlib.Data.List.Forall2

/-!
# What a Block Declares

What a block asks for can be read off the forest without the builder: the
interface that its last `source` statement names, and the set of its last
keyword block of a kind. For a block without faults this is what its plan
holds. The builder looks at items and not at nodes, so the link is made node
by node: each of the ways to be clean states what the node declares, and
nothing that it does not.

## Main definitions

* `Block.statements`, `Block.children`: What stands directly inside a block.
* `Block.declaredSet?`: The keyword set of a kind that a block declares.
* `Block.heardOn?`: The interface that a source block listens to.

## Theorems

* `forall₂_of_name`, `forall₂_of_other_name`: What a statement goes with.
* `forall₂_items`, `getLast?_of_forall₂`: From nodes to bodies, and to the last
  value of a body.
* `declared_of_cleanSource`: What a source block asks for.
* `declared_of_ofBlock`: What a digipeater block asks for.
* `exists_findInterface?_of_ofBlock`: The interfaces of a plan have callsigns.
-/

namespace AprsRelay

namespace Block

/-- The statements with the given keyword directly inside a block. -/
def statements (b : Block) (name : String) : List Statement :=
  b.body.filterMap (Node.statementNamed? name)

/-- The blocks with the given tag directly inside a block. -/
def children (b : Block) (tag : String) : List Block :=
  b.body.filterMap (Node.blockTagged? tag)

/-- The keyword set of a kind that a block declares: that of the last keyword
    block directly inside it. -/
def declaredSet? (kind : KeywordKind) (b : Block) : Option KeywordSet :=
  (b.children kind.tag).getLast?.bind (keywordSet? kind)

/-- The interface that a source block listens to: the one that its last `source`
    statement names. -/
def heardOn? (named? : String → Option InterfaceId) (b : Block) : Option InterfaceId :=
  (b.statements "source").getLast?.bind fun s => s.argument?.bind named?

end Block

theorem KeywordKind.tag_inj (kind kind' : KeywordKind) : kind.tag = kind'.tag ↔ kind = kind' := by
  cases kind <;> cases kind' <;> decide

theorem KeywordKind.tag_ne_source (kind : KeywordKind) : kind.tag ≠ "source" := by
  cases kind <;> decide

theorem blockTagged?_block (b : Block) (tag : String) :
    (Node.block b.toHeading b.body).blockTagged? tag = if b.tag = tag then some b else none :=
  rfl

-- A statement with the keyword that is asked for goes with the value that it
-- states, and any other statement goes with none.
theorem forall₂_of_name {β : Type} {R : Statement → β → Prop} (s : Statement) {name : String}
    {value : β} (hname : s.name = name) (hvalue : R s value) :
    List.Forall₂ R ((Node.statement s).statementNamed? name).toList [value] := by
  rw [Node.statementNamed?, if_pos hname]
  exact .cons hvalue .nil

theorem forall₂_of_other_name {β : Type} {R : Statement → β → Prop} (s : Statement)
    {other name : String} (hname : s.name = other) (hne : other ≠ name) :
    List.Forall₂ R ((Node.statement s).statementNamed? name).toList [] := by
  rw [Node.statementNamed?, hname, if_neg hne]
  exact .nil

section

variable {ι α β : Type}

/-- When every node states what is picked from it, so does a body. -/
theorem forall₂_items (R : α → β → Prop) (read : Node → Readout ι) (body : List Node)
    (pick? : Node → Option α) (value? : ι → Option β)
    (h : ∀ node ∈ body, List.Forall₂ R (pick? node).toList ((read node).items.filterMap value?)) :
    List.Forall₂ R (body.filterMap pick?) ((Readout.ofBody read body).items.filterMap value?) := by
  simp only [Readout.ofBody]
  induction body with
  | nil => exact .nil
  | cons node nodes ih =>
      have hnode := h node List.mem_cons_self
      have hnodes := ih (fun node hnode => h node (List.mem_cons_of_mem _ hnode))
      have hpick : (node :: nodes).filterMap pick? =
          (pick? node).toList ++ nodes.filterMap pick? := by
        rw [List.filterMap_cons]
        cases pick? node <;> rfl
      rw [hpick, List.flatMap_cons, List.filterMap_append]
      exact List.rel_append hnode hnodes

theorem getLast?_of_forall₂ (f : α → Option β) (picked : List α) (values : List β)
    (h : List.Forall₂ (fun x y => f x = some y) picked values) :
    values.getLast? = picked.getLast?.bind f := by
  have hmap : values.map some = picked.map f := by
    induction h with
    | nil => rfl
    | cons hxy _ ih => rw [List.map_cons, List.map_cons, hxy, ih]
  have hlast := congrArg List.getLast? hmap
  rw [List.getLast?_map, List.getLast?_map] at hlast
  cases hpicked : picked.getLast? with
  | none =>
      rw [hpicked] at hlast
      exact Option.map_eq_none_iff.1 hlast
  | some x =>
      rw [hpicked] at hlast
      rcases Option.map_eq_some_iff.1 hlast with ⟨y, hy, hx⟩
      rw [hy, Option.bind_some, ← hx]

end

-- A clean keyword block states its set where blocks of its tag are asked
-- for, and nowhere else.
theorem forall₂_cleanKeywords (kind kind' : KeywordKind) (b : Block) (set : KeywordSet)
    (htag : b.tag = kind'.tag) (hset : CleanKeywords kind' b set) :
    List.Forall₂ (fun b set => keywordSet? kind b = some set)
      ((Node.block b.toHeading b.body).blockTagged? kind.tag).toList
      (if set.kind = kind then some set else none).toList := by
  rcases exists_keywordSet kind' b hset.1 with ⟨set', hset', hkind, -⟩
  rw [hset.2] at hset'
  rcases Option.some.inj hset' with rfl
  rw [blockTagged?_block, htag, hkind]
  by_cases heq : kind' = kind
  · subst heq
    rw [if_pos rfl, if_pos rfl]
    exact .cons hset.2 .nil
  · rw [if_neg heq, if_neg (fun h => heq ((KeywordKind.tag_inj _ _).1 h))]
    exact .nil

/-! ## Source blocks -/

theorem keywords_of_cleanSourceNode (station : Station) (kind : KeywordKind) (node : Node)
    (items : List SourceItem) (h : CleanSourceNode station node items) :
    List.Forall₂ (fun b set => keywordSet? kind b = some set)
      (node.blockTagged? kind.tag).toList (items.filterMap (SourceItem.keywords? kind)) := by
  cases h with
  | keywords kind' b set htag hset =>
      have hstated := forall₂_cleanKeywords kind kind' b set htag hset
      rw [List.filterMap_cons, SourceItem.keywords?]
      split <;> rename_i heq <;> rw [heq] at hstated <;> exact hstated
  | relayFormat s hname =>
      cases harg : s.argument? with
      | none => exact .nil
      | some arg => exact .nil
  | interface s id _ _ => exact .nil
  | filter s _ _ => exact .nil

theorem interface_of_cleanSourceNode (station : Station) (node : Node)
    (items : List SourceItem) (h : CleanSourceNode station node items) :
    List.Forall₂ (fun s id => Statement.interface? station s = some id)
      (node.statementNamed? "source").toList (items.filterMap SourceItem.interface?) := by
  cases h with
  | interface s id hname hid => exact forall₂_of_name s hname hid
  | filter s hname _ => exact forall₂_of_other_name s hname (by decide)
  | relayFormat s hname =>
      rw [Node.statementNamed?, hname, if_neg (by decide)]
      cases harg : s.argument? with
      | none => exact .nil
      | some arg => exact .nil
  | keywords kind b set _ _ => exact .nil

/-- A clean source block asks for what it declares. -/
theorem declared_of_cleanSource (station : Station) (b : Block) (plan : SourcePlan)
    (h : CleanSource station b plan) :
    b.heardOn? station.named? = some plan.interface ∧ plan.trace = b.declaredSet? .trace ∧
      plan.wide = b.declaredSet? .wide := by
  have hclean := clean_of_sourceFindings station b h.1
  have hsets : ∀ kind, (sourceBody station b).latest? (SourceItem.keywords? kind) =
      b.declaredSet? kind := fun kind =>
    getLast?_of_forall₂ _ _ _ (forall₂_items _ _ _ _ _ fun node hnode =>
      keywords_of_cleanSourceNode station kind node _ (hclean node hnode))
  have hinterface : (sourceBody station b).latest? SourceItem.interface? =
      b.heardOn? station.named? :=
    getLast?_of_forall₂ _ _ _ (forall₂_items _ _ _ _ _ fun node hnode =>
      interface_of_cleanSourceNode station node _ (hclean node hnode))
  rcases Option.map_eq_some_iff.1 h.2 with ⟨interface, hid, rfl⟩
  rw [hinterface] at hid
  exact ⟨hid, hsets .trace, hsets .wide⟩

theorem exists_findInterface?_of_cleanSource (station : Station) (b : Block) (plan : SourcePlan)
    (h : CleanSource station b plan) :
    ∃ callsign, station.findInterface? callsign = some plan.interface := by
  rcases Option.bind_eq_some_iff.1 (declared_of_cleanSource station b plan h).1 with ⟨s, -, hs⟩
  rcases Option.bind_eq_some_iff.1 hs with ⟨arg, -, hid⟩
  exact ⟨station.callsignOf arg, hid⟩

/-! ## Digipeater blocks -/

theorem keywords_of_cleanDigipeaterNode (station : Station) (kind : KeywordKind) (node : Node)
    (items : List DigipeaterItem) (h : CleanDigipeaterNode station node items) :
    List.Forall₂ (fun b set => keywordSet? kind b = some set)
      (node.blockTagged? kind.tag).toList (items.filterMap (DigipeaterItem.keywords? kind)) := by
  cases h with
  | keywords kind' b set htag hset =>
      have hstated := forall₂_cleanKeywords kind kind' b set htag hset
      rw [List.filterMap_cons, DigipeaterItem.keywords?]
      split <;> rename_i heq <;> rw [heq] at hstated <;> exact hstated
  | source b plan htag _ =>
      rw [blockTagged?_block, htag, if_neg (KeywordKind.tag_ne_source kind).symm]
      exact .nil
  | transmitter s id _ _ _ => exact .nil
  | rateLimit s v _ _ => exact .nil
  | viscousDelay s v _ _ _ => exact .nil

theorem source_of_cleanDigipeaterNode (station : Station) (node : Node)
    (items : List DigipeaterItem) (h : CleanDigipeaterNode station node items) :
    List.Forall₂ (CleanSource station) (node.blockTagged? "source").toList
      (items.filterMap DigipeaterItem.source?) := by
  cases h with
  | source b plan htag hplan =>
      rw [blockTagged?_block, if_pos htag]
      exact .cons hplan .nil
  | keywords kind b set htag _ =>
      rw [blockTagged?_block, htag, if_neg (KeywordKind.tag_ne_source kind)]
      exact .nil
  | transmitter s id _ _ _ => exact .nil
  | rateLimit s v _ _ => exact .nil
  | viscousDelay s v _ _ _ => exact .nil

/-- A plan holds what its block declares: the sets of the last keyword blocks,
    and one source for each source block, in the same order. -/
theorem declared_of_ofBlock (station : Station) (file : String) (b : Block)
    (plan : DigipeaterPlan) (h : DigipeaterPlan.ofBlock station file b = .ok plan) :
    plan.trace = b.declaredSet? .trace ∧ plan.wide = b.declaredSet? .wide ∧
      List.Forall₂ (CleanSource station) (b.children "source") plan.sources := by
  rcases (ofBlock_eq_ok_iff station file b plan).1 h with ⟨hfindings, hplan⟩
  have hclean := clean_of_digipeaterFindings station b hfindings
  have hsets : ∀ kind, (digipeaterBody station b).latest? (DigipeaterItem.keywords? kind) =
      b.declaredSet? kind := fun kind =>
    getLast?_of_forall₂ _ _ _ (forall₂_items _ _ _ _ _ fun node hnode =>
      keywords_of_cleanDigipeaterNode station kind node _ (hclean node hnode))
  have hsources : List.Forall₂ (CleanSource station) (b.children "source")
      ((digipeaterBody station b).items.filterMap DigipeaterItem.source?) :=
    forall₂_items _ _ _ _ _ fun node hnode =>
      source_of_cleanDigipeaterNode station node _ (hclean node hnode)
  rcases Option.map_eq_some_iff.1 hplan with ⟨transmitter, -, rfl⟩
  exact ⟨hsets .trace, hsets .wide, hsources⟩

-- Every planned source comes from a clean source block.
theorem exists_cleanSource_of_mem (station : Station) (file : String) (b : Block)
    (plan : DigipeaterPlan) (h : DigipeaterPlan.ofBlock station file b = .ok plan)
    (source : SourcePlan) (hsource : source ∈ plan.sources) :
    ∃ sub, CleanSource station sub source := by
  rcases declared_of_ofBlock station file b plan h with ⟨-, -, hsources⟩
  rcases List.getElem_of_mem hsource with ⟨k, hk, rfl⟩
  exact ⟨_, hsources.get (hsources.length_eq ▸ hk) hk⟩

theorem exists_findInterface?_of_transmitter (station : Station) (file : String) (b : Block)
    (plan : DigipeaterPlan) (h : DigipeaterPlan.ofBlock station file b = .ok plan) :
    ∃ callsign, station.findInterface? callsign = some plan.transmitter := by
  rcases (ofBlock_eq_ok_iff station file b plan).1 h with ⟨hfindings, hplan⟩
  rcases Option.map_eq_some_iff.1 hplan with ⟨transmitter, hlatest, rfl⟩
  rcases exists_item_of_latest? _ _ _ _ hlatest with ⟨node, hnode, item, hitem, hvalue⟩
  have hclean := clean_of_digipeaterFindings station b hfindings node hnode
  generalize (readDigipeaterNode station node).items = items at hclean hitem
  cases hclean with
  | transmitter s id _ hid _ =>
      rcases List.mem_singleton.1 hitem with rfl
      rcases Option.some.inj hvalue with rfl
      rcases Option.bind_eq_some_iff.1 hid with ⟨arg, -, hfind⟩
      exact ⟨station.callsignOf arg, hfind⟩
  | _ =>
      rcases List.mem_singleton.1 hitem with rfl
      simp [DigipeaterItem.transmitter?] at hvalue

/-- All interfaces of a plan have callsigns by which they are found. -/
theorem exists_findInterface?_of_ofBlock (station : Station) (file : String) (b : Block)
    (plan : DigipeaterPlan) (h : DigipeaterPlan.ofBlock station file b = .ok plan) :
    ∀ id ∈ plan.interfaces, ∃ callsign, station.findInterface? callsign = some id := by
  intro id hid
  rcases List.mem_cons.1 hid with rfl | hid
  · exact exists_findInterface?_of_transmitter station file b plan h
  · rcases List.mem_map.1 hid with ⟨source, hsource, rfl⟩
    rcases exists_cleanSource_of_mem station file b plan h source hsource with ⟨sub, hsub⟩
    exact exists_findInterface?_of_cleanSource station sub source hsub

end AprsRelay
