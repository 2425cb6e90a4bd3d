import AprsRelay.Proofs.Relay.Session
import AprsRelay.Proofs.Station.Loading
import AprsRelay.Proofs.Via.FirstKey

/-!
# What is Only Stored

Six kinds of statements are read, checked and stored, and no decision depends
on them: the rate limit and the viscous delay of a digipeater, the filters and
the relay format of a source, and the two hop caps of a keyword set. They can
be taken out of a forest, which leaves its bare nodes. Two forests with the
same bare nodes differ in such statements only, whether these were put in,
taken out or changed, and in the lines on which everything stands.

What a block declares to the verdicts is looked up by keyword and by tag, and
no such lookup asks for a stored statement. Only the hop caps are read into
something that verdicts do depend on. They stand beside the keywords in each
keyword set, and the verdicts look at the keywords alone.

## Main definitions

* `storedKeywords`: The keywords of the statements that are only stored.
* `Node.bare`, `bareAll`, `Block.bare`: What is left without them.
* `KeywordSet.uncapped`, `Listener.uncapped`: The same without hop caps.

## Theorems

* `filterMap_bareAll`: Lookups that pass over stored statements.
* `verdicts_map_uncapped`: Verdicts do not depend on hop caps.
* `uncapped_keywordSet?`: Without hop caps, only listed keywords matter.
* `verdicts_listenersOf_bare`: Bare blocks declare as much to the verdicts.
* `receive_build_of_bareAll`: Stored statements do not change a decision.
-/

namespace AprsRelay

/-! ## Bare nodes -/

/-- The keywords of the statements that are only stored, for a block with the
    given tag around them. -/
def storedKeywords : String → List String
  | "digipeater" => ["ratelimit", "viscous-delay"]
  | "source" => ["filter", "relay-format"]
  | "trace" | "wide" => ["maxreq", "maxdone"]
  | _ => []

/-- Whether a node is a statement with one of the given keywords. -/
def Node.isStatementOf (names : List String) : Node → Bool
  | .statement s => s.name ∈ names
  | .block _ _ => false

/-- A statement without its line. -/
def Statement.bare (s : Statement) : Statement :=
  { s with line := 0 }

mutual

/-- A node without its line, and without the statements inside it that are only
    stored. -/
def Node.bare : Node → Node
  | .statement s => .statement s.bare
  | .block heading body =>
    .block { heading with line := 0 } (bareAll (storedKeywords heading.tag) body)

/-- The bare nodes of a forest in which statements with the given keywords are
    only stored. -/
def bareAll (stored : List String) : List Node → List Node
  | [] => []
  | node :: nodes =>
    if node.isStatementOf stored then bareAll stored nodes
    else node.bare :: bareAll stored nodes

end

/-- A block without its line and without what is only stored. -/
def Block.bare (b : Block) : Block where
  line := 0
  tag := b.tag
  closed := b.closed
  body := bareAll (storedKeywords b.tag) b.body

theorem blockTagged?_bare (tag : String) (node : Node) :
    node.bare.blockTagged? tag = (node.blockTagged? tag).map Block.bare := by
  cases node with
  | statement s => rfl
  | block heading body =>
      simp only [Node.bare, Node.blockTagged?]
      split <;> rfl

theorem statementNamed?_bare (name : String) (node : Node) :
    node.bare.statementNamed? name = (node.statementNamed? name).map Statement.bare := by
  cases node with
  | block heading body => rfl
  | statement s =>
      simp only [Node.bare, Node.statementNamed?, Statement.bare]
      split <;> rfl

/-- What is picked from nodes by a property that stored statements do not have
    is picked from the bare nodes as well. -/
theorem filterMap_bareAll {α : Type} (pick? : Node → Option α) (bare : α → α)
    (stored : List String) (hbare : ∀ node, pick? node.bare = (pick? node).map bare)
    (hstored : ∀ node, node.isStatementOf stored = true → pick? node = none)
    (nodes : List Node) :
    (bareAll stored nodes).filterMap pick? = (nodes.filterMap pick?).map bare := by
  induction nodes with
  | nil => rfl
  | cons node nodes ih =>
      rw [bareAll, List.filterMap_cons]
      by_cases hnode : node.isStatementOf stored = true
      · rw [if_pos hnode, hstored node hnode]
        exact ih
      · rw [if_neg hnode, List.filterMap_cons, hbare]
        cases pick? node with
        | none => exact ih
        | some x => exact congrArg (bare x :: ·) ih

-- Blocks are never only stored.
theorem filterMap_blockTagged?_bareAll (tag : String) (stored : List String)
    (nodes : List Node) :
    (bareAll stored nodes).filterMap (Node.blockTagged? tag) =
      (nodes.filterMap (Node.blockTagged? tag)).map Block.bare := by
  refine filterMap_bareAll _ _ stored (blockTagged?_bare tag) (fun node hnode => ?_) nodes
  cases node with
  | statement s => rfl
  | block heading body => exact absurd hnode Bool.false_ne_true

theorem children_bare (b : Block) (tag : String) :
    b.bare.children tag = (b.children tag).map Block.bare :=
  filterMap_blockTagged?_bareAll tag _ b.body

theorem statements_bare (b : Block) (name : String) (hname : name ∉ storedKeywords b.tag) :
    b.bare.statements name = (b.statements name).map Statement.bare := by
  refine filterMap_bareAll _ _ _ (statementNamed?_bare name) (fun node hnode => ?_) b.body
  cases node with
  | block heading body => rfl
  | statement s =>
      refine if_neg fun heq => hname ?_
      rw [← heq]
      exact of_decide_eq_true hnode

-- The keywords that verdicts depend on are stored nowhere.
theorem keys_not_mem_storedKeywords (tag : String) : "keys" ∉ storedKeywords tag := by
  unfold storedKeywords
  split <;> decide

theorem source_not_mem_storedKeywords (tag : String) : "source" ∉ storedKeywords tag := by
  unfold storedKeywords
  split <;> decide

/-! ## Without hop caps -/

/-- The same keywords without hop caps. -/
def KeywordSet.uncapped (set : KeywordSet) : KeywordSet :=
  set.withCaps 0 0

/-- The keyword sets at the four places without hop caps. -/
def KeywordScopes.uncapped (sets : KeywordScopes) : KeywordScopes :=
  fun scope => (sets scope).map KeywordSet.uncapped

/-- A listener whose keyword sets are without hop caps. -/
def Listener.uncapped (l : Listener) : Listener :=
  { l with sets := l.sets.uncapped }

theorem keyLength_uncapped (sets : KeywordScopes) : keyLength sets.uncapped = keyLength sets := by
  have hmatch : ∀ field scope, KeywordSet.matchLengthIn (sets.uncapped scope) field =
      KeywordSet.matchLengthIn (sets scope) field := by
    intro field scope
    rw [KeywordScopes.uncapped]
    cases sets scope <;> rfl
  have hclassify : ∀ field, classifyAt sets.uncapped field = classifyAt sets field := by
    intro field
    funext scope
    rw [classifyAt, hmatch, classifyAt]
  funext field
  rw [keyLength, classifyIn, hclassify, keyLength, classifyIn]

theorem verdict_uncapped (l : Listener) (id : SourceId) (frame : Frame) :
    l.uncapped.verdict id frame = l.verdict id frame := by
  rw [Listener.verdict, Listener.uncapped, accountIn_congr _ _ (keyLength_uncapped l.sets)]
  rfl

/-- Verdicts do not depend on hop caps. -/
theorem verdicts_map_uncapped (listeners : List Listener) (heardOn : InterfaceId)
    (frame : Frame) :
    Listener.verdicts (listeners.map Listener.uncapped) heardOn frame =
      Listener.verdicts listeners heardOn frame := by
  rw [Listener.verdicts, List.zipIdx_map, List.filter_map, List.map_map, Listener.verdicts]
  exact List.map_congr_left fun entry _ => verdict_uncapped entry.1 ⟨entry.2⟩ frame

/-- Without hop caps, the set of a keyword block depends on the listed keywords
    alone. -/
theorem uncapped_keywordSet? (kind : KeywordKind) (b : Block) :
    (keywordSet? kind b).map KeywordSet.uncapped =
      (KeywordSet.ofKeys? kind ((b.statements "keys").flatMap fun s => keysOf s.args)).map
        KeywordSet.uncapped := by
  rw [keywordSet?, listedKeys_eq, Option.map_map]
  rfl

-- Sets that agree but for their hop caps may be declared in place of each other.
theorem uncapped_declared_congr (source source' digipeater digipeater' :
      KeywordKind → Option KeywordSet)
    (hsource : ∀ kind, (source kind).map KeywordSet.uncapped =
      (source' kind).map KeywordSet.uncapped)
    (hdigipeater : ∀ kind, (digipeater kind).map KeywordSet.uncapped =
      (digipeater' kind).map KeywordSet.uncapped) :
    (KeywordScopes.declared source digipeater).uncapped =
      (KeywordScopes.declared source' digipeater').uncapped := by
  have hstandard : ∀ kind, ((digipeater kind).getD (.standard kind)).uncapped =
      ((digipeater' kind).getD (.standard kind)).uncapped := by
    intro kind
    rw [← Option.getD_map KeywordSet.uncapped, hdigipeater, Option.getD_map]
  funext scope
  cases scope with
  | sourceTrace => exact hsource .trace
  | digipeaterTrace => exact congrArg some (hstandard .trace)
  | sourceWide => exact hsource .wide
  | digipeaterWide => exact congrArg some (hstandard .wide)

/-! ## What bare blocks declare -/

theorem keywordSet?_bare (kind : KeywordKind) (b : Block) :
    (keywordSet? kind b.bare).map KeywordSet.uncapped =
      (keywordSet? kind b).map KeywordSet.uncapped := by
  rw [uncapped_keywordSet?, statements_bare b "keys" (keys_not_mem_storedKeywords b.tag),
    List.flatMap_map, uncapped_keywordSet?]
  rfl

theorem declaredSet?_bare (kind : KeywordKind) (b : Block) :
    (b.bare.declaredSet? kind).map KeywordSet.uncapped =
      (b.declaredSet? kind).map KeywordSet.uncapped := by
  rw [Block.declaredSet?, children_bare, List.getLast?_map, Block.declaredSet?]
  cases (b.children kind.tag).getLast? with
  | none => rfl
  | some sub => exact keywordSet?_bare kind sub

theorem heardOn?_bare (named? : String → Option InterfaceId) (b : Block) :
    b.bare.heardOn? named? = b.heardOn? named? := by
  rw [Block.heardOn?, statements_bare b "source" (source_not_mem_storedKeywords b.tag),
    List.getLast?_map, Option.bind_map, Block.heardOn?]
  rfl

/-- A bare block has the listeners of the block itself, but for hop caps. -/
theorem uncapped_listeners_bare (named? : String → Option InterfaceId) (id : DigipeaterId)
    (b : Block) :
    (b.bare.listeners named? id).map Listener.uncapped =
      (b.listeners named? id).map Listener.uncapped := by
  rw [Block.listeners, children_bare, List.map_map, List.map_map, Block.listeners, List.map_map]
  refine List.map_congr_left fun sub _ => ?_
  simp only [Function.comp_apply, Listener.uncapped, Listener.mk.injEq, true_and]
  exact ⟨heardOn?_bare named? sub, uncapped_declared_congr _ _ _ _
    (fun kind => declaredSet?_bare kind sub) fun kind => declaredSet?_bare kind b⟩

/-- Bare blocks declare the same as far as verdicts depend on it. -/
theorem verdicts_listenersOf_bare (named? : String → Option InterfaceId) (blocks : List Block)
    (heardOn : InterfaceId) (frame : Frame) :
    Listener.verdicts (listenersOf named? (blocks.map Block.bare)) heardOn frame =
      Listener.verdicts (listenersOf named? blocks) heardOn frame := by
  have hlisteners : (listenersOf named? (blocks.map Block.bare)).map Listener.uncapped =
      (listenersOf named? blocks).map Listener.uncapped := by
    rw [listenersOf, List.zipIdx_map, List.flatMap_map, List.map_flatMap, listenersOf,
      List.map_flatMap]
    refine List.flatMap_congr fun entry _ => ?_
    exact uncapped_listeners_bare named? ⟨entry.2⟩ entry.1
  rw [← verdicts_map_uncapped, hlisteners, verdicts_map_uncapped]

/-! ## Stations -/

section

variable (settings : Settings) (file : BlockFile)

-- When no block is refused, all of them declare listeners.
theorem acceptedBlocks_eq_self
    (hnone : (LoadedStation.build settings file).report.rejected = []) :
    acceptedBlocks (.ofSettings settings) file.name (file.blocks Station.digipeaterTag) =
      file.blocks Station.digipeaterTag := by
  rw [build_of_file, reportOf, List.filterMap_eq_nil_iff] at hnone
  refine List.filter_eq_self.2 fun b hb => ?_
  have hbuilt := hnone b hb
  rw [Block.refusal?] at hbuilt
  cases hplan : DigipeaterPlan.ofBlock (.ofSettings settings) file.name b with
  | ok plan => rfl
  | error r =>
      rw [hplan] at hbuilt
      cases hbuilt

end

/-- Statements that are only stored do not change a decision. Two forests that
    differ in nothing else, and in which no digipeater block is refused, make
    stations that give the same verdicts on every frame and every interface.
    The frames that are to be sent, and the digipeaters that are to send them,
    are the same as well, and so is what is counted. -/
theorem receive_build_of_bareAll (settings : Settings) (a b : BlockFile)
    (hsame : bareAll [] a.nodes = bareAll [] b.nodes)
    (ha : (LoadedStation.build settings a).report.rejected = [])
    (hb : (LoadedStation.build settings b).report.rejected = [])
    (queue : List Outgoing) (tally : Tally) (heardOn : InterfaceId) (frame : Frame) :
    let first := Relay.receive ⟨(LoadedStation.build settings a).station, queue, tally⟩
      heardOn frame
    let second := Relay.receive ⟨(LoadedStation.build settings b).station, queue, tally⟩
      heardOn frame
    first.1 = second.1 ∧ first.2.queue = second.2.queue ∧ first.2.tally = second.2.tally := by
  intro first second
  have hblocks : (a.blocks Station.digipeaterTag).map Block.bare =
      (b.blocks Station.digipeaterTag).map Block.bare := by
    have hbare := congrArg (List.filterMap (Node.blockTagged? Station.digipeaterTag)) hsame
    rwa [filterMap_blockTagged?_bareAll, filterMap_blockTagged?_bareAll] at hbare
  have hdeclared : Listener.verdicts (declaredListeners settings a) heardOn frame =
      Listener.verdicts (declaredListeners settings b) heardOn frame := by
    rw [declaredListeners, acceptedBlocks_eq_self settings a ha, ← verdicts_listenersOf_bare,
      hblocks, verdicts_listenersOf_bare, declaredListeners, acceptedBlocks_eq_self settings b hb]
  have hequal : (LoadedStation.build settings a).station.verdicts heardOn frame =
      (LoadedStation.build settings b).station.verdicts heardOn frame := by
    rw [verdicts_build, verdicts_build, hdeclared]
  -- The digipeaters that send are those that the verdicts name.
  have hsent : Relay.outgoing (LoadedStation.build settings a).station
        ((LoadedStation.build settings a).station.verdicts heardOn frame) frame =
      Relay.outgoing (LoadedStation.build settings b).station
        ((LoadedStation.build settings b).station.verdicts heardOn frame) frame := by
    rw [Station.outgoing_verdicts (linked_build settings a),
      Station.outgoing_verdicts (linked_build settings b), hequal]
  exact ⟨hequal, congrArg (queue ++ ·) hsent,
    congrArg (List.foldl Tally.countVerdict tally) hequal⟩

/-- The plain digipeater block with statements that are only stored put into
    it, and with a keyword set that is the standard one but for its hop caps. -/
def storingBlock : Block where
  line := 1
  tag := "digipeater"
  closed := true
  body := [.statement ⟨2, "ratelimit", ["30"]⟩, .statement ⟨3, "transmit", ["$mycall"]⟩,
    .block ⟨4, "source", true⟩ [.statement ⟨5, "source", ["n0call"]⟩,
      .statement ⟨6, "filter", ["m/50"]⟩, .statement ⟨7, "relay-format", ["third-party"]⟩],
    .block ⟨9, "wide", true⟩ [.statement ⟨10, "keys", ["WIDE"]⟩, .statement ⟨11, "maxdone", ["1"]⟩]]

/-- The same block without them, and with other hop caps. -/
def otherStoringBlock : Block where
  line := 1
  tag := "digipeater"
  closed := true
  body := [.statement ⟨2, "transmit", ["$mycall"]⟩,
    .block ⟨3, "source", true⟩ [.statement ⟨4, "source", ["n0call"]⟩],
    .block ⟨6, "wide", true⟩ [.statement ⟨7, "maxreq", ["7"]⟩, .statement ⟨8, "keys", ["WIDE"]⟩]]

/-- The two blocks make stations that decide alike. -/
theorem receive_build_of_bareAll_storing :
    let settings := { Settings.standard with interfaces := [⟨"N0CALL", true⟩] }
    let a : BlockFile := ⟨"a.conf", [.block storingBlock.toHeading storingBlock.body]⟩
    let b : BlockFile := ⟨"b.conf", [.block otherStoringBlock.toHeading otherStoringBlock.body]⟩
    bareAll [] a.nodes = bareAll [] b.nodes ∧
      (LoadedStation.build settings a).report.rejected = [] ∧
      (LoadedStation.build settings b).report.rejected = [] ∧
      ∀ frame,
        (Relay.receive (.ofStation (LoadedStation.build settings a).station) ⟨0⟩ frame).1 =
          (Relay.receive (.ofStation (LoadedStation.build settings b).station) ⟨0⟩ frame).1 := by
  intro settings a b
  have hsame : bareAll [] a.nodes = bareAll [] b.nodes := rfl
  have ha : (LoadedStation.build settings a).report.rejected = [] := by decide
  have hb : (LoadedStation.build settings b).report.rejected = [] := by decide
  exact ⟨hsame, ha, hb, fun frame =>
    (receive_build_of_bareAll settings a b hsame ha hb [] .zero ⟨0⟩ frame).1⟩

end AprsRelay
