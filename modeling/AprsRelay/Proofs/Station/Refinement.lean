import AprsRelay.Proofs.Plan.Declared
import AprsRelay.Proofs.Plan.Interfaces
import AprsRelay.Proofs.Station.Listeners
import AprsRelay.Program.Startup
import AprsRelay.Relay

/-!
# From the Block File to Verdicts

A block file can be read as a list of listeners without building anything: one
for each source block of each digipeater block that has no fault, with the
interface and the keyword sets that are written there. The station that is
built from the file gives the verdicts of these listeners. Loading is followed
block by block. What the station holds mirrors the blocks taken so far, and a
block that is taken next adds its own listeners, or none when it is refused.

## Main definitions

* `Block.listeners`: The listeners that a digipeater block declares.
* `acceptedBlocks`: The blocks without a fault.
* `listenersOf`: The listeners that several blocks declare.
* `Mirrors`: A station that mirrors the blocks taken so far.
* `declaredListeners`: The listeners that settings and a block file declare.

## Theorems

* `map_listener_of_ofBlock`: A plan has the listeners that its block declares.
* `Linked.holds_of_ofBlock`: A plan that was just built has interfaces that
  exist.
* `mirrors_loadBlock`, `mirrors_foldl`: One block more, and all blocks.
* `mirrors_build`, `verdicts_build`: The station that a block file describes.
* `receive_build`: A frame gets the verdicts of the declared listeners.
-/

namespace AprsRelay

/-- The listeners that a digipeater block declares, one for each source block
    in it. -/
def Block.listeners (named? : String → Option InterfaceId) (id : DigipeaterId) (b : Block) :
    List Listener :=
  (b.children "source").map fun sub =>
    ⟨id, sub.heardOn? named?,
      .declared (fun kind => sub.declaredSet? kind) fun kind => b.declaredSet? kind⟩

/-- The blocks in which a station finds no fault. -/
def acceptedBlocks (s : Station) (file : String) (blocks : List Block) : List Block :=
  blocks.filter fun b => (DigipeaterPlan.ofBlock s file b).isOk

/-- The listeners that several blocks declare. The number of a digipeater is
    the place of its block. -/
def listenersOf (named? : String → Option InterfaceId) (blocks : List Block) : List Listener :=
  blocks.zipIdx.flatMap fun (b, k) => b.listeners named? ⟨k⟩

theorem listenersOf_concat (named? : String → Option InterfaceId) (blocks : List Block)
    (b : Block) :
    listenersOf named? (blocks ++ [b]) =
      listenersOf named? blocks ++ b.listeners named? ⟨blocks.length⟩ := by
  rw [listenersOf, List.zipIdx_append, List.flatMap_append, Nat.zero_add]
  simp only [List.zipIdx_singleton, List.flatMap_singleton]
  rfl

theorem map_eq_of_forall₂ {α β γ : Type} {R : α → β → Prop} (f : α → γ) (g : β → γ)
    (as : List α) (bs : List β) (h : List.Forall₂ R as bs) (hfg : ∀ a b, R a b → f a = g b) :
    as.map f = bs.map g := by
  induction h with
  | nil => rfl
  | cons hab _ ih => rw [List.map_cons, List.map_cons, ih, hfg _ _ hab]

/-- A plan has the listeners that its block declares. -/
theorem map_listener_of_ofBlock (s : Station) (file : String) (b : Block) (plan : DigipeaterPlan)
    (h : DigipeaterPlan.ofBlock s file b = .ok plan) (id : DigipeaterId) :
    plan.sources.map (plan.listener id) = b.listeners s.named? id := by
  rcases declared_of_ofBlock s file b plan h with ⟨htrace, hwide, hsources⟩
  have hsets : plan.set? = fun kind => b.declaredSet? kind := by
    funext kind
    cases kind with
    | trace => exact htrace
    | wide => exact hwide
  have hlistener : ∀ sub source, CleanSource s sub source →
      (⟨id, sub.heardOn? s.named?,
        .declared (fun kind => sub.declaredSet? kind) fun kind => b.declaredSet? kind⟩ : Listener) =
      plan.listener id source := by
    intro sub source hclean
    rcases declared_of_cleanSource s sub source hclean with ⟨hinterface, hsub, hsub'⟩
    have hsubsets : source.set? = fun kind => sub.declaredSet? kind := by
      funext kind
      cases kind with
      | trace => exact hsub
      | wide => exact hsub'
    rw [DigipeaterPlan.listener, hsets, hsubsets, hinterface]
  exact (map_eq_of_forall₂ _ _ _ _ hsources hlistener).symm

namespace Station

-- The interface that is found for a callsign exists.
theorem Linked.holds_of_findInterface? {s : Station} (h : s.Linked) (callsign : String)
    (id : InterfaceId) (hid : s.findInterface? callsign = some id) : s.holds id = true := by
  rcases Option.map_eq_some_iff.1 hid with ⟨i, hi, rfl⟩
  have hplace := getElem?_of_numbered _ _ h.interface_id i (List.mem_of_find?_eq_some hi)
  exact (s.holds_iff i.id).2 (List.getElem?_eq_some_iff.1 hplace).1

/-- The interfaces of a plan that was just built exist. -/
theorem Linked.holds_of_ofBlock {s : Station} (h : s.Linked) (file : String) (b : Block)
    (plan : DigipeaterPlan) (hplan : DigipeaterPlan.ofBlock s file b = .ok plan) :
    ∀ id ∈ plan.interfaces, s.holds id = true := by
  intro id hid
  rcases exists_findInterface?_of_ofBlock s file b plan hplan id hid with ⟨callsign, hfind⟩
  exact h.holds_of_findInterface? callsign id hfind

/-- After some blocks were taken, a station and its report mirror those of
    them that were accepted. Whether they were is told by the station as it was
    at the start. -/
structure Mirrors (start : Station) (file : String) (blocks : List Block)
    (state : Station × LoadReport) : Prop where
  linked : state.1.Linked
  same : state.1.SameInterfaces start
  count : state.1.digipeaters.length = (acceptedBlocks start file blocks).length
  listeners : state.1.listeners =
    listenersOf start.named? (acceptedBlocks start file blocks)
  accepted : state.2.accepted =
    (List.range (acceptedBlocks start file blocks).length).map DigipeaterId.mk

variable {start : Station} {file : String} {blocks : List Block} {state : Station × LoadReport}

/-- A block that is carried out adds its listeners, and one that is refused
    adds nothing. -/
theorem mirrors_loadBlock (h : Mirrors start file blocks state) (b : Block) :
    Mirrors start file (blocks ++ [b]) (loadBlock file state b) := by
  rcases state with ⟨t, report⟩
  have hsplit : acceptedBlocks start file (blocks ++ [b]) =
      acceptedBlocks start file blocks ++ acceptedBlocks start file [b] :=
    List.filter_append _ _
  have hbuilt := ofBlock_congr h.same file b
  cases hplan : DigipeaterPlan.ofBlock start file b with
  | error rejection =>
      have hkept : acceptedBlocks start file (blocks ++ [b]) = acceptedBlocks start file blocks := by
        have hrefused : acceptedBlocks start file [b] = [] := by
          rw [acceptedBlocks, List.filter_cons, hplan]
          rfl
        rw [hsplit, hrefused, List.append_nil]
      rw [hplan] at hbuilt
      simp only [loadBlock, hbuilt]
      refine ⟨h.linked, h.same, ?_, ?_, ?_⟩
      · rw [hkept]
        exact h.count
      · rw [hkept]
        exact h.listeners
      · rw [hkept]
        exact h.accepted
  | ok plan =>
      have htaken : acceptedBlocks start file [b] = [b] := by
        rw [acceptedBlocks, List.filter_cons, hplan]
        rfl
      rw [htaken] at hsplit
      rw [hplan] at hbuilt
      -- The interfaces of the plan are known, so that it is not turned away.
      have hheld := h.linked.holds_of_ofBlock file b plan hbuilt
      have hcommit := (commit?_eq_some_iff t _ plan _).2 ⟨hheld, rfl, rfl⟩
      have hnext : t.nextDigipeater = ⟨(acceptedBlocks start file blocks).length⟩ := by
        rw [nextDigipeater, h.count]
      simp only [loadBlock, hbuilt, hcommit]
      refine ⟨linked_install h.linked plan hheld,
        sameInterfaces_trans (sameInterfaces_install t plan) h.same, ?_, ?_, ?_⟩
      · rw [hsplit, List.length_append, ← h.count]
        exact List.length_append
      · rw [hsplit, listenersOf_concat, listeners_install h.linked, h.listeners, hnext,
          map_listener_of_ofBlock start file b plan hplan]
      · rw [hsplit, List.length_append, List.length_singleton, List.range_succ, List.map_append,
          LoadReport.accept, h.accepted, hnext]
        rfl

/-- So a station mirrors a whole file once it is loaded. -/
theorem mirrors_foldl (h : Mirrors start file blocks state) (more : List Block) :
    Mirrors start file (blocks ++ more) (more.foldl (loadBlock file) state) := by
  induction more generalizing blocks state with
  | nil =>
      rw [List.append_nil]
      exact h
  | cons b more ih =>
      rw [List.foldl_cons, List.append_cons]
      exact ih (mirrors_loadBlock h b)

theorem linked_ofSettings (settings : Settings) : (ofSettings settings).Linked := by
  have hgrow : ofSettings settings = (empty settings.mycall).grow
      (settings.interfaces.map fun i => .addInterface i.callsign i.canTransmit) := by
    rw [grow, List.foldl_map]
    rfl
  rw [hgrow]
  exact linked_grow (linked_empty settings.mycall) _

-- A station that was just set up has nothing to mirror.
theorem mirrors_ofSettings (settings : Settings) (file : String) :
    Mirrors (ofSettings settings) file [] (ofSettings settings, .empty) where
  linked := linked_ofSettings settings
  same := sameInterfaces_refl _
  count := by
    rw [ofSettings_eq]
    rfl
  listeners := by
    rw [ofSettings_eq]
    rfl
  accepted := rfl

end Station

/-- The listeners that settings and a block file declare. -/
def declaredListeners (settings : Settings) (file : BlockFile) : List Listener :=
  listenersOf settings.interface?
    (acceptedBlocks (.ofSettings settings) file.name (file.blocks Station.digipeaterTag))

section

variable (settings : Settings) (file : BlockFile)

/-- A station that is built from a block file mirrors all of its digipeater
    blocks. -/
theorem mirrors_build :
    Station.Mirrors (.ofSettings settings) file.name (file.blocks Station.digipeaterTag)
      ((LoadedStation.build settings file).station,
        (LoadedStation.build settings file).report) := by
  have h := Station.mirrors_foldl (Station.mirrors_ofSettings settings file.name)
    (file.blocks Station.digipeaterTag)
  rwa [List.nil_append] at h

theorem linked_build : (LoadedStation.build settings file).station.Linked :=
  (mirrors_build settings file).linked

-- So it gives the verdicts of the listeners that the blocks declare.
theorem verdicts_build (heardOn : InterfaceId) (frame : Frame) :
    (LoadedStation.build settings file).station.verdicts heardOn frame =
      Listener.verdicts (declaredListeners settings file) heardOn frame := by
  have hnamed : (Station.ofSettings settings).named? = settings.interface? :=
    funext (Station.findInterface?_ofSettings settings)
  have h := mirrors_build settings file
  rw [declaredListeners, ← hnamed, ← h.listeners]
  exact Station.verdicts_eq h.linked heardOn frame

end

/-- A frame that comes in on an interface gets the verdicts of the listeners
    that settings and the block file declare, and no others. The numbers in a
    verdict are the places of the digipeater block among the accepted blocks
    and of the source block among their source blocks. -/
theorem receive_build (settings : Settings) (name text : String) (queue : List Outgoing)
    (tally : Tally) (heardOn : InterfaceId) (frame : Frame) :
    let file := BlockFile.read name text
    let loaded := LoadedStation.build settings file
    ((⟨loaded.station, queue, tally⟩ : Relay).receive heardOn frame).1 =
        Listener.verdicts (declaredListeners settings file) heardOn frame ∧
      loaded.report.accepted =
        (List.range (acceptedBlocks (.ofSettings settings) file.name
          (file.blocks Station.digipeaterTag)).length).map DigipeaterId.mk := by
  intro file loaded
  exact ⟨verdicts_build settings file heardOn frame, (mirrors_build settings file).accepted⟩

end AprsRelay
