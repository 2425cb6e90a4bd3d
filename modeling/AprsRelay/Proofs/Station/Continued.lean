import AprsRelay.Proofs.Plan.Moved
import AprsRelay.Proofs.Station.Loading

/-!
# Files that Go On

A block file may be cut at the end of any line, and it may go on there. What
was complete before the cut is not touched by what comes behind it. The nodes
that are settled at the cut are the first ones of the longer file, and all
that is left is in a block that is not closed, which is refused. So the plans
of the first part are the first ones of the whole file, and they are carried
out first.

If no block is open at the cut, more can be said. Then the rest of the file is
loaded as a file of its own, and the report on the whole file is made of the
reports on its parts. Whether a block is refused, and why, does not depend on
the part that it is in.

## Main definitions

* `LoadReport.moved`: The report on a file whose text stands further down.
* `BlockFile.settledNodes`: The nodes of a text that do not change when the
  text goes on.

## Theorems

* `plansOf_map_moved`, `reportOf_map_moved`: Blocks further down.
* `reportOf_append`: The report on more blocks.
* `sameInterfaces_build`, `findInterface?_build`: Interfaces are found as they
  were declared.
* `plansOf_readNodes`: Only settled nodes have plans.
* `build_eq`, `load_build_eq`: One text loaded, and another one after it.
* `build_append`: A file in two parts.
-/

namespace AprsRelay

/-- The report on a file whose text stands further down. -/
def LoadReport.moved (k : Nat) (r : LoadReport) : LoadReport :=
  { r with rejected := r.rejected.map (Rejection.moved k) }

/-- The nodes of a text that do not change when the text goes on. -/
def BlockFile.settledNodes (text : String) : List Node :=
  (Reading.start.run (significantLines text)).settled

-- The blocks of a forest further down stand further down.
theorem blocks_movedAll (k : Nat) (name tag : String) (nodes : List Node) :
    (⟨name, movedAll k nodes⟩ : BlockFile).blocks tag =
      ((⟨name, nodes⟩ : BlockFile).blocks tag).map (Block.moved k) := by
  simp only [BlockFile.blocks, movedAll_eq_map, List.filterMap_map, List.map_filterMap]
  exact List.filterMap_congr fun node _ => blockTagged?_moved k tag node

section

variable (s : Station) (file : String)

theorem plan?_moved (k : Nat) (b : Block) : (b.moved k).plan? s file = b.plan? s file := by
  rw [Block.plan?, ofBlock_moved, Block.plan?]
  cases DigipeaterPlan.ofBlock s file b <;> rfl

theorem refusal?_moved (k : Nat) (b : Block) :
    (b.moved k).refusal? s file = (b.refusal? s file).map (Rejection.moved k) := by
  rw [Block.refusal?, ofBlock_moved, Block.refusal?]
  cases DigipeaterPlan.ofBlock s file b <;> rfl

theorem plansOf_map_moved (k : Nat) (blocks : List Block) :
    plansOf s file (blocks.map (Block.moved k)) = plansOf s file blocks := by
  rw [plansOf, List.filterMap_map]
  exact List.filterMap_congr fun b _ => plan?_moved s file k b

/-- Blocks further down are reported further down. -/
theorem reportOf_map_moved (k : Nat) (blocks : List Block) :
    reportOf s file (blocks.map (Block.moved k)) = (reportOf s file blocks).moved k := by
  rw [reportOf, plansOf_map_moved, List.filterMap_map, LoadReport.moved, reportOf,
    List.map_filterMap]
  exact congrArg _ (List.filterMap_congr fun b _ => refusal?_moved s file k b)

theorem plansOf_append (a b : List Block) :
    plansOf s file (a ++ b) = plansOf s file a ++ plansOf s file b :=
  List.filterMap_append

-- A block that is not closed has no plan.
theorem plansOf_of_unclosed (blocks : List Block) (h : ∀ b ∈ blocks, b.closed = false) :
    plansOf s file blocks = [] := by
  refine List.filterMap_eq_nil_iff.2 fun b hb => ?_
  cases hplan : b.plan? s file with
  | none => rfl
  | some plan =>
      have hbuilt := (plan?_eq_some_iff s file b plan).1 hplan
      have hrule := (exists_ofBlock_iff s file b).1 ⟨plan, hbuilt⟩
      exact absurd (hrule.closed.symm.trans (h b hb)) (by decide)

/-- Only settled nodes have plans, since everything else is in a block that is
    not closed. -/
theorem plansOf_readNodes (text tag : String) :
    plansOf s file ((⟨file, BlockFile.readNodes text⟩ : BlockFile).blocks tag) =
      plansOf s file ((⟨file, BlockFile.settledNodes text⟩ : BlockFile).blocks tag) := by
  rcases Reading.finish_eq_settled_append (Reading.start.run (significantLines text)) with
    ⟨left, hfinish, hleft⟩
  have hunclosed : ∀ b ∈ (⟨file, left⟩ : BlockFile).blocks tag, b.closed = false := by
    intro b hb
    rcases hleft _ ((BlockFile.mem_blocks_iff _ _ _).1 hb).2 with ⟨heading, body, hopen, heq⟩
    rw [(Node.block.inj heq).1]
    exact hopen
  have hblocks : (⟨file, BlockFile.readNodes text⟩ : BlockFile).blocks tag =
      (⟨file, BlockFile.settledNodes text⟩ : BlockFile).blocks tag ++
        (⟨file, left⟩ : BlockFile).blocks tag := by
    rw [BlockFile.blocks, BlockFile.readNodes, hfinish]
    exact List.filterMap_append
  rw [hblocks, plansOf_append, plansOf_of_unclosed s file _ hunclosed, List.append_nil]

end

-- What is settled at the end of a line stays when the text goes on.
theorem settledNodes_prefix_append (a b : String) (ha : a = "" ∨ ∃ rest, a = rest ++ "\n") :
    BlockFile.settledNodes a <+: BlockFile.settledNodes (a ++ b) := by
  rw [BlockFile.settledNodes, BlockFile.settledNodes, significantLines_append a b ha,
    Reading.run_append]
  exact Reading.settled_prefix_run _ _

namespace Station

variable (s : Station)

theorem sameInterfaces_installAll (plans : List DigipeaterPlan) :
    (s.installAll plans).SameInterfaces s := by
  induction plans generalizing s with
  | nil => exact sameInterfaces_refl s
  | cons plan plans ih =>
      exact sameInterfaces_trans (ih (s.install plan)) (sameInterfaces_install s plan)

theorem length_digipeaters_installAll (plans : List DigipeaterPlan) :
    (s.installAll plans).digipeaters.length = s.digipeaters.length + plans.length := by
  induction plans generalizing s with
  | nil => rfl
  | cons plan plans ih =>
      have hrest := ih (s.install plan)
      rw [length_digipeaters_install] at hrest
      rw [List.length_cons, Nat.add_comm plans.length, ← Nat.add_assoc]
      exact hrest

/-- The report on more blocks goes on where the report on the first ones
    ended. -/
theorem reportOf_append (file : String) (a b : List Block) :
    reportOf s file (a ++ b) =
      (reportOf s file a).followedBy (reportOf (s.installAll (plansOf s file a)) file b) := by
  have hsame := s.sameInterfaces_installAll (plansOf s file a)
  rw [reportOf, plansOf_append, List.length_append, List.filterMap_append,
    ← List.range'_append_1, List.map_append, LoadReport.followedBy, reportOf, reportOf,
    length_digipeaters_installAll, plansOf_congr hsame, refusal?_congr hsame]

-- The same blocks get the same numbers, counted from where the station stands.
theorem accepted_reportOf_congr {s t : Station} (hsame : t.SameInterfaces s)
    (hnone : s.digipeaters = []) (file : String) (blocks : List Block) :
    (reportOf t file blocks).accepted = (reportOf s file blocks).accepted.map fun id =>
      ⟨t.digipeaters.length + id.index⟩ := by
  have hrange : (List.range' 0 (plansOf s file blocks).length).map (t.digipeaters.length + ·) =
      List.range' t.digipeaters.length (plansOf s file blocks).length :=
    List.map_add_range' 0 _ 1
  simp only [reportOf, plansOf_congr hsame, hnone, List.length_nil, ← hrange, List.map_map]
  rfl

/-- Plans that are carried out first have the first digipeaters and sources. -/
theorem prefix_installAll_of_prefix (a b : List DigipeaterPlan) (h : a <+: b) :
    (s.installAll a).digipeaters <+: (s.installAll b).digipeaters ∧
      (s.installAll a).sources <+: (s.installAll b).sources := by
  rcases h with ⟨more, rfl⟩
  rw [installAll_append]
  exact ⟨digipeaters_prefix_installAll _ more, sources_prefix_installAll _ more⟩

end Station

/-! ## Interfaces of a built station -/

section

variable (settings : Settings) (file : BlockFile)

-- A station that was loaded answers like the one before.
theorem sameInterfaces_build :
    (LoadedStation.build settings file).station.SameInterfaces (.ofSettings settings) := by
  rw [build_of_file]
  exact Station.sameInterfaces_installAll _ _

/-- A built station finds the first interface that was declared with a
    callsign. -/
theorem findInterface?_build (callsign : String) :
    (LoadedStation.build settings file).station.findInterface? callsign =
      (settings.interfaces.findIdx? fun i => Text.sameLetters i.callsign callsign).map
        InterfaceId.mk := by
  rw [(sameInterfaces_build settings file).find, Station.findInterface?_declared]

end

/-! ## Both parts of a file -/

section

variable (settings : Settings) (name : String)

/-- The digipeater blocks of a text. -/
def digipeaterBlocks (text : String) : List Block :=
  (BlockFile.read name text).blocks Station.digipeaterTag

theorem build_eq (text : String) :
    LoadedStation.build settings (.read name text) =
      ⟨settings,
        (Station.ofSettings settings).installAll
          (plansOf (.ofSettings settings) name (digipeaterBlocks name text)),
        reportOf (.ofSettings settings) name (digipeaterBlocks name text)⟩ :=
  build_of_file settings (.read name text)

/-- Another text is loaded afterwards. -/
theorem load_build_eq (a b : String) :
    let first := LoadedStation.build settings (.read name a)
    first.station.load (.read name b) =
      (first.station.installAll (plansOf (.ofSettings settings) name (digipeaterBlocks name b)),
        reportOf first.station name (digipeaterBlocks name b)) := by
  intro first
  have hlinked : first.station.Linked := linked_build settings (.read name a)
  rw [← plansOf_congr (sameInterfaces_build settings (.read name a))]
  exact Station.load_eq hlinked (.read name b)

variable (a b : String) (ha : a = "" ∨ ∃ rest, a = rest ++ "\n")
include ha

-- The plans of the first part are those of its settled nodes.
theorem plansOf_prefix_append (s : Station) :
    plansOf s name (digipeaterBlocks name a) <+:
      plansOf s name (digipeaterBlocks name (a ++ b)) := by
  have hsettled := settledNodes_prefix_append a b ha
  have hfirst := plansOf_readNodes s name a Station.digipeaterTag
  have hwhole := plansOf_readNodes s name (a ++ b) Station.digipeaterTag
  rw [digipeaterBlocks, digipeaterBlocks, BlockFile.read, BlockFile.read, hfirst, hwhole]
  exact (hsettled.filterMap _).filterMap _

theorem digipeaterBlocks_append
    (hclosed : ∀ heading ∈ headings (BlockFile.readNodes a), heading.closed = true) :
    digipeaterBlocks name (a ++ b) =
      digipeaterBlocks name a ++
        (digipeaterBlocks name b).map (Block.moved (a.toList.count '\n')) := by
  have hmoved := blocks_movedAll (a.toList.count '\n') name Station.digipeaterTag
    (BlockFile.readNodes b)
  rw [digipeaterBlocks, BlockFile.read, readNodes_append a b ha hclosed, digipeaterBlocks,
    digipeaterBlocks, BlockFile.read, BlockFile.read, ← hmoved]
  exact List.filterMap_append

end

/-- The digipeaters and sources of a file that is cut at the end of a line are
    the first ones of the whole file, with the same numbers. If no block is
    open there, the whole file is loaded by loading its second part after the
    first one. The report is the report on the first part, followed by that on
    the second part with the lines counted from the beginning of the file. The
    same blocks of the second part are refused as without the first part, for
    the same faults, and the others only get other numbers. -/
theorem build_append (settings : Settings) (name a b : String)
    (ha : a = "" ∨ ∃ rest, a = rest ++ "\n") :
    let first := LoadedStation.build settings (.read name a)
    let whole := LoadedStation.build settings (.read name (a ++ b))
    let alone := LoadedStation.build settings (.read name b)
    let rest := first.station.load (.read name b)
    (first.station.digipeaters <+: whole.station.digipeaters ∧
        first.station.sources <+: whole.station.sources) ∧
      ((∀ heading ∈ headings (BlockFile.readNodes a), heading.closed = true) →
        whole.station = rest.1 ∧
          whole.report = first.report.followedBy (rest.2.moved (a.toList.count '\n')) ∧
          rest.2.rejected = alone.report.rejected ∧
          rest.2.accepted = alone.report.accepted.map fun id =>
            ⟨first.station.digipeaters.length + id.index⟩) := by
  intro first whole alone rest
  have hfirst : first = _ := build_eq settings name a
  have hwhole : whole = _ := build_eq settings name (a ++ b)
  have halone : alone = _ := build_eq settings name b
  constructor
  · rw [hfirst, hwhole]
    exact Station.prefix_installAll_of_prefix _ _ _ (plansOf_prefix_append name a b ha _)
  intro hclosed
  have hblocks := digipeaterBlocks_append name a b ha hclosed
  have hsame : first.station.SameInterfaces (.ofSettings settings) :=
    sameInterfaces_build settings (.read name a)
  have hrest : rest = (first.station.installAll
        (plansOf (.ofSettings settings) name (digipeaterBlocks name b)),
      reportOf first.station name (digipeaterBlocks name b)) := load_build_eq settings name a b
  refine ⟨?_, ?_, ?_, ?_⟩
  · rw [hwhole, hrest, hfirst, hblocks, plansOf_append, plansOf_map_moved,
      Station.installAll_append]
  · rw [hwhole, hrest, hfirst, hblocks, Station.reportOf_append, reportOf_map_moved]
  · rw [hrest, halone, reportOf, refusal?_congr hsame, reportOf]
  · have hnone : (Station.ofSettings settings).digipeaters = [] := by rw [Station.ofSettings_eq]
    rw [hrest, halone]
    exact Station.accepted_reportOf_congr hsame hnone name _

/-- A plain digipeater block, as it is written. -/
def plainText : String :=
  "<digipeater>\ntransmit $mycall\n<source>\nsource n0call\n</source>\n</digipeater>\n"

/-- A block file may go on behind a plain block, which is kept as it is. What
    follows is reported as in a file of its own, six lines further down. -/
theorem build_append_plain :
    let settings := { Settings.standard with interfaces := [⟨"N0CALL", true⟩] }
    let first := LoadedStation.build settings (.read "digi.conf" plainText)
    let whole := LoadedStation.build settings (.read "digi.conf" (plainText ++ "<digipeater>"))
    let rest := first.station.load (.read "digi.conf" "<digipeater>")
    (plainText = "" ∨ ∃ rest, plainText = rest ++ "\n") ∧
    (∀ heading ∈ headings (BlockFile.readNodes plainText), heading.closed = true) ∧
    first.station.digipeaters.length = 1 ∧
    first.station.digipeaters <+: whole.station.digipeaters ∧
    whole.report = first.report.followedBy (rest.2.moved 6) := by
  have hended : plainText = "" ∨ ∃ rest, plainText = rest ++ "\n" :=
    Or.inr ⟨"<digipeater>\ntransmit $mycall\n<source>\nsource n0call\n</source>\n</digipeater>",
      by decide +kernel⟩
  have hclosed : ∀ heading ∈ headings (BlockFile.readNodes plainText), heading.closed = true := by
    decide +kernel
  have hcount : plainText.toList.count '\n' = 6 := by decide +kernel
  have h := build_append { Settings.standard with interfaces := [⟨"N0CALL", true⟩] } "digi.conf"
    plainText "<digipeater>" hended
  have hwhole := h.2 hclosed
  rw [hcount] at hwhole
  exact ⟨hended, hclosed, by decide +kernel, h.1.1, hwhole.2.1⟩

end AprsRelay
