import AprsRelay.Proofs.Plan.Contents
import AprsRelay.Proofs.Station.Refinement

/-!
# What Loading Does

Loading takes the digipeater blocks of a file one after the other and builds
each of them against the station as it has become by then. Carrying out a plan
changes no answer that building asks for, so every block could as well be
built against the station as it was at first. This takes the loop apart: the
plans of all blocks are known beforehand, and loading carries them out in the
order of the file.

A plan that was just built is never turned away, because its interfaces were
found by their callsigns. And a block that has no plan has a fault, because a
block without findings names an interface to send on. So no block is lost
between the two halves of the report.

## Main definitions

* `Block.plan?`, `Block.refusal?`: What building a block comes to.
* `plansOf`, `reportOf`: The plans of several blocks, and the report on them.
* `Station.installAll`: Several plans carried out.
* `LoadReport.followedBy`: One report after another.
* `BlockOutcome`: What became of a block.
* `BlockFile.onlyAccepted`: A file without everything that adds nothing.

## Theorems

* `commit?_of_ofBlock`: A plan that was just built is carried out.
* `refusal_of_ofBlock`: A block is refused with its line and with a fault.
* `foldl_loadBlock_eq`, `load_eq`, `build_of_file`: Loading carries out all
  plans.
* `plansOf_congr`, `refusal?_congr`: They depend on answers only.
* `exists_outcomes`: Every block is accounted for.
* `load_outcomes`: The report on a file, and the station after it.
-/

namespace AprsRelay

/-- The plan of a block, if it has no fault. -/
def Block.plan? (s : Station) (file : String) (b : Block) : Option DigipeaterPlan :=
  (DigipeaterPlan.ofBlock s file b).toOption

theorem plan?_eq_some_iff (s : Station) (file : String) (b : Block) (plan : DigipeaterPlan) :
    b.plan? s file = some plan ↔ DigipeaterPlan.ofBlock s file b = .ok plan := by
  unfold Block.plan?
  cases DigipeaterPlan.ofBlock s file b <;> simp [Except.toOption]

/-- The refusal of a block, if it has a fault. -/
def Block.refusal? (s : Station) (file : String) (b : Block) : Option Rejection :=
  match DigipeaterPlan.ofBlock s file b with
  | .error rejection => some rejection
  | .ok _ => none

/-- The plans of those blocks that have no fault. -/
def plansOf (s : Station) (file : String) (blocks : List Block) : List DigipeaterPlan :=
  blocks.filterMap (Block.plan? s file)

/-- The report on several blocks. The numbers of the digipeaters go on from
    those of the station. -/
def reportOf (s : Station) (file : String) (blocks : List Block) : LoadReport where
  accepted :=
    (List.range' s.digipeaters.length (plansOf s file blocks).length).map DigipeaterId.mk
  rejected := blocks.filterMap (Block.refusal? s file)

/-- One report after another. -/
def LoadReport.followedBy (a b : LoadReport) : LoadReport :=
  ⟨a.accepted ++ b.accepted, a.rejected ++ b.rejected⟩

/-- A station after several plans were carried out. -/
def Station.installAll (s : Station) (plans : List DigipeaterPlan) : Station :=
  plans.foldl Station.install s

/-- A block that is refused keeps its line, and at least one fault is
    reported. -/
theorem refusal_of_ofBlock (s : Station) (file : String) (b : Block) (r : Rejection)
    (h : DigipeaterPlan.ofBlock s file b = .error r) :
    r.file = file ∧ r.line = b.line ∧ r.faults ≠ [] := by
  have hfindings : digipeaterFindings s b ≠ [] := by
    intro hnil
    have hrule := (digipeaterFindings_eq_nil_iff s b).1 hnil
    rcases (exists_ofBlock_iff s file b).2 hrule with ⟨plan, hplan⟩
    rw [hplan] at h
    exact nomatch h
  have hr : r = .ofFindings file b.line (digipeaterFindings s b) := by
    unfold DigipeaterPlan.ofBlock at h
    split at h
    · exact nomatch h
    · exact (Except.error.inj h).symm
  rw [hr]
  refine ⟨rfl, rfl, fun hfaults => hfindings ?_⟩
  exact List.map_eq_nil_iff.1 hfaults

section

variable {s t : Station} (h : s.SameInterfaces t)
include h

theorem plan?_congr (file : String) : Block.plan? s file = Block.plan? t file := by
  funext b
  rw [Block.plan?, ofBlock_congr h, Block.plan?]

theorem plansOf_congr (file : String) (blocks : List Block) :
    plansOf s file blocks = plansOf t file blocks := by
  rw [plansOf, plan?_congr h, plansOf]

theorem refusal?_congr (file : String) : Block.refusal? s file = Block.refusal? t file := by
  funext b
  rw [Block.refusal?, ofBlock_congr h, Block.refusal?]

end

namespace Station

variable {s : Station}

/-- A plan that was just built is carried out, since its interfaces exist. -/
theorem Linked.commit?_of_ofBlock (h : s.Linked) (file : String) (b : Block)
    (plan : DigipeaterPlan) (hplan : DigipeaterPlan.ofBlock s file b = .ok plan) :
    s.commit? plan = some (s.nextDigipeater, s.install plan) :=
  (commit?_eq_some_iff s _ plan _).2 ⟨h.holds_of_ofBlock file b plan hplan, rfl, rfl⟩

-- So the links are kept when such a plan is carried out.
theorem Linked.install_of_ofBlock (h : s.Linked) (file : String) (b : Block)
    (plan : DigipeaterPlan) (hplan : DigipeaterPlan.ofBlock s file b = .ok plan) :
    (s.install plan).Linked :=
  linked_install h plan (h.holds_of_ofBlock file b plan hplan)

theorem length_digipeaters_install (s : Station) (plan : DigipeaterPlan) :
    (s.install plan).digipeaters.length = s.digipeaters.length + 1 :=
  List.length_append

theorem installAll_append (s : Station) (a b : List DigipeaterPlan) :
    s.installAll (a ++ b) = (s.installAll a).installAll b :=
  List.foldl_append

-- Digipeaters and sources are only ever added at the end.
theorem digipeaters_prefix_installAll (s : Station) (plans : List DigipeaterPlan) :
    s.digipeaters <+: (s.installAll plans).digipeaters := by
  induction plans generalizing s with
  | nil => exact List.prefix_rfl
  | cons plan plans ih => exact (List.prefix_append _ _).trans (ih (s.install plan))

theorem sources_prefix_installAll (s : Station) (plans : List DigipeaterPlan) :
    s.sources <+: (s.installAll plans).sources := by
  induction plans generalizing s with
  | nil => exact List.prefix_rfl
  | cons plan plans ih => exact (List.prefix_append _ _).trans (ih (s.install plan))

theorem digipeater?_installAll_of_some (s : Station) (plans : List DigipeaterPlan)
    (id : DigipeaterId) (d : Digipeater) (hd : s.digipeater? id = some d) :
    (s.installAll plans).digipeater? id = some d :=
  getElem?_of_prefix (digipeaters_prefix_installAll s plans) hd

/-! ## One block more -/

section

variable {file : String} {b : Block} (blocks : List Block)

theorem plansOf_cons_error {r : Rejection} (hb : DigipeaterPlan.ofBlock s file b = .error r) :
    plansOf s file (b :: blocks) = plansOf s file blocks := by
  have hplan : b.plan? s file = none := by rw [Block.plan?, hb]; rfl
  rw [plansOf, List.filterMap_cons_none hplan, plansOf]

theorem plansOf_cons_ok {plan : DigipeaterPlan} (hb : DigipeaterPlan.ofBlock s file b = .ok plan) :
    plansOf s file (b :: blocks) = plan :: plansOf s file blocks := by
  have hplan := (plan?_eq_some_iff s file b plan).2 hb
  rw [plansOf, List.filterMap_cons_some hplan, plansOf]

theorem reportOf_cons_error {r : Rejection} (hb : DigipeaterPlan.ofBlock s file b = .error r) :
    reportOf s file (b :: blocks) =
      ⟨(reportOf s file blocks).accepted, r :: (reportOf s file blocks).rejected⟩ := by
  have hrefusal : b.refusal? s file = some r := by rw [Block.refusal?, hb]
  rw [reportOf, plansOf_cons_error blocks hb, List.filterMap_cons_some hrefusal, reportOf]

-- The number of the new digipeater is the first of those that are left.
theorem reportOf_cons_ok {plan : DigipeaterPlan} (hb : DigipeaterPlan.ofBlock s file b = .ok plan) :
    reportOf s file (b :: blocks) =
      ⟨s.nextDigipeater :: (reportOf (s.install plan) file blocks).accepted,
        (reportOf (s.install plan) file blocks).rejected⟩ := by
  have hsame := sameInterfaces_install s plan
  have hrefusal : b.refusal? s file = none := by rw [Block.refusal?, hb]
  rw [reportOf, plansOf_cons_ok blocks hb, List.filterMap_cons_none hrefusal, reportOf,
    plansOf_congr hsame, refusal?_congr hsame, length_digipeaters_install, List.length_cons,
    List.range'_succ, List.map_cons]
  rfl

end

/-- Loading carries out the plans that the blocks have at the start. -/
theorem foldl_loadBlock_eq (h : s.Linked) (file : String) (blocks : List Block)
    (report : LoadReport) :
    blocks.foldl (loadBlock file) (s, report) =
      (s.installAll (plansOf s file blocks), report.followedBy (reportOf s file blocks)) := by
  induction blocks generalizing s report with
  | nil => simp [plansOf, reportOf, installAll, LoadReport.followedBy]
  | cons b blocks ih =>
      rw [List.foldl_cons]
      cases hb : DigipeaterPlan.ofBlock s file b with
      | error r =>
          have hstep : loadBlock file (s, report) b = (s, report.reject r) := by
            simp only [loadBlock, hb]
          rw [hstep, ih h, plansOf_cons_error blocks hb, reportOf_cons_error blocks hb]
          simp only [LoadReport.reject, LoadReport.followedBy, List.append_assoc,
            List.singleton_append]
      | ok plan =>
          have hstep : loadBlock file (s, report) b =
              (s.install plan, report.accept s.nextDigipeater) := by
            simp only [loadBlock, hb, h.commit?_of_ofBlock file b plan hb]
          rw [hstep, ih (h.install_of_ofBlock file b plan hb), plansOf_cons_ok blocks hb,
            reportOf_cons_ok blocks hb, plansOf_congr (sameInterfaces_install s plan)]
          simp only [LoadReport.accept, LoadReport.followedBy, List.append_assoc,
            List.singleton_append]
          rfl

theorem load_eq (h : s.Linked) (file : BlockFile) :
    s.load file =
      (s.installAll (plansOf s file.name (file.blocks digipeaterTag)),
        reportOf s file.name (file.blocks digipeaterTag)) :=
  foldl_loadBlock_eq h file.name (file.blocks digipeaterTag) .empty

end Station

/-- A station that is built from settings carries out the plans of its block
    file. -/
theorem build_of_file (settings : Settings) (file : BlockFile) :
    LoadedStation.build settings file =
      ⟨settings,
        (Station.ofSettings settings).installAll
          (plansOf (.ofSettings settings) file.name (file.blocks Station.digipeaterTag)),
        reportOf (.ofSettings settings) file.name (file.blocks Station.digipeaterTag)⟩ := by
  simp only [LoadedStation.build, Station.load_eq (Station.linked_ofSettings settings)]

/-! ## Every block is accounted for -/

/-- What became of a block that was built against `s`, in a station `t` that
    was made of `s`: a digipeater that the plan of the block describes, or the
    refusal of the block. -/
def BlockOutcome (s t : Station) (file : String) (b : Block) : DigipeaterId ⊕ Rejection → Prop
  | .inl id => ∃ plan sources, DigipeaterPlan.ofBlock s file b = .ok plan ∧
      t.digipeater? id = some (plan.enlist id sources)
  | .inr r => DigipeaterPlan.ofBlock s file b = .error r ∧
      r.file = file ∧ r.line = b.line ∧ r.faults ≠ []

theorem blockOutcome_congr {s s' : Station} (hsame : s.SameInterfaces s') (t : Station)
    (file : String) :
    BlockOutcome s t file = BlockOutcome s' t file := by
  funext b outcome
  cases outcome with
  | inl id => simp only [BlockOutcome, ofBlock_congr hsame]
  | inr r => simp only [BlockOutcome, ofBlock_congr hsame]

/-- The blocks can be paired with what became of them, and the report is that
    list taken apart. -/
theorem exists_outcomes {s : Station} (h : s.Linked) (file : String) (blocks : List Block) :
    ∃ outcomes : List (DigipeaterId ⊕ Rejection),
      List.Forall₂ (BlockOutcome s (s.installAll (plansOf s file blocks)) file) blocks
          outcomes ∧
        reportOf s file blocks =
          ⟨outcomes.filterMap Sum.getLeft?, outcomes.filterMap Sum.getRight?⟩ := by
  induction blocks generalizing s with
  | nil => exact ⟨[], .nil, rfl⟩
  | cons b blocks ih =>
      cases hb : DigipeaterPlan.ofBlock s file b with
      | error r =>
          rcases ih h with ⟨outcomes, hpairs, hreport⟩
          refine ⟨.inr r :: outcomes, ?_, ?_⟩
          · rw [Station.plansOf_cons_error blocks hb]
            exact .cons ⟨hb, refusal_of_ofBlock s file b r hb⟩ hpairs
          · rw [Station.reportOf_cons_error blocks hb, hreport]
            rfl
      | ok plan =>
          have hsame := Station.sameInterfaces_install s plan
          rcases ih (h.install_of_ofBlock file b plan hb) with ⟨outcomes, hpairs, hreport⟩
          rw [blockOutcome_congr hsame, plansOf_congr hsame] at hpairs
          have hnew : (s.install plan).digipeater? s.nextDigipeater =
              some (plan.enlist s.nextDigipeater ((s.newSources plan).map (·.id))) :=
            List.getElem?_concat_length
          have hkept := Station.digipeater?_installAll_of_some _ (plansOf s file blocks) _ _ hnew
          refine ⟨.inl s.nextDigipeater :: outcomes, ?_, ?_⟩
          · rw [Station.plansOf_cons_ok blocks hb]
            exact .cons ⟨plan, _, hb, hkept⟩ hpairs
          · rw [Station.reportOf_cons_ok blocks hb, hreport]
            rfl

/-- The file without the blocks that are refused, and without all nodes that
    are no digipeater blocks. -/
def BlockFile.onlyAccepted (s : Station) (file : BlockFile) : BlockFile :=
  { file with
    nodes := file.nodes.filter fun node =>
      ((node.blockTagged? Station.digipeaterTag).bind (Block.plan? s file.name)).isSome }

theorem plansOf_onlyAccepted (s : Station) (file : BlockFile) :
    plansOf s file.name ((file.onlyAccepted s).blocks Station.digipeaterTag) =
      plansOf s file.name (file.blocks Station.digipeaterTag) := by
  simp only [plansOf, BlockFile.blocks, BlockFile.onlyAccepted, List.filterMap_filterMap,
    List.filterMap_filter]
  refine List.filterMap_congr fun node _ => ?_
  split
  · rfl
  · rename_i hnone
    exact (Option.not_isSome_iff_eq_none.1 hnone).symm

/-- Every digipeater block of a file becomes a digipeater or is refused, and
    the report tells which, in the order of the file. A refused block leaves
    nothing behind, so that the station is the same as without it. This holds
    in every station that can come about, where a plan that was just built is
    always carried out. -/
theorem load_outcomes (mycall : String) (changes : List Change) (file : BlockFile) :
    let s := (Station.empty mycall).grow changes
    let loaded := s.load file
    (∃ outcomes : List (DigipeaterId ⊕ Rejection),
      List.Forall₂ (BlockOutcome s loaded.1 file.name) (file.blocks Station.digipeaterTag)
          outcomes ∧
        loaded.2.accepted = outcomes.filterMap Sum.getLeft? ∧
        loaded.2.rejected = outcomes.filterMap Sum.getRight?) ∧
      loaded.2.accepted =
        (List.range' s.digipeaters.length loaded.2.accepted.length).map DigipeaterId.mk ∧
      loaded.1 = (s.load (file.onlyAccepted s)).1 ∧
      ∀ name b plan, DigipeaterPlan.ofBlock s name b = .ok plan →
        s.commit? plan = some (s.nextDigipeater, s.install plan) := by
  intro s loaded
  have h : s.Linked := Station.linked_grow (Station.linked_empty mycall) changes
  have hload : loaded = _ := Station.load_eq h file
  refine ⟨?_, ?_, ?_, h.commit?_of_ofBlock⟩
  · rcases exists_outcomes h file.name (file.blocks Station.digipeaterTag) with
      ⟨outcomes, hpairs, hreport⟩
    rw [hload, hreport]
    exact ⟨outcomes, hpairs, rfl, rfl⟩
  · rw [hload]
    simp only [reportOf, List.length_map, List.length_range']
  · rw [hload, Station.load_eq h (file.onlyAccepted s), ← plansOf_onlyAccepted s file]
    rfl

end AprsRelay
