import AprsRelay.BlockFile.Reader
import AprsRelay.Proofs.BlockFile.Lines
import AprsRelay.Proofs.BlockFile.Nesting

/-!
# The Reader Finds the Faithful Forest

A text stands for one forest only, and the reader finds it. Both halves follow
the reader line by line. For the one, a faithful forest is given, and the
reader is shown to rebuild it: the lines of a forest without open blocks add
that forest to the innermost body and leave everything else alone. For the
other, what has been read so far is kept track of: the open blocks and the
innermost body, written out from the outside in, are the lines up to here.

## Main definitions

* `Reading.innermost?`: The tag of the innermost open block.
* `Reading.adjoin`: The reader with further nodes in the innermost body.
* `Reading.Reflects`: What the reader has kept of the lines so far.

## Theorems

* `step_cases`: The three effects that a line can have.
* `run_of_closed`, `finish_run`: The lines of a forest build that forest.
* `reflects_step`, `reflects_run`: Nothing that was read is lost.
* `faithful_finish`, `faithful_run`: What was kept makes a faithful forest in
  the end.
* `faithful_iff_eq_read`: The reader finds the only faithful forest.
-/

namespace AprsRelay

namespace LineRole

theorem ofName_opening_iff_word (name tag : String) :
    ofName name = opening tag ↔ IsTag tag ∧ name = openingWord tag := by
  have hword : (openingWord tag).toList = '<' :: (tag.toList ++ ['>']) := by
    simp [openingWord]
  rw [ofName_opening_iff, ← hword, String.toList_inj, and_comm]
  rfl

theorem ofName_closing_iff_word (name tag : String) :
    ofName name = closing tag ↔ name = closingWord tag := by
  have hword : (closingWord tag).toList = '<' :: '/' :: (tag.toList ++ ['>']) := by
    simp [closingWord]
  rw [ofName_closing_iff, ← hword, String.toList_inj]

end LineRole

namespace Reading

/-- The tag of the innermost open block. -/
def innermost? (r : Reading) : Option String :=
  r.enclosing.head?.map OpenBlock.tag

/-- The reader with further nodes in the innermost body. -/
def adjoin (r : Reading) (forest : List Node) : Reading :=
  ⟨r.here ++ forest, r.enclosing⟩

@[simp]
theorem adjoin_nil (r : Reading) : r.adjoin [] = r := by
  rw [adjoin, List.append_nil]

theorem adjoin_append (r : Reading) (a b : List Node) :
    r.adjoin (a ++ b) = (r.adjoin a).adjoin b := by
  simp only [adjoin, List.append_assoc]

theorem step_opening (r : Reading) (l : Line) (tag : String) (htag : IsTag tag)
    (hname : l.name = openingWord tag) : r.step l = r.enter l.number tag := by
  rw [step, (LineRole.ofName_opening_iff_word l.name tag).2 ⟨htag, hname⟩]

theorem step_closing (here : List Node) (b : OpenBlock) (outer : List OpenBlock) (l : Line)
    (hname : l.name = closingWord b.tag) :
    (⟨here, b :: outer⟩ : Reading).step l = ⟨b.finish true here, outer⟩ := by
  rw [step, (LineRole.ofName_closing_iff_word l.name b.tag).2 hname]
  simp only [leave?, if_true, Option.getD_some]

theorem step_statement (r : Reading) (l : Line)
    (hopening : ∀ tag, IsTag tag → l.name ≠ openingWord tag)
    (hclosing : ∀ tag, r.innermost? = some tag → l.name ≠ closingWord tag) :
    r.step l = r.add l := by
  rw [step]
  cases hrole : LineRole.ofName l.name with
  | opening tag =>
      rcases (LineRole.ofName_opening_iff_word l.name tag).1 hrole with ⟨htag, hname⟩
      exact absurd hname (hopening tag htag)
  | closing tag =>
      have hname := (LineRole.ofName_closing_iff_word l.name tag).1 hrole
      have hstay : r.leave? tag = none := by
        rcases r with ⟨here, enclosing⟩
        cases enclosing with
        | nil => rfl
        | cons b outer =>
            refine if_neg fun htag => ?_
            exact hclosing b.tag rfl (by rw [htag]; exact hname)
      simp only [hstay, Option.getD_none]
  | plain => rfl

/-- The three effects that a line can have. -/
theorem step_cases (r : Reading) (l : Line) :
    (∃ tag, IsTag tag ∧ l.name = openingWord tag ∧ r.step l = r.enter l.number tag) ∨
    (∃ b outer, r.enclosing = b :: outer ∧ l.name = closingWord b.tag ∧
      r.step l = ⟨b.finish true r.here, outer⟩) ∨
    ((∀ tag, IsTag tag → l.name ≠ openingWord tag) ∧
      (∀ tag, r.innermost? = some tag → l.name ≠ closingWord tag) ∧ r.step l = r.add l) := by
  by_cases hopening : ∃ tag, IsTag tag ∧ l.name = openingWord tag
  · rcases hopening with ⟨tag, htag, hname⟩
    exact .inl ⟨tag, htag, hname, step_opening r l tag htag hname⟩
  by_cases hclosing : ∃ tag, r.innermost? = some tag ∧ l.name = closingWord tag
  · rcases hclosing with ⟨tag, hinnermost, hname⟩
    rcases r with ⟨here, enclosing⟩
    cases enclosing with
    | nil => cases hinnermost
    | cons b outer =>
        have htag : b.tag = tag := Option.some.inj hinnermost
        rw [← htag] at hname
        exact .inr (.inl ⟨b, outer, rfl, hname, step_closing here b outer l hname⟩)
  · have hopens : ∀ tag, IsTag tag → l.name ≠ openingWord tag :=
      fun tag htag hname => hopening ⟨tag, htag, hname⟩
    have hcloses : ∀ tag, r.innermost? = some tag → l.name ≠ closingWord tag :=
      fun tag hinnermost hname => hclosing ⟨tag, hinnermost, hname⟩
    exact .inr (.inr ⟨hopens, hcloses, step_statement r l hopens hcloses⟩)

end Reading

/-! ## A faithful forest is rebuilt -/

-- Lines that were written one after the other can be taken apart again.
theorem standsOn_append (a b : List Mark) (lines : List Line)
    (h : List.Forall₂ Mark.StandsOn (a ++ b) lines) :
    ∃ la lb, lines = la ++ lb ∧ List.Forall₂ Mark.StandsOn a la ∧
      List.Forall₂ Mark.StandsOn b lb := by
  induction a generalizing lines with
  | nil => exact ⟨[], lines, rfl, .nil, h⟩
  | cons mark a ih =>
      cases h with
      | cons hmark hrest =>
          rcases ih _ hrest with ⟨la, lb, rfl, hla, hlb⟩
          exact ⟨_ :: la, lb, rfl, .cons hmark hla, hlb⟩

namespace Reading

-- The line of a statement adds it to the innermost body.
theorem step_of_statement (r : Reading) (s : Statement) (l : Line)
    (hmark : (Mark.statement s).StandsOn l) (htagged : (Node.statement s).WellTagged r.innermost?) :
    r.step l = r.adjoin [.statement s] := by
  rcases s with ⟨line, name, args⟩
  rcases l with ⟨number, word, others⟩
  rcases hmark with ⟨rfl, rfl, rfl⟩
  exact step_statement r _ htagged.1 htagged.2

/-- The lines of a forest without open blocks add that forest to the innermost
    body, and leave the blocks around it as they are. -/
theorem run_of_closed (forest : List Node) (r : Reading) (lines : List Line)
    (hwritten : List.Forall₂ Mark.StandsOn (marksAll forest) lines)
    (htagged : WellTaggedAll r.innermost? forest) (hended : EndsProperlyAll false forest) :
    r.run lines = r.adjoin forest := by
  induction forest using forest_induction generalizing r lines with
  | nil =>
      cases hwritten
      rw [run_nil, adjoin_nil]
  | statement s nodes ih =>
      rcases List.forall₂_cons_left_iff.1 hwritten with ⟨l, rest, hmark, hrest, rfl⟩
      rw [run_cons, step_of_statement r s l hmark htagged.1,
        ih (r.adjoin [.statement s]) rest hrest htagged.2 hended.2, ← adjoin_append,
        List.singleton_append]
  | block heading body nodes hbody hnodes =>
      rcases heading with ⟨line, tag, closed⟩
      rcases htagged with ⟨⟨htag, htaggedBody⟩, htaggedNodes⟩
      rcases hended with ⟨⟨hclosed, hendedBody⟩, hendedNodes⟩
      cases closed with
      | false => exact absurd (hclosed rfl).2 Bool.false_ne_true
      | true =>
          -- The lines are the opening word, those of the body, the closing word, and the rest.
          rw [marksAll, Node.marks, List.cons_append, List.append_assoc] at hwritten
          rcases List.forall₂_cons_left_iff.1 hwritten with ⟨l, _, hopening, htail, rfl⟩
          rcases standsOn_append _ _ _ htail with ⟨inner, _, rfl, hinner, hafter⟩
          rcases List.forall₂_cons_left_iff.1 hafter with ⟨l', rest, hclosing, hrest, rfl⟩
          rcases hopening with ⟨rfl, hopening⟩
          have hleave : ((r.enter l.number tag).adjoin body).step l' =
              r.adjoin [.block ⟨l.number, tag, true⟩ body] :=
            step_closing body ⟨l.number, tag, r.here⟩ r.enclosing l' hclosing.symm
          rw [run_cons, step_opening r l tag htag hopening.symm, run_append,
            hbody (r.enter l.number tag) inner hinner htaggedBody hendedBody, run_cons, hleave,
            hnodes (r.adjoin _) rest hrest htaggedNodes hendedNodes, ← adjoin_append,
            List.singleton_append]

/-- When all blocks around it stay open too, the lines of any forest build that
    forest in the end. -/
theorem finish_run (forest : List Node) (r : Reading) (lines : List Line)
    (hwritten : List.Forall₂ Mark.StandsOn (marksAll forest) lines)
    (htagged : WellTaggedAll r.innermost? forest) (hended : EndsProperlyAll true forest) :
    (r.run lines).finish = (r.adjoin forest).finish := by
  induction forest using forest_induction generalizing r lines with
  | nil =>
      cases hwritten
      rw [run_nil, adjoin_nil]
  | statement s nodes ih =>
      rcases List.forall₂_cons_left_iff.1 hwritten with ⟨l, rest, hmark, hrest, rfl⟩
      rw [run_cons, step_of_statement r s l hmark htagged.1,
        ih (r.adjoin [.statement s]) rest hrest htagged.2 hended.2, ← adjoin_append,
        List.singleton_append]
  | block heading body nodes hbody hnodes =>
      rcases heading with ⟨line, tag, closed⟩
      rcases hended with ⟨hendedBlock, hendedNodes⟩
      cases closed with
      | true =>
          -- A closed block is read like any forest without open blocks.
          have hblock : EndsProperlyAll false [.block ⟨line, tag, true⟩ body] :=
            ⟨⟨fun h => absurd h.symm Bool.false_ne_true, hendedBlock.2⟩, trivial⟩
          rw [← List.singleton_append, marksAll_append] at hwritten
          rcases standsOn_append _ _ _ hwritten with ⟨first, rest, rfl, hfirst, hrest⟩
          rw [run_append, run_of_closed _ r first hfirst ⟨htagged.1, trivial⟩ hblock,
            hnodes (r.adjoin _) rest hrest htagged.2 hendedNodes, ← adjoin_append,
            List.singleton_append]
      | false =>
          -- An open block is the last one, so the lines after the first are those of its body.
          have hlast : nodes = [] := List.isEmpty_iff.1 (hendedBlock.1 rfl).1
          subst hlast
          rw [marksAll, Node.marks, List.cons_append, Heading.closingMarks, List.append_assoc]
            at hwritten
          rcases List.forall₂_cons_left_iff.1 hwritten with ⟨l, inner, hopening, hinner, rfl⟩
          rcases hopening with ⟨rfl, hopening⟩
          rw [if_neg Bool.false_ne_true, List.nil_append, marksAll, List.append_nil] at hinner
          rw [run_cons, step_opening r l tag htagged.1.1 hopening.symm,
            hbody (r.enter l.number tag) inner hinner htagged.1.2 hendedBlock.2]
          rfl

end Reading

/-! ## What the reader finds is faithful -/

-- One more mark stands on one more line.
theorem standsOn_concat (marks : List Mark) (lines : List Line) (mark : Mark) (l : Line)
    (h : List.Forall₂ Mark.StandsOn marks lines) (hmark : mark.StandsOn l) :
    List.Forall₂ Mark.StandsOn (marks ++ [mark]) (lines ++ [l]) :=
  List.rel_append h (.cons hmark .nil)

/-- The open blocks line by line, from the outside in, each with the nodes
    that stand before it and without its own body. -/
def openMarks : List OpenBlock → List Mark
  | [] => []
  | b :: outer => openMarks outer ++ (marksAll b.before ++ [.opening b.line b.tag])

/-- Open blocks have tags, and the nodes before them are well tagged, with no
    open block among them. -/
def OpenBlocksSound : List OpenBlock → Prop
  | [] => True
  | b :: outer =>
    IsTag b.tag ∧ WellTaggedAll (outer.head?.map OpenBlock.tag) b.before ∧
      EndsProperlyAll false b.before ∧ OpenBlocksSound outer

namespace Reading

/-- What the reader has kept are the lines so far. Nothing is known yet of the
    lines behind them, so only the innermost body and the open blocks around it
    may go on. -/
structure Reflects (r : Reading) (lines : List Line) : Prop where
  written : List.Forall₂ Mark.StandsOn (openMarks r.enclosing ++ marksAll r.here) lines
  sound : OpenBlocksSound r.enclosing
  tagged : WellTaggedAll r.innermost? r.here
  ended : EndsProperlyAll false r.here

theorem reflects_start : start.Reflects [] :=
  ⟨.nil, trivial, trivial, trivial⟩

theorem reflects_add (r : Reading) (lines : List Line) (l : Line) (h : r.Reflects lines)
    (hopening : ∀ tag, IsTag tag → l.name ≠ openingWord tag)
    (hclosing : ∀ tag, r.innermost? = some tag → l.name ≠ closingWord tag) :
    (r.add l).Reflects (lines ++ [l]) where
  written := by
    rw [add, marksAll_append, ← List.append_assoc]
    exact standsOn_concat _ lines _ l h.written ⟨rfl, rfl, rfl⟩
  sound := h.sound
  tagged := (wellTaggedAll_append _ _ _).2 ⟨h.tagged, ⟨hopening, hclosing⟩, trivial⟩
  ended := (endsProperlyAll_append _ _).2 ⟨h.ended, trivial, trivial⟩

theorem reflects_enter (r : Reading) (lines : List Line) (l : Line) (tag : String)
    (h : r.Reflects lines) (htag : IsTag tag) (hname : l.name = openingWord tag) :
    (r.enter l.number tag).Reflects (lines ++ [l]) where
  written := by
    rw [enter, openMarks, marksAll, List.append_nil, ← List.append_assoc]
    exact standsOn_concat _ lines _ l h.written ⟨rfl, hname.symm⟩
  sound := ⟨htag, h.tagged, h.ended, h.sound⟩
  tagged := trivial
  ended := trivial

theorem reflects_leave (here : List Node) (b : OpenBlock) (outer : List OpenBlock)
    (lines : List Line) (l : Line) (h : (⟨here, b :: outer⟩ : Reading).Reflects lines)
    (hname : l.name = closingWord b.tag) :
    (⟨b.finish true here, outer⟩ : Reading).Reflects (lines ++ [l]) := by
  rcases h with ⟨hwritten, ⟨htag, htaggedBefore, hendedBefore, hsound⟩, htagged, hended⟩
  refine ⟨?_, hsound, ?_, ?_⟩
  · -- The marks of the block were there already, apart from the closing word.
    have hmarks : openMarks outer ++ marksAll (b.finish true here) =
        (openMarks (b :: outer) ++ marksAll here) ++ [.closing b.tag] := by
      simp [OpenBlock.finish, marksAll_append, marksAll, Node.marks, openMarks,
        Heading.closingMarks]
    rw [hmarks]
    exact standsOn_concat _ lines _ l hwritten hname.symm
  · exact (wellTaggedAll_append _ _ _).2 ⟨htaggedBefore, ⟨htag, htagged⟩, trivial⟩
  · refine (endsProperlyAll_append _ _).2 ⟨hendedBefore, ⟨?_, hended⟩, trivial⟩
    exact fun hopen => absurd hopen.symm Bool.false_ne_true

/-- No line is lost. -/
theorem reflects_step (r : Reading) (lines : List Line) (l : Line) (h : r.Reflects lines) :
    (r.step l).Reflects (lines ++ [l]) := by
  rcases step_cases r l with
    ⟨tag, htag, hname, hstep⟩ | ⟨b, outer, henclosing, hname, hstep⟩ |
      ⟨hopening, hclosing, hstep⟩
  · rw [hstep]
    exact reflects_enter r lines l tag h htag hname
  · rcases r with ⟨here, enclosing⟩
    simp only at henclosing
    subst henclosing
    rw [hstep]
    exact reflects_leave here b outer lines l h hname
  · rw [hstep]
    exact reflects_add r lines l h hopening hclosing

-- So no lines are.
theorem reflects_run (r : Reading) (before lines : List Line) (h : r.Reflects before) :
    (r.run lines).Reflects (before ++ lines) := by
  induction lines generalizing r before with
  | nil =>
      rw [run_nil, List.append_nil]
      exact h
  | cons l lines ih =>
      rw [run_cons, List.append_cons]
      exact ih (r.step l) (before ++ [l]) (reflects_step r before l h)

/-- Ending the blocks that are still open, from the inside out, makes a
    faithful forest. -/
theorem faithful_finish (enclosing : List OpenBlock) (here : List Node) (lines : List Line)
    (hwritten : List.Forall₂ Mark.StandsOn (openMarks enclosing ++ marksAll here) lines)
    (hsound : OpenBlocksSound enclosing)
    (htagged : WellTaggedAll (⟨here, enclosing⟩ : Reading).innermost? here)
    (hended : EndsProperlyAll true here) :
    Faithful lines (⟨here, enclosing⟩ : Reading).finish := by
  induction enclosing generalizing here with
  | nil => exact ⟨hwritten, htagged, hended⟩
  | cons b outer ih =>
      rcases hsound with ⟨htag, htaggedBefore, hendedBefore, hsound⟩
      have hmarks : openMarks outer ++ marksAll (b.finish false here) =
          openMarks (b :: outer) ++ marksAll here := by
        simp [OpenBlock.finish, marksAll_append, marksAll, Node.marks, openMarks,
          Heading.closingMarks]
      have hblock : (Node.block ⟨b.line, b.tag, false⟩ here).EndsProperly true true :=
        ⟨fun _ => ⟨rfl, rfl⟩, hended⟩
      refine ih (b.finish false here) ?_ hsound ?_ ?_
      · rw [hmarks]
        exact hwritten
      · exact (wellTaggedAll_append _ _ _).2 ⟨htaggedBefore, ⟨htag, htagged⟩, trivial⟩
      · exact endsProperlyAll_concat true b.before _ hendedBefore hblock

/-- What is read from some lines is a forest that they may stand for. -/
theorem faithful_run (lines : List Line) : Faithful lines (start.run lines).finish := by
  have h := reflects_run start [] lines reflects_start
  rw [List.nil_append] at h
  exact faithful_finish _ _ _ h.written h.sound h.tagged
    (endsProperlyAll_of_closed true _ h.ended)

end Reading

namespace BlockFile

-- So is what is read from a text.
theorem faithful_readNodes (text : String) : Faithful (fileLines text) (readNodes text) := by
  rw [readNodes, significantLines_eq]
  exact Reading.faithful_run _

-- Every mark stands on a line.
theorem exists_line_of_mem_marks (marks : List Mark) (lines : List Line)
    (h : List.Forall₂ Mark.StandsOn marks lines) (mark : Mark) (hmark : mark ∈ marks) :
    ∃ l ∈ lines, mark.StandsOn l := by
  induction h with
  | nil => exact absurd hmark List.not_mem_nil
  | @cons first l marks lines hfirst _ ih =>
      rcases List.mem_cons.1 hmark with rfl | hmark
      · exact ⟨l, List.mem_cons_self, hfirst⟩
      · rcases ih hmark with ⟨l', hl', hstands⟩
        exact ⟨l', List.mem_cons_of_mem _ hl', hstands⟩

-- A statement inside an outermost block has the arguments of its line.
theorem exists_line_of_statement (text : String) (heading : Heading) (body : List Node)
    (hblock : .block heading body ∈ readNodes text) (s : Statement) (hs : .statement s ∈ body) :
    ∃ l ∈ fileLines text, s.args = l.args := by
  have hmark : .statement s ∈ marksAll (readNodes text) := by
    refine marks_subset_marksAll _ _ hblock (List.mem_cons_of_mem _ (List.mem_append_left _ ?_))
    exact marks_subset_marksAll body _ hs List.mem_cons_self
  rcases exists_line_of_mem_marks _ _ (faithful_readNodes text).written _ hmark with
    ⟨l, hl, -, -, hargs⟩
  exact ⟨l, hl, hargs⟩

/-- The reader finds the only forest that the lines of a text may stand for,
    and its nodes start on ascending lines. -/
theorem faithful_iff_eq_read (name text : String) :
    (∀ forest, Faithful (fileLines text) forest ↔ forest = (read name text).nodes) ∧
      (outlineLines (read name text).nodes).Pairwise (· < ·) := by
  refine ⟨fun forest => ⟨fun h => ?_, fun h => ?_⟩, ?_⟩
  · have hrun := Reading.finish_run forest .start (fileLines text) h.written h.tagged h.ended
    rw [read, readNodes, significantLines_eq, hrun]
    rfl
  · rw [h]
    exact faithful_readNodes text
  · exact pairwise_outlineLines _ _ (faithful_readNodes text) (pairwise_number_fileLines text)

end BlockFile

end AprsRelay
