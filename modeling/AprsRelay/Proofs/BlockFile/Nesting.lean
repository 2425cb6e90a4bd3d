import Mathlib.Data.List.Forall2
import AprsRelay.BlockFile.Line
import AprsRelay.BlockFile.Node

/-!
# Forests as They Are Written

A forest can be written down line by line: a statement takes one line, and a
block takes one for its opening word, those of its body, and one for its
closing word if that was found. A file stands for a forest when its lines are
those of the forest, read in order, and when no other way of nesting them was
called for: every word that could open or close a block there does so, and
only blocks that nothing follows are left open.

## Main definitions

* `Mark`: What a forest asks of one line.
* `marksAll`: A forest line by line.
* `Mark.StandsOn`: A line that is as it is asked for.
* `WellTaggedAll`: Words that could open or close a block do so.
* `EndsProperlyAll`: Only blocks that run to the end of the file are open.
* `Faithful`: The forests that a sequence of lines may stand for.
* `outlineLines`: The lines on which the nodes of a forest start.

## Theorems

* `forest_induction`: Induction over a forest and the bodies in it.
* `marksAll_append`, `wellTaggedAll_append`, `endsProperlyAll_append`,
  `endsProperlyAll_concat`: Forests side by side.
* `outlineLines_block`, `outlineLines_subset`: The lines on which the nodes of a
  block start.
* `pairwise_outlineLines`: Nodes start on ascending lines.
-/

namespace AprsRelay

/-- A text that can be the tag of a block. -/
def IsTag (tag : String) : Prop :=
  tag ≠ "" ∧ tag.toList.head? ≠ some '/'

/-- The word that opens a block. -/
def openingWord (tag : String) : String :=
  "<" ++ tag ++ ">"

/-- The word that closes a block. -/
def closingWord (tag : String) : String :=
  "</" ++ tag ++ ">"

/-- What a forest asks of one line: a statement, or a word that opens or closes
    a block. -/
inductive Mark where
  | statement (s : Statement)
  | opening (line : Nat) (tag : String)
  | closing (tag : String)

namespace Mark

/-- A line is as it is asked for. A statement accounts for all words of its
    line; behind a word that opens or closes a block anything may follow. -/
def StandsOn : Mark → Line → Prop
  | statement s, l => s.line = l.number ∧ s.name = l.name ∧ s.args = l.args
  | opening line tag, l => line = l.number ∧ openingWord tag = l.name
  | closing tag, l => closingWord tag = l.name

/-- The line of the node that starts here, if one does. -/
def line? : Mark → Option Nat
  | statement s => some s.line
  | opening line _ => some line
  | closing _ => none

end Mark

/-- A block is closed by a line of its own, or not at all. -/
def Heading.closingMarks (heading : Heading) : List Mark :=
  if heading.closed then [.closing heading.tag] else []

mutual

/-- A node line by line. -/
def Node.marks : Node → List Mark
  | .statement s => [.statement s]
  | .block heading body =>
    .opening heading.line heading.tag :: (marksAll body ++ heading.closingMarks)

/-- A forest line by line. -/
def marksAll : List Node → List Mark
  | [] => []
  | node :: nodes => node.marks ++ marksAll nodes

end

mutual

/-- Inside a block with the tag `around`, or outside of all blocks, no
    statement is a word that opens a block or closes that one, and every block
    has a tag. -/
def Node.WellTagged (around : Option String) : Node → Prop
  | .statement s =>
    (∀ tag, IsTag tag → s.name ≠ openingWord tag) ∧
      ∀ tag, around = some tag → s.name ≠ closingWord tag
  | .block heading body => IsTag heading.tag ∧ WellTaggedAll (some heading.tag) body

/-- The same for a forest. -/
def WellTaggedAll (around : Option String) : List Node → Prop
  | [] => True
  | node :: nodes => node.WellTagged around ∧ WellTaggedAll around nodes

end

mutual

/-- A block that is not closed is the last node around it, and no block around
    it is closed. -/
def Node.EndsProperly (allOpen last : Bool) : Node → Prop
  | .statement _ => True
  | .block heading body =>
    (heading.closed = false → last = true ∧ allOpen = true) ∧
      EndsProperlyAll (allOpen && !heading.closed) body

/-- The same for a forest. -/
def EndsProperlyAll (allOpen : Bool) : List Node → Prop
  | [] => True
  | node :: nodes => node.EndsProperly allOpen nodes.isEmpty ∧ EndsProperlyAll allOpen nodes

end

/-- The forests that a sequence of lines may stand for. -/
structure Faithful (lines : List Line) (forest : List Node) : Prop where
  /-- The lines are those of the forest, in order. -/
  written : List.Forall₂ Mark.StandsOn (marksAll forest) lines
  /-- Blocks have tags, and no statement could have been a block or its end. -/
  tagged : WellTaggedAll none forest
  /-- Blocks without an end run to the end of the file. -/
  ended : EndsProperlyAll true forest

/-- The lines on which the nodes of a forest start, in reading order. -/
def outlineLines (forest : List Node) : List Nat :=
  (outlineAll 0 forest).map fun entry => entry.2.elim Statement.line Heading.line

/-- Induction over a forest, with the body of every block as another forest. -/
theorem forest_induction {motive : List Node → Prop} (nil : motive [])
    (statement : ∀ s nodes, motive nodes → motive (.statement s :: nodes))
    (block : ∀ heading body nodes, motive body → motive nodes →
      motive (.block heading body :: nodes)) : ∀ forest, motive forest
  | [] => nil
  | .statement s :: nodes => statement s nodes (forest_induction nil statement block nodes)
  | .block heading body :: nodes =>
    block heading body nodes (forest_induction nil statement block body)
      (forest_induction nil statement block nodes)

theorem marksAll_append (a b : List Node) : marksAll (a ++ b) = marksAll a ++ marksAll b := by
  induction a with
  | nil => rfl
  | cons node nodes ih => rw [List.cons_append, marksAll, ih, marksAll, List.append_assoc]

-- The marks of a node are among those of every forest with this node.
theorem marks_subset_marksAll (nodes : List Node) (node : Node) (hnode : node ∈ nodes) :
    node.marks ⊆ marksAll nodes := by
  rcases List.append_of_mem hnode with ⟨before, after, rfl⟩
  rw [marksAll_append, marksAll]
  exact List.Subset.trans (List.subset_append_left _ _) (List.subset_append_right _ _)

theorem wellTaggedAll_append (around : Option String) (a b : List Node) :
    WellTaggedAll around (a ++ b) ↔ WellTaggedAll around a ∧ WellTaggedAll around b := by
  induction a with
  | nil => simp [WellTaggedAll]
  | cons node nodes ih => rw [List.cons_append, WellTaggedAll, ih, WellTaggedAll, and_assoc]

-- Where a block around is closed, every block is, and it does not matter which
-- of them is the last.
theorem endsProperly_of_closed (allOpen last last' : Bool) (node : Node)
    (h : node.EndsProperly false last) : node.EndsProperly allOpen last' := by
  cases node with
  | statement s => exact trivial
  | block heading body =>
      rcases h with ⟨hclosed, hbody⟩
      cases hheading : heading.closed with
      | false => exact absurd (hclosed hheading).2 Bool.false_ne_true
      | true =>
          rw [hheading] at hbody
          refine ⟨fun hopen => ?_, ?_⟩
          · rw [hheading] at hopen
            exact absurd hopen.symm Bool.false_ne_true
          · rw [hheading, Bool.not_true, Bool.and_false]
            exact hbody

theorem endsProperlyAll_of_closed (allOpen : Bool) (nodes : List Node)
    (h : EndsProperlyAll false nodes) : EndsProperlyAll allOpen nodes := by
  induction nodes with
  | nil => exact trivial
  | cons node nodes ih => exact ⟨endsProperly_of_closed _ _ _ node h.1, ih h.2⟩

theorem endsProperlyAll_append (a b : List Node) :
    EndsProperlyAll false (a ++ b) ↔ EndsProperlyAll false a ∧ EndsProperlyAll false b := by
  induction a with
  | nil => simp [EndsProperlyAll]
  | cons node nodes ih =>
      have hlast : node.EndsProperly false (nodes ++ b).isEmpty ↔
          node.EndsProperly false nodes.isEmpty :=
        ⟨endsProperly_of_closed _ _ _ node, endsProperly_of_closed _ _ _ node⟩
      rw [List.cons_append, EndsProperlyAll, ih, hlast, EndsProperlyAll, and_assoc]

/-- Behind closed blocks the last node may be open, as far as it may be open
    alone. -/
theorem endsProperlyAll_concat (allOpen : Bool) (nodes : List Node) (node : Node)
    (hnodes : EndsProperlyAll false nodes) (hnode : node.EndsProperly allOpen true) :
    EndsProperlyAll allOpen (nodes ++ [node]) := by
  induction nodes with
  | nil => exact ⟨hnode, trivial⟩
  | cons first rest ih =>
      rcases hnodes with ⟨hfirst, hrest⟩
      exact ⟨endsProperly_of_closed _ _ _ first hfirst, ih hrest⟩

-- The nodes in reading order start where their marks are.
theorem filterMap_line?_marksAll (forest : List Node) (depth : Nat) :
    (marksAll forest).filterMap Mark.line? =
      (outlineAll depth forest).map fun entry => entry.2.elim Statement.line Heading.line := by
  induction forest using forest_induction generalizing depth with
  | nil => rfl
  | statement s nodes ih =>
      rw [marksAll, Node.marks, outlineAll, Node.outline, List.filterMap_append, List.map_append,
        ih depth]
      rfl
  | block heading body nodes hbody hnodes =>
      have hclosing : heading.closingMarks.filterMap Mark.line? = [] := by
        unfold Heading.closingMarks
        split <;> rfl
      rw [marksAll, Node.marks, outlineAll, Node.outline, List.filterMap_append, List.map_append,
        hnodes depth, List.filterMap_cons, List.filterMap_append, hclosing, List.append_nil,
        hbody (depth + 1), List.map_cons]
      rfl

/-- A block starts on its own line, and then come the nodes inside. -/
theorem outlineLines_block (heading : Heading) (body : List Node) :
    outlineLines [.block heading body] = heading.line :: outlineLines body := by
  unfold outlineLines
  rw [outlineAll, outlineAll, Node.outline, List.append_nil, List.map_cons,
    ← filterMap_line?_marksAll body 1, filterMap_line?_marksAll body 0]
  rfl

-- The line of a node is among those of every forest with this node.
theorem outlineLines_subset (body : List Node) (node : Node) (hnode : node ∈ body) :
    outlineLines [node] ⊆ outlineLines body := by
  rcases List.append_of_mem hnode with ⟨before, after, rfl⟩
  unfold outlineLines
  rw [List.append_cons, outlineAll_append, outlineAll_append, List.map_append, List.map_append]
  exact List.Subset.trans (List.subset_append_right _ _) (List.subset_append_left _ _)

-- A node starts on its own line.
theorem line_mem_outlineLines (node : Node) : node.line ∈ outlineLines [node] := by
  cases node with
  | statement s => exact List.mem_singleton.2 rfl
  | block heading body =>
      rw [outlineLines_block]
      exact List.mem_cons_self

-- The marks at which nodes start stand on lines of their own.
theorem filterMap_line?_sublist (marks : List Mark) (lines : List Line)
    (h : List.Forall₂ Mark.StandsOn marks lines) :
    (marks.filterMap Mark.line?).Sublist (lines.map Line.number) := by
  induction h with
  | nil => exact .slnil
  | @cons mark l marks lines hmark _ ih =>
      cases mark with
      | statement s =>
          simp only [List.filterMap_cons, Mark.line?, List.map_cons, hmark.1]
          exact ih.cons_cons l.number
      | opening line tag =>
          simp only [List.filterMap_cons, Mark.line?, List.map_cons, hmark.1]
          exact ih.cons_cons l.number
      | closing tag => exact ih.cons l.number

/-- In reading order, the nodes of a forest start on ascending lines. -/
theorem pairwise_outlineLines (lines : List Line) (forest : List Node)
    (h : Faithful lines forest) (hlines : (lines.map Line.number).Pairwise (· < ·)) :
    (outlineLines forest).Pairwise (· < ·) := by
  rw [outlineLines, ← filterMap_line?_marksAll forest 0]
  exact hlines.sublist (filterMap_line?_sublist _ _ h.written)

end AprsRelay
