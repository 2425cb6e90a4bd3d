import AprsRelay.Proofs.BlockFile.Alike
import AprsRelay.Proofs.BlockFile.Faithful

/-!
# Files in Two Parts

A text that goes on behind the end of a line is read in two parts. The lines of
the second part are those that it has alone, with higher numbers, and the
reader takes them up where it stood after the first part.

Where it stood matters. If no block was open, the second part is read as if it
were a file of its own, and its nodes go behind those of the first part. If a
block was open, the lines that follow go into that block, and nothing can be
said of it. But the nodes in front of the outermost open block are settled,
because the reader never touches them again. Everything else that the first
part has alone is in one last block, which is not closed.

## Main definitions

* `Line.moved`, `Node.moved`, `movedAll`: The same with higher line numbers.
* `Likeness.further`: What a text further down in a file differs in.
* `headings`: The headings of all blocks of a forest.
* `Reading.settled`: The nodes that no line can change.

## Theorems

* `significantLines_append`: The lines of a text in two parts.
* `forall₂_alike_further_iff`: Nodes further down are alike, and no others are.
* `finish_run_moved`: The reader does not look at line numbers.
* `finish_run_beside`: Outside of all blocks reading starts afresh.
* `readNodes_append`: The nodes of two parts, the first without open blocks.
* `settled_prefix_run`, `finish_eq_settled_append`: What is settled stays, and
  only an open block does not.
-/

namespace AprsRelay

/-! ## Lines -/

/-- A line further down in a file. -/
def Line.moved (k : Nat) (l : Line) : Line :=
  { l with number := l.number + k }

theorem length_splitOn {α : Type} [DecidableEq α] (sep : α) (xs : List α) :
    (xs.splitOn sep).length = xs.count sep + 1 := by
  induction xs with
  | nil => rfl
  | cons x xs ih =>
      rw [List.splitOn_cons_eq_if_modifyHead, List.count_cons]
      by_cases hx : (x == sep) = true
      · rw [if_pos hx, if_pos hx, List.length_cons, ih]
      · rw [if_neg hx, if_neg hx, List.length_modifyHead, ih, Nat.add_zero]

/-- The significant lines among numbered pieces of a text. -/
def linesOf (pieces : List (List Char × Nat)) : List Line :=
  pieces.filterMap fun (cs, number) => Line.ofWords? number (Text.words cs)

theorem ofWords?_add (number k : Nat) (words : List (List Char)) :
    Line.ofWords? (number + k) words = (Line.ofWords? number words).map (Line.moved k) := by
  cases words with
  | nil => rfl
  | cons first others =>
      simp only [Line.ofWords?]
      split <;> rfl

-- Pieces with higher numbers are lines further down.
theorem linesOf_zipIdx_add (pieces : List (List Char)) (first k : Nat) :
    linesOf (pieces.zipIdx (k + first)) = (linesOf (pieces.zipIdx first)).map (Line.moved k) := by
  rw [← List.map_snd_add_zipIdx_eq_zipIdx, linesOf, List.filterMap_map, linesOf,
    List.map_filterMap]
  exact List.filterMap_congr fun piece _ => ofWords?_add piece.2 k (Text.words piece.1)

/-- Behind the end of a line a text goes on with the lines that the rest has
    alone, further down. -/
theorem significantLines_append (a b : String) (ha : a = "" ∨ ∃ rest, a = rest ++ "\n") :
    significantLines (a ++ b) =
      significantLines a ++ (significantLines b).map (Line.moved (a.toList.count '\n')) := by
  rcases ha with rfl | ⟨rest, rfl⟩
  · have hnone : significantLines "" = [] := rfl
    rw [String.empty_append, hnone, List.nil_append]
    exact (List.map_id _).symm
  · have hnl : "\n".toList = ['\n'] := rfl
    have hcount : (rest ++ "\n").toList.count '\n' = (rest.toList.splitOn '\n').length := by
      rw [length_splitOn, String.toList_append, hnl, List.count_append, List.count_singleton_self]
    have hfirst : significantLines (rest ++ "\n") =
        linesOf ((rest.toList.splitOn '\n').zipIdx 1) := by
      rw [significantLines, String.toList_append, hnl, List.splitOn_append_cons_self,
        List.splitOn_nil, List.zipIdx_append, List.filterMap_append]
      exact List.append_nil _
    have hwhole : (rest ++ "\n" ++ b).toList = rest.toList ++ '\n' :: b.toList := by
      rw [String.toList_append, String.toList_append, hnl, List.append_assoc,
        List.singleton_append]
    rw [hfirst, hcount, significantLines, hwhole, List.splitOn_append_cons_self,
      List.zipIdx_append, List.filterMap_append, Nat.add_comm 1]
    exact congrArg _ (linesOf_zipIdx_add _ 1 _)

/-! ## Nodes -/

/-- A statement further down in a file. -/
def Statement.moved (k : Nat) (s : Statement) : Statement :=
  { s with line := s.line + k }

/-- A heading further down in a file. -/
def Heading.moved (k : Nat) (heading : Heading) : Heading :=
  { heading with line := heading.line + k }

@[simp]
theorem Heading.tag_moved (k : Nat) (heading : Heading) : (heading.moved k).tag = heading.tag := rfl

mutual

/-- A node further down in a file. -/
def Node.moved (k : Nat) : Node → Node
  | .statement s => .statement (s.moved k)
  | .block heading body => .block (heading.moved k) (movedAll k body)

/-- A forest further down in a file. -/
def movedAll (k : Nat) : List Node → List Node
  | [] => []
  | node :: nodes => node.moved k :: movedAll k nodes

end

theorem movedAll_eq_map (k : Nat) (nodes : List Node) :
    movedAll k nodes = nodes.map (Node.moved k) := by
  induction nodes with
  | nil => rfl
  | cons node nodes ih => rw [movedAll, ih, List.map_cons]

/-- What a text further down in a file differs in: line numbers, and nothing
    else. -/
def Likeness.further (k : Nat) : Likeness where
  lines x y := y = x + k
  callsigns a b := a = b
  callsigns_refl _ := rfl
  sameLetters a _ h := h ▸ Text.sameLetters_refl a

theorem Statement.Alike.eq_moved {k : Nat} {s s' : Statement} (h : s.Alike (.further k) s') :
    s' = s.moved k := by
  rcases h with ⟨hline, hname, hargs⟩
  rcases s with ⟨line, name, args⟩
  rcases s' with ⟨line', name', args'⟩
  simp only at hline hname hargs
  rcases hline with rfl
  rcases hname with rfl
  cases hargs with
  | same args => rfl
  | callsign arg arg' others _ hcall =>
      rcases hcall with rfl
      rfl

theorem Heading.Alike.eq_moved {k : Nat} {h h' : Heading} (halike : h.Alike (.further k) h') :
    h' = h.moved k := by
  rcases halike with ⟨hline, htag, hclosed⟩
  rw [Heading.moved, htag, hclosed, ← show h'.line = h.line + k from hline]

/-- Nodes that are alike but for their lines are the same nodes further
    down. -/
theorem forall₂_alike_further_iff (k : Nat) (nodes nodes' : List Node) :
    List.Forall₂ (Node.Alike (.further k)) nodes nodes' ↔ nodes' = movedAll k nodes := by
  induction nodes using forest_induction generalizing nodes' with
  | nil => exact List.forall₂_nil_left_iff
  | statement s nodes ih =>
      constructor
      · intro h
        cases h with
        | cons hnode hrest =>
            cases hnode with
            | statement _ s' hs => rw [hs.eq_moved, (ih _).1 hrest, movedAll, Node.moved]
      · rintro rfl
        exact .cons (.statement _ _ ⟨rfl, rfl, .same _⟩) ((ih _).2 rfl)
  | block heading body nodes hbody hnodes =>
      constructor
      · intro h
        cases h with
        | cons hnode hrest =>
            cases hnode with
            | block _ heading' _ body' hheading hinside =>
                rw [hheading.eq_moved, (hbody _).1 hinside, (hnodes _).1 hrest, movedAll,
                  Node.moved]
      · rintro rfl
        exact .cons (.block _ _ _ _ ⟨rfl, rfl, rfl⟩ ((hbody _).2 rfl)) ((hnodes _).2 rfl)

/-- The headings of all blocks of a forest, in reading order. -/
def headings (forest : List Node) : List Heading :=
  (outlineAll 0 forest).filterMap fun entry => entry.2.getRight?

/-- A forest ends properly without open blocks when all its blocks are
    closed. -/
theorem endsProperlyAll_false_iff (forest : List Node) :
    EndsProperlyAll false forest ↔ ∀ heading ∈ headings forest, heading.closed = true := by
  -- The depth is counted from anywhere, since a body is one level further down.
  suffices hdepth : ∀ depth, EndsProperlyAll false forest ↔
      ∀ heading ∈ (outlineAll depth forest).filterMap fun entry => entry.2.getRight?,
        heading.closed = true from hdepth 0
  induction forest using forest_induction with
  | nil => exact fun depth => iff_of_true trivial fun _ h => nomatch h
  | statement s nodes ih =>
      intro depth
      rw [EndsProperlyAll, ih depth, outlineAll, List.filterMap_append]
      exact and_iff_right trivial
  | block heading body nodes hbody hnodes =>
      intro depth
      have hheading : (heading.closed = false → nodes.isEmpty = true ∧ false = true) ↔
          heading.closed = true := by
        cases heading.closed <;> simp
      rw [EndsProperlyAll, Node.EndsProperly, hheading, Bool.false_and, hbody (depth + 1),
        hnodes depth, outlineAll, Node.outline, List.filterMap_append, List.forall_mem_append,
        List.filterMap_cons]
      simp only [Sum.getRight?_inr, List.forall_mem_cons]

namespace Reading

/-- Lines further down are read as nodes further down. -/
theorem finish_run_moved (k : Nat) (lines : List Line) :
    (start.run (lines.map (Line.moved k))).finish = movedAll k (start.run lines).finish := by
  have hstart : start.Alike (.further k) start := ⟨.nil, .nil⟩
  have hlines : List.Forall₂ (Line.Alike (.further k)) lines (lines.map (Line.moved k)) :=
    List.forall₂_map_right_iff.2 (List.forall₂_same.2 fun l _ => ⟨rfl, rfl, .same l.args⟩)
  exact (forall₂_alike_further_iff k _ _).1 (forall₂_finish (alike_run hstart hlines))

/-- Outside of all blocks the reader finds what it would find in a file of its
    own, and puts it behind what it has. -/
theorem finish_run_beside (nodes : List Node) (lines : List Line) :
    ((⟨nodes, []⟩ : Reading).run lines).finish = nodes ++ (start.run lines).finish := by
  have h := faithful_run lines
  rw [finish_run _ ⟨nodes, []⟩ lines h.written h.tagged h.ended]
  rfl

end Reading

/-- A file whose first part leaves no block open has the nodes of its first
    part, and then those of its second part. -/
theorem readNodes_append (a b : String) (ha : a = "" ∨ ∃ rest, a = rest ++ "\n")
    (hclosed : ∀ heading ∈ headings (BlockFile.readNodes a), heading.closed = true) :
    BlockFile.readNodes (a ++ b) =
      BlockFile.readNodes a ++ movedAll (a.toList.count '\n') (BlockFile.readNodes b) := by
  have hfaithful := Reading.faithful_run (significantLines a)
  have hfirst : Reading.start.run (significantLines a) = ⟨BlockFile.readNodes a, []⟩ :=
    Reading.run_of_closed _ .start _ hfaithful.written hfaithful.tagged
      ((endsProperlyAll_false_iff _).2 hclosed)
  rw [BlockFile.readNodes, significantLines_append a b ha, Reading.run_append, hfirst,
    Reading.finish_run_beside, Reading.finish_run_moved]
  rfl

/-! ## What is settled -/

namespace Reading

/-- The nodes that no further line can change: those in front of the outermost
    open block, or all of them if there is none. -/
def settled (r : Reading) : List Node :=
  (r.enclosing.getLast?).elim r.here OpenBlock.before

theorem settled_cons (here : List Node) (b : OpenBlock) (outer : List OpenBlock) :
    (⟨here, b :: outer⟩ : Reading).settled = (⟨b.before, outer⟩ : Reading).settled := by
  rw [settled, settled, List.getLast?_cons]
  cases outer.getLast? <;> rfl

-- Nodes that are added to the innermost body are added to what is settled, or
-- change nothing there.
theorem settled_prefix_append (here more : List Node) (enclosing : List OpenBlock) :
    (⟨here, enclosing⟩ : Reading).settled <+: (⟨here ++ more, enclosing⟩ : Reading).settled := by
  rw [settled, settled]
  cases enclosing.getLast? with
  | none => exact List.prefix_append here more
  | some b => exact List.prefix_rfl

/-- A line adds to what is settled, and changes nothing there. -/
theorem settled_prefix_step (r : Reading) (l : Line) : r.settled <+: (r.step l).settled := by
  rcases r with ⟨here, enclosing⟩
  rcases step_cases ⟨here, enclosing⟩ l with
    ⟨tag, -, -, hstep⟩ | ⟨b, outer, henclosing, -, hstep⟩ | ⟨-, -, hstep⟩
  · simp only [hstep, enter, settled_cons, List.prefix_rfl]
  · simp only at henclosing
    rw [hstep, henclosing, settled_cons]
    exact settled_prefix_append b.before _ outer
  · rw [hstep]
    exact settled_prefix_append here _ enclosing

theorem settled_prefix_run (r : Reading) (lines : List Line) :
    r.settled <+: (r.run lines).settled := by
  induction lines generalizing r with
  | nil => exact List.prefix_rfl
  | cons l lines ih => exact (settled_prefix_step r l).trans (ih (r.step l))

/-- Apart from what is settled, only a block that is not closed is left at the
    end. -/
theorem finish_eq_settled_append (r : Reading) : ∃ left, r.finish = r.settled ++ left ∧
    ∀ node ∈ left, ∃ heading body, heading.closed = false ∧ node = .block heading body := by
  rcases r with ⟨here, enclosing⟩
  cases enclosing with
  | nil => exact ⟨[], (List.append_nil _).symm, fun _ h => nomatch h⟩
  | cons b outer =>
      induction outer generalizing here b with
      | nil =>
          refine ⟨[.block ⟨b.line, b.tag, false⟩ here], rfl, fun node hnode => ?_⟩
          exact ⟨_, _, rfl, List.mem_singleton.1 hnode⟩
      | cons b' outer ih =>
          rcases ih (b.finish false here) b' with ⟨left, hfinish, hleft⟩
          refine ⟨left, ?_, hleft⟩
          rw [settled_cons, settled_cons, ← settled_cons (b.finish false here)]
          exact hfinish

end Reading

end AprsRelay
