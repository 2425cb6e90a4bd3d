import AprsRelay.BlockFile.Reader
import Mathlib.Data.List.Forall2

/-!
# Files that Read Alike

Two texts can say the same on different lines, and with callsigns that are
written differently. A likeness fixes what is allowed: which lines of the one
text correspond to which lines of the other, and which callsigns may stand for
each other. Everything else has to be equal.

The reader looks at the names of lines and nowhere else. So it takes the same
steps on both texts, and what it reads is alike again. No property of the
correspondence of lines is needed for that.

## Main definitions

* `Likeness`: Which lines correspond, and which callsigns are alike.
* `ArgumentsAlike`: Arguments that differ in a callsign at most.
* `Line.Alike`, `Statement.Alike`, `Heading.Alike`, `Node.Alike`: Parts of two
  texts that say the same.
* `OpenBlock.Alike`, `Reading.Alike`: States of the reader that are alike.

## Theorems

* `alike_step`, `alike_run`: One line read on both sides, and all lines.
* `forall₂_finish`: Alike states end in alike forests.
-/

namespace AprsRelay

/-- What two texts may differ in: the lines on which they say the same, and
    the letters of callsigns. -/
structure Likeness where
  lines : Nat → Nat → Prop
  callsigns : String → String → Prop
  callsigns_refl : ∀ callsign, callsigns callsign callsign
  sameLetters : ∀ a b, callsigns a b → Text.sameLetters a b = true

/-- The arguments behind a name that are alike: the same ones, or the same
    behind the callsign of an interface. -/
inductive ArgumentsAlike (c : Likeness) (name : String) : List String → List String → Prop
  | same (args : List String) : ArgumentsAlike c name args args
  | callsign (arg arg' : String) (others : List String)
      (hname : name = "transmit" ∨ name = "source") (h : c.callsigns arg arg') :
      ArgumentsAlike c name (arg :: others) (arg' :: others)

/-- Corresponding lines with the same name and alike arguments. -/
structure Line.Alike (c : Likeness) (l l' : Line) : Prop where
  number : c.lines l.number l'.number
  name : l.name = l'.name
  args : ArgumentsAlike c l.name l.args l'.args

/-- Statements on corresponding lines with the same keyword and alike
    arguments. -/
structure Statement.Alike (c : Likeness) (s s' : Statement) : Prop where
  line : c.lines s.line s'.line
  name : s.name = s'.name
  args : ArgumentsAlike c s.name s.args s'.args

/-- Headings on corresponding lines that are otherwise equal. -/
structure Heading.Alike (c : Likeness) (h h' : Heading) : Prop where
  line : c.lines h.line h'.line
  tag : h.tag = h'.tag
  closed : h.closed = h'.closed

/-- Alike statements, or alike blocks with alike nodes inside. -/
inductive Node.Alike (c : Likeness) : Node → Node → Prop
  | statement (s s' : Statement) (h : s.Alike c s') : Node.Alike c (.statement s) (.statement s')
  | block (heading heading' : Heading) (body body' : List Node) (h : heading.Alike c heading')
      (hbody : List.Forall₂ (Node.Alike c) body body') :
      Node.Alike c (.block heading body) (.block heading' body')

/-- Open blocks with the same tag on corresponding lines, behind alike nodes. -/
structure OpenBlock.Alike (c : Likeness) (b b' : OpenBlock) : Prop where
  line : c.lines b.line b'.line
  tag : b.tag = b'.tag
  before : List.Forall₂ (Node.Alike c) b.before b'.before

/-- Alike nodes inside of alike open blocks. -/
structure Reading.Alike (c : Likeness) (r r' : Reading) : Prop where
  here : List.Forall₂ (Node.Alike c) r.here r'.here
  enclosing : List.Forall₂ (OpenBlock.Alike c) r.enclosing r'.enclosing

variable {c : Likeness}

theorem OpenBlock.Alike.forall₂_finish {b b' : OpenBlock} (h : b.Alike c b') (closed : Bool)
    {body body' : List Node} (hbody : List.Forall₂ (Node.Alike c) body body') :
    List.Forall₂ (Node.Alike c) (b.finish closed body) (b'.finish closed body') :=
  List.rel_append h.before (.cons (.block _ _ _ _ ⟨h.line, h.tag, rfl⟩ hbody) .nil)

namespace Reading

variable {r r' : Reading} (hr : r.Alike c r')
include hr

theorem alike_add {l l' : Line} (hl : l.Alike c l') : (r.add l).Alike c (r'.add l') where
  here := List.rel_append hr.here
    (.cons (.statement _ _ ⟨hl.number, hl.name, hl.args⟩) .nil)
  enclosing := hr.enclosing

-- A closing word ends a block on both sides or on neither.
theorem rel_leave? (tag : String) :
    Option.Rel (Reading.Alike c) (r.leave? tag) (r'.leave? tag) := by
  rcases r with ⟨here, enclosing⟩
  rcases r' with ⟨here', enclosing'⟩
  rcases hr with ⟨hhere, henclosing⟩
  cases henclosing with
  | nil => exact .none
  | cons hb houter =>
      rename_i b b' outer outer'
      simp only [leave?, ← hb.tag]
      split
      · exact .some ⟨hb.forall₂_finish true hhere, houter⟩
      · exact .none

/-- Alike lines have the same effect. -/
theorem alike_step {l l' : Line} (hl : l.Alike c l') : (r.step l).Alike c (r'.step l') := by
  rw [step, step, ← hl.name]
  cases LineRole.ofName l.name with
  | opening tag => exact ⟨.nil, .cons ⟨hl.number, rfl, hr.here⟩ hr.enclosing⟩
  | plain => exact alike_add hr hl
  | closing tag =>
      have hleave := rel_leave? hr tag
      simp only
      generalize r.leave? tag = left at hleave
      generalize r'.leave? tag = left' at hleave
      cases hleave with
      | some h => exact h
      | none => exact alike_add hr hl

/-- So do several of them. -/
theorem alike_run {lines lines' : List Line} (hlines : List.Forall₂ (Line.Alike c) lines lines') :
    (r.run lines).Alike c (r'.run lines') := by
  induction hlines generalizing r r' with
  | nil => exact hr
  | cons hl _ ih => exact ih (alike_step hr hl)

/-- Blocks that are still open are ended on both sides. -/
theorem forall₂_finish : List.Forall₂ (Node.Alike c) r.finish r'.finish := by
  rcases r with ⟨here, enclosing⟩
  rcases r' with ⟨here', enclosing'⟩
  rcases hr with ⟨hhere, henclosing⟩
  simp only at hhere henclosing
  induction henclosing generalizing here here' with
  | nil => exact hhere
  | cons hb _ ih => exact ih _ _ (hb.forall₂_finish false hhere)

end Reading

end AprsRelay
