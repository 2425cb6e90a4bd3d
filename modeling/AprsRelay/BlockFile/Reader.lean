import AprsRelay.BlockFile.Line
import AprsRelay.BlockFile.Node

/-!
# Reading Block Files

The reader walks over the significant lines once. It keeps the nodes of the
innermost open block, and for every open block the nodes that stood before it
in the body around it. A closing word ends the innermost block if it names its
tag; any other closing word is a statement like any other. Blocks still open
at the end of the file end there and are marked as not closed.

## Main definitions

* `OpenBlock`: A block whose closing word has not been read.
* `Reading`: The nodes read so far, with the open blocks around them.
* `Reading.step`: The effect of one line.
* `Reading.finish`: The forest, when no line is left.
* `BlockFile.read`: The file with the given name and text.
-/

namespace AprsRelay

/-- A block whose closing word has not been read yet, with the nodes that
    stand before it in the body around it. -/
structure OpenBlock where
  line : Nat
  tag : String
  before : List Node

/-- The body around an open block, once the block has ended. -/
def OpenBlock.finish (b : OpenBlock) (closed : Bool) (body : List Node) : List Node :=
  b.before ++ [.block ⟨b.line, b.tag, closed⟩ body]

/-- The state of the reader: the nodes of the innermost open block, and the
    open blocks, innermost first. Outside of all blocks, the nodes are those
    of the file. -/
structure Reading where
  here : List Node
  enclosing : List OpenBlock

namespace Reading

/-- The state before the first line. -/
def start : Reading :=
  ⟨[], []⟩

/-- Add a line as a statement to the innermost body. -/
def add (r : Reading) (l : Line) : Reading :=
  { r with here := r.here ++ [.statement ⟨l.number, l.name, l.args⟩] }

/-- Open a block inside the innermost body. -/
def enter (r : Reading) (line : Nat) (tag : String) : Reading :=
  ⟨[], ⟨line, tag, r.here⟩ :: r.enclosing⟩

/-- End the innermost block if it has the given tag. -/
def leave? (r : Reading) (tag : String) : Option Reading :=
  match r.enclosing with
  | [] => none
  | b :: outer => if b.tag = tag then some ⟨b.finish true r.here, outer⟩ else none

/-- The effect of one line. -/
def step (r : Reading) (l : Line) : Reading :=
  match LineRole.ofName l.name with
  | .opening tag => r.enter l.number tag
  -- A closing word for any other block than the innermost closes nothing.
  | .closing tag => (r.leave? tag).getD (r.add l)
  | .plain => r.add l

/-- The forest, with every block that is still open ended here. -/
def finish (r : Reading) : List Node :=
  r.enclosing.foldl (fun body b => b.finish false body) r.here

/-- The state after the given lines. -/
def run (r : Reading) (lines : List Line) : Reading :=
  lines.foldl step r

@[simp]
theorem run_nil (r : Reading) : r.run [] = r := rfl

@[simp]
theorem run_cons (r : Reading) (l : Line) (lines : List Line) :
    r.run (l :: lines) = (r.step l).run lines := rfl

/-- A file can be read in two parts, the second from where the first ended. -/
theorem run_append (r : Reading) (a b : List Line) : r.run (a ++ b) = (r.run a).run b := by
  simp [run]

end Reading

namespace BlockFile

/-- The forest that the significant lines of a text stand for. -/
def readNodes (text : String) : List Node :=
  (Reading.start.run (significantLines text)).finish

/-- The block file with the given name and text. -/
def read (name text : String) : BlockFile :=
  ⟨name, readNodes text⟩

end BlockFile

end AprsRelay
