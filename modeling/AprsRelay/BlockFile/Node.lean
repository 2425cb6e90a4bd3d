/-!
# Block Files as Trees

A block file is a forest of statements and of blocks, which hold statements
and blocks themselves. Every node knows the line on which it starts.

## Main definitions

* `Statement`: A keyword with its arguments.
* `Heading`: What a block says about itself: its tag, where it starts, and
  whether its closing word was found.
* `Node`: A statement, or a heading with the body below it.
* `Block`: A heading with its body, seen apart from the forest.
* `Node.outline`, `outlineAll`: A forest in reading order, with depths.
* `BlockFile`: A named forest.
* `BlockFile.blocks`: The outermost blocks with a given tag.

## Theorems

* `outlineAll_append`: Forests side by side are read one after the other.
* `mem_blocks_iff`: What the blocks of a tag are.
-/

namespace AprsRelay

/-- A keyword with its arguments, on one line. -/
structure Statement where
  line : Nat
  name : String
  args : List String
  deriving DecidableEq, Repr

/-- The argument that a statement with a single argument uses. -/
def Statement.argument? (s : Statement) : Option String :=
  s.args.head?

/-- What a block says about itself. A block that is not `closed` ran to the
    end of the file. -/
structure Heading where
  line : Nat
  tag : String
  closed : Bool
  deriving DecidableEq, Repr

/-- A statement, or a block with the nodes inside it. -/
inductive Node where
  | statement (s : Statement)
  | block (heading : Heading) (body : List Node)
  deriving Repr

/-- A block apart from the forest that holds it. -/
structure Block extends Heading where
  body : List Node
  deriving Repr

namespace Node

/-- The line on which a node starts. -/
def line : Node → Nat
  | statement s => s.line
  | block heading _ => heading.line

/-- A node as a statement with the given keyword. -/
def statementNamed? (name : String) : Node → Option Statement
  | statement s => if s.name = name then some s else none
  | block _ _ => none

/-- A node as a block with the given tag. -/
def blockTagged? (tag : String) : Node → Option Block
  | statement _ => none
  | block heading body => if heading.tag = tag then some { heading with body } else none

end Node

mutual

/-- A node and all nodes inside it, in reading order and with their depths. -/
def Node.outline (depth : Nat) : Node → List (Nat × (Statement ⊕ Heading))
  | .statement s => [(depth, .inl s)]
  | .block heading body => (depth, .inr heading) :: outlineAll (depth + 1) body

/-- A forest in reading order, with the depth of every node. -/
def outlineAll (depth : Nat) : List Node → List (Nat × (Statement ⊕ Heading))
  | [] => []
  | node :: nodes => node.outline depth ++ outlineAll depth nodes

end

theorem outlineAll_append (depth : Nat) (a b : List Node) :
    outlineAll depth (a ++ b) = outlineAll depth a ++ outlineAll depth b := by
  induction a with
  | nil => simp [outlineAll]
  | cons node nodes ih => simp [outlineAll, ih]

/-- A block file: its name, as reports show it, and its nodes. -/
structure BlockFile where
  name : String
  nodes : List Node
  deriving Repr

namespace BlockFile

/-- The outermost blocks with the given tag, in the order of the file. -/
def blocks (file : BlockFile) (tag : String) : List Block :=
  file.nodes.filterMap (Node.blockTagged? tag)

/-- The blocks of a tag are the outermost nodes that are blocks with that
    tag. -/
theorem mem_blocks_iff (file : BlockFile) (tag : String) (b : Block) :
    b ∈ file.blocks tag ↔ b.tag = tag ∧ Node.block b.toHeading b.body ∈ file.nodes := by
  simp only [blocks, List.mem_filterMap]
  constructor
  · rintro ⟨node, hmem, hnode⟩
    cases node with
    | statement s => simp [Node.blockTagged?] at hnode
    | block heading body =>
        simp only [Node.blockTagged?] at hnode
        split at hnode
        · rename_i htag
          obtain rfl := Option.some.inj hnode
          exact ⟨htag, hmem⟩
        · simp at hnode
  · rintro ⟨htag, hmem⟩
    exact ⟨_, hmem, by simp [Node.blockTagged?, htag]⟩

end BlockFile

end AprsRelay
