import AprsRelay.Proofs.BlockFile.Append
import AprsRelay.Proofs.Plan.Alike

/-!
# Blocks Further Down

A block that stands further down in a file is alike but for the lines. So it
yields the same plan, or it is refused for the same faults further down.

## Main definitions

* `Fault.moved`, `Rejection.moved`, `Block.moved`: The same with higher line
  numbers.

## Theorems

* `blockTagged?_moved`: Blocks with a tag further down.
* `ofBlock_moved`: A digipeater block further down.
-/

namespace AprsRelay

/-- A fault further down in a file. -/
def Fault.moved (k : Nat) (f : Fault) : Fault :=
  { f with line := f.line + k }

/-- The refusal of a block further down in a file. -/
def Rejection.moved (k : Nat) (r : Rejection) : Rejection :=
  { r with line := r.line + k, faults := r.faults.map (Fault.moved k) }

/-- A block further down in a file. -/
def Block.moved (k : Nat) (b : Block) : Block :=
  { b.toHeading.moved k with body := movedAll k b.body }

theorem blockTagged?_moved (k : Nat) (tag : String) (node : Node) :
    (node.moved k).blockTagged? tag = (node.blockTagged? tag).map (Block.moved k) := by
  cases node with
  | statement s => rfl
  | block heading body =>
      rw [Node.moved, Node.blockTagged?, Heading.tag_moved, Node.blockTagged?]
      by_cases htag : heading.tag = tag
      · rw [if_pos htag, if_pos htag]
        rfl
      · rw [if_neg htag, if_neg htag]
        rfl

variable {k : Nat}

theorem Block.alike_moved (k : Nat) (b : Block) : b.Alike (.further k) (b.moved k) where
  heading := ⟨rfl, rfl, rfl⟩
  body := (forall₂_alike_further_iff k _ _).2 rfl

theorem Finding.Alike.cause_eq {f f' : Finding} (h : f.Alike (.further k) f') :
    f'.cause = f.cause := by
  rcases h with ⟨-, hcause⟩
  generalize f.cause = cause at hcause
  generalize f'.cause = cause' at hcause
  cases hcause with
  | same cause => rfl
  | unknownInterface a b hcall => exact congrArg _ (Eq.symm hcall)
  | transmitNotAllowed a b hcall => exact congrArg _ (Eq.symm hcall)

theorem Fault.Alike.eq_moved {f f' : Fault} (h : f.Alike (.further k) f') : f' = f.moved k := by
  have hline : f'.line = f.line + k := h.finding.line
  rw [Fault.moved, ← hline, ← h.finding.cause_eq, h.file]

theorem Rejection.Alike.eq_moved {r r' : Rejection} (h : r.Alike (.further k) r') :
    r' = r.moved k := by
  have hline : r'.line = r.line + k := h.line
  have hfaults : List.Forall₂ Eq (r.faults.map (Fault.moved k)) r'.faults :=
    List.forall₂_map_left_iff.2 (h.faults.imp fun _ _ hfault => hfault.eq_moved.symm)
  rw [List.forall₂_eq_eq_eq] at hfaults
  rw [Rejection.moved, hfaults, ← hline, h.file]

/-- A block further down yields the same plan, or the same faults further
    down. -/
theorem ofBlock_moved (k : Nat) (station : Station) (file : String) (b : Block) :
    DigipeaterPlan.ofBlock station file (b.moved k) =
      (DigipeaterPlan.ofBlock station file b).mapError (Rejection.moved k) := by
  rcases ofBlock_alike station (b.alike_moved k) file with
    ⟨plan, hplan, hmoved⟩ | ⟨r, r', hr, hr', halike⟩
  · rw [hplan, hmoved]
    rfl
  · rw [hr, hr', halike.eq_moved]
    rfl

end AprsRelay
