import AprsRelay.BlockFile.Reader
import AprsRelay.Plan.Digipeater

/-!
# Loading Block Files

The digipeater blocks of a file are taken one after the other. Each is either
carried out or refused as a whole, and a refused block does not keep the
others from being carried out.

## Main definitions

* `LoadReport`: What became of the blocks of a file.
* `Station.loadBlock`: One block more.
* `Station.load`: All digipeater blocks of a file.
-/

namespace AprsRelay

/-- The digipeaters that the blocks of a file became, and the blocks that were
    refused, both in the order of the file. -/
structure LoadReport where
  accepted : List DigipeaterId
  rejected : List Rejection
  deriving DecidableEq, Repr

namespace LoadReport

/-- The report before the first block. -/
def empty : LoadReport :=
  ⟨[], []⟩

/-- The report with one more digipeater. -/
def accept (r : LoadReport) (id : DigipeaterId) : LoadReport :=
  { r with accepted := r.accepted ++ [id] }

/-- The report with one more refused block. -/
def reject (r : LoadReport) (rejection : Rejection) : LoadReport :=
  { r with rejected := r.rejected ++ [rejection] }

end LoadReport

namespace Station

/-- Carry out one digipeater block of the file with the given name, and add
    what became of it to the report. -/
def loadBlock (file : String) : Station × LoadReport → Block → Station × LoadReport
  | (s, report), b =>
    match DigipeaterPlan.ofBlock s file b with
    | .error rejection => (s, report.reject rejection)
    | .ok plan =>
      match s.commit? plan with
      | none => (s, report)
      | some (id, t) => (t, report.accept id)

/-- The tag of the blocks that declare digipeaters. -/
def digipeaterTag : String := "digipeater"

/-- Carry out the digipeater blocks of a file. Everything else at the outermost
    level of a file is passed over. -/
def load (s : Station) (file : BlockFile) : Station × LoadReport :=
  (file.blocks digipeaterTag).foldl (loadBlock file.name) (s, .empty)

end Station

end AprsRelay
