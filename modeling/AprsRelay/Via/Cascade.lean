import AprsRelay.Station.Entity

/-!
# The Keyword Cascade

A field that arrives through a source is compared with four keyword sets: the
traced keywords of the source and of its digipeater, then the plain ones of the
source and of its digipeater. A source may leave out its own. The first set
with a keyword that begins the field counts.

## Main definitions

* `MatchScope`: The four places of a keyword set.
* `Classification`: The place of a match and the length of its keyword.
* `KeywordScopes`: The keyword sets at the four places.
* `scopeSet`: The sets that apply to a source of a digipeater.
* `classifyIn`, `classify`: The classification of a field, for given sets and
  for a source of a digipeater.
-/

namespace AprsRelay

/-- The places where keyword sets are declared, in the order in which they are
    consulted. -/
inductive MatchScope where
  | sourceTrace
  | digipeaterTrace
  | sourceWide
  | digipeaterWide
  deriving DecidableEq, Repr

/-- The place of the set that matched a field, if any, and the length of the
    keyword in bytes, which is zero without a match. -/
structure Classification where
  scope : Option MatchScope
  matchLength : Nat
  deriving DecidableEq, Repr

/-- The classification of a field that no keyword begins. -/
def Classification.unmatched : Classification :=
  ⟨none, 0⟩

/-- All places in the order in which they are consulted. -/
def MatchScope.cascade : List MatchScope :=
  [.sourceTrace, .digipeaterTrace, .sourceWide, .digipeaterWide]

/-- The keyword set at each place, if one is declared there. -/
abbrev KeywordScopes := MatchScope → Option KeywordSet

/-- The keyword sets that apply to a source of a digipeater. -/
def scopeSet (source : Source) (digipeater : Digipeater) : KeywordScopes
  | .sourceTrace => source.trace
  | .digipeaterTrace => some digipeater.trace
  | .sourceWide => source.wide
  | .digipeaterWide => some digipeater.wide

/-- The match of a field at one place. -/
def classifyAt (sets : KeywordScopes) (field : Bytes) (scope : MatchScope) :
    Option Classification :=
  match KeywordSet.matchLengthIn (sets scope) field with
  | 0 => none
  | n + 1 => some ⟨some scope, n + 1⟩

/-- The match of a field at the first place that has one. -/
def classifyIn (sets : KeywordScopes) (field : Bytes) : Classification :=
  (MatchScope.cascade.findSome? (classifyAt sets field)).getD .unmatched

/-- The match of a field that arrives through a source of a digipeater. -/
def classify (source : Source) (digipeater : Digipeater) (field : Bytes) : Classification :=
  classifyIn (scopeSet source digipeater) field

end AprsRelay
