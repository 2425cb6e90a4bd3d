import AprsRelay.Via.Cascade
import AprsRelay.Via.Hops
import AprsRelay.Via.Path

/-!
# Accounts of Via Paths

The account of a via path, drawn up for one source: every field that counts is
classified and read, and what the fields contribute is added up. Frames with
hops left are digipeated. Of the source and its digipeater only the keyword
sets matter.

## Main definitions

* `keyLength`: The length of the keyword that begins a field.
* `fieldCase`, `fieldHops`: How a field is read, and what it contributes.
* `PathAccount`: The account of a path.
* `PathAccount.accepted`: Whether hops are left.
* `accountIn`, `accountPath`: The account of a segment, for given keyword sets
  and for a source of a digipeater.
-/

namespace AprsRelay

/-- The length of the keyword that begins a field, for the given keyword sets;
    zero if none does. -/
def keyLength (sets : KeywordScopes) (field : String) : Nat :=
  (classifyIn sets (Text.utf8 field.toList)).matchLength

/-- How a field is read. -/
def fieldCase (sets : KeywordScopes) (field : String) : HopCase :=
  .ofField (Text.utf8 field.toList) (keyLength sets field)

/-- What a field contributes to the counters. -/
def fieldHops (sets : KeywordScopes) (field : String) : Hops :=
  .ofField (Text.utf8 field.toList) (keyLength sets field)

/-- The account of a via path: the sums, how each field that counts was read,
    and what was noted on the way. -/
structure PathAccount where
  hops : Hops
  cases : List HopCase
  provenance : Bool
  faults : List PathFault
  deriving DecidableEq, Repr

/-- Whether hops are left on a path. -/
def PathAccount.accepted (a : PathAccount) : Bool :=
  a.hops.remaining

/-- The account of the segment of a header, for the given keyword sets. -/
def accountIn (sets : KeywordScopes) (segment : String) : PathAccount :=
  let path := ViaPath.ofSegment segment
  { hops := path.fields.foldl (fun h field => h + fieldHops sets field) 0
    cases := path.fields.map (fieldCase sets)
    provenance := path.provenance
    faults := path.faults }

/-- The account of the segment of a header, for a source and its digipeater. -/
def accountPath (segment : String) (source : Source) (digipeater : Digipeater) :
    PathAccount :=
  accountIn (scopeSet source digipeater) segment

end AprsRelay
