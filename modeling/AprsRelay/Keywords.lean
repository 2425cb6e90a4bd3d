import AprsRelay.Text.Utf8

/-!
# Keyword Sets

A via field asks for hops when it starts with a keyword such as `WIDE`. The
keywords that a digipeater honours stand in ordered sets, one for traced and
one for plain flooding. The first keyword of a set that begins a field counts,
not the longest, and keywords are compared byte by byte.

## Main definitions

* `KeywordKind`: Traced or plain flooding.
* `KeywordSet`: An ordered list of keywords with two hop caps.
* `KeywordSet.ofKeys?`: The set with the given keywords, unless none is left
  once empty ones are dropped.
* `KeywordSet.standard`: The sets that apply where none is declared.
* `KeywordSet.matchLength`: The length of the first keyword that begins a
  field.

## Theorems

* `ofKeys?_of_ne_empty`, `ne_empty_of_ofKeys?`: Keywords that are not empty make
  a set, and a set has no others.
-/

namespace AprsRelay

/-- The two kinds of flooding that keywords ask for. -/
inductive KeywordKind where
  | trace
  | wide
  deriving DecidableEq, Repr

/-- An ordered list of keywords. The two caps are kept for the transmitter;
    no decision depends on them. -/
structure KeywordSet where
  kind : KeywordKind
  keys : List String
  maxRequested : Nat
  maxDone : Nat
  deriving DecidableEq, Repr

namespace KeywordSet

/-- The value of both hop caps where none is declared. -/
def defaultCap : Nat := 4

/-- The set with the given keywords in order. Empty keywords are dropped, and
    a set needs at least one keyword. -/
def ofKeys? (kind : KeywordKind) (keys : List String) : Option KeywordSet :=
  match keys.filter (fun k => k ≠ "") with
  | [] => none
  | kept => some ⟨kind, kept, defaultCap, defaultCap⟩

/-- The same keywords with other hop caps. -/
def withCaps (set : KeywordSet) (maxRequested maxDone : Nat) : KeywordSet :=
  { set with maxRequested, maxDone }

/-- The set of a kind that applies where none is declared. -/
def standard : KeywordKind → KeywordSet
  | .trace => ⟨.trace, ["WIDE", "TRACE", "RELAY"], defaultCap, defaultCap⟩
  | .wide => ⟨.wide, ["WIDE"], defaultCap, defaultCap⟩

/-- Whether a keyword begins a field. -/
def begins (field : Bytes) (key : String) : Bool :=
  (Text.utf8 key.toList).isPrefixOf field

/-- The length in bytes of the first keyword that begins a field; zero when
    none does. -/
def matchLength (set : KeywordSet) (field : Bytes) : Nat :=
  match set.keys.find? (begins field) with
  | none => 0
  | some key => Text.byteLength key.toList

/-- The same for a place where a set may be declared; zero where none is. -/
def matchLengthIn (set : Option KeywordSet) (field : Bytes) : Nat :=
  match set with
  | none => 0
  | some set => set.matchLength field

-- Keywords make a set as they are, if there is one and none is empty.
theorem ofKeys?_of_ne_empty (kind : KeywordKind) (keys : List String) (hne : keys ≠ [])
    (hall : ∀ k ∈ keys, k ≠ "") :
    ofKeys? kind keys = some ⟨kind, keys, defaultCap, defaultCap⟩ := by
  have hfilter : keys.filter (fun k => k ≠ "") = keys := by
    rw [List.filter_eq_self]
    intro k hk
    exact decide_eq_true (hall k hk)
  unfold ofKeys?
  rw [hfilter]
  cases keys with
  | nil => exact absurd rfl hne
  | cons key keys => rfl

-- The keywords of a set that was made of others are not empty.
theorem ne_empty_of_ofKeys? (kind : KeywordKind) (keys : List String) (set : KeywordSet)
    (h : ofKeys? kind keys = some set) : ∀ k ∈ set.keys, k ≠ "" := by
  unfold ofKeys? at h
  cases hkept : keys.filter (fun k => k ≠ "") with
  | nil =>
      rw [hkept] at h
      cases h
  | cons key kept =>
      rw [hkept] at h
      rw [← Option.some.inj h]
      intro k hk
      rw [← hkept] at hk
      exact of_decide_eq_true (List.mem_filter.1 hk).2

end KeywordSet

end AprsRelay
