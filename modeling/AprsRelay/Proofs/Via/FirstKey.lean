import AprsRelay.Via.Account

/-!
# The First Keyword of a Cascade

The four keyword sets are consulted one after the other, and each of them from
its first keyword on, so a field is classified by the first keyword of all
that begins it. The classification itself is told by a length, and zero says
that no keyword was found. The two agree because no keyword is empty, which is
a property of the sets and has to be known of them.

## Main definitions

* `KeywordSet.Sound`: Sets without an empty keyword.
* `KeywordScopes.Sound`: The same for the sets at all places.
* `cascadeKeys`: All keywords in the order in which they are consulted, each
  with its place.
* `firstKey?`: The first of them that begins a field.
* `OneScan`: How a source classifies fields.

## Theorems

* `KeywordSet.begins_eq`: A keyword begins a field as a prefix of its bytes.
* `classifyAt_eq`: One place.
* `classifyIn_eq`: All places.
* `oneScan`: The same for a source, with all that follows from it.
* `keyLength_eq_zero_iff`, `drop_keyLength`: The length that the hops are
  counted with.
* `accountIn_congr`: Nothing else of the keyword sets is counted with.
-/

namespace AprsRelay

/-- A set that can be told from no set: none of its keywords is empty. -/
def KeywordSet.Sound (set : KeywordSet) : Prop :=
  ∀ key ∈ set.keys, key ≠ ""

/-- Sets at several places, none of which has an empty keyword. -/
def KeywordScopes.Sound (sets : KeywordScopes) : Prop :=
  ∀ scope set, sets scope = some set → set.Sound

/-- The keywords at a place where a set may be declared. -/
def declaredKeys (set : Option KeywordSet) : List String :=
  set.elim [] (·.keys)

/-- All keywords that a field is compared with, in that order, each with the
    place of its set. -/
def cascadeKeys (sets : KeywordScopes) : List (MatchScope × String) :=
  MatchScope.cascade.flatMap fun scope =>
    (declaredKeys (sets scope)).map fun key => (scope, key)

/-- The first keyword whose bytes are a prefix of a field, with its place. -/
def firstKey? (sets : KeywordScopes) (field : Bytes) : Option (MatchScope × String) :=
  (cascadeKeys sets).find? fun entry => Text.utf8 entry.2.toList <+: field

/-- The classification by a keyword. -/
def Classification.ofKey (entry : MatchScope × String) : Classification :=
  ⟨some entry.1, Text.byteLength entry.2.toList⟩

/-- A keyword begins a field when its bytes are a prefix of the field. -/
theorem KeywordSet.begins_eq (field : Bytes) :
    begins field = fun key : String => decide (Text.utf8 key.toList <+: field) := by
  funext key
  rw [Bool.eq_iff_iff, decide_eq_true_eq, begins, List.isPrefixOf_iff_prefix]

/-- At one place a field is classified by the first keyword that begins it. -/
theorem classifyAt_eq (sets : KeywordScopes) (hsets : sets.Sound) (field : Bytes)
    (scope : MatchScope) :
    classifyAt sets field scope =
      (((declaredKeys (sets scope)).map fun key => (scope, key)).find? fun entry =>
        Text.utf8 entry.2.toList <+: field).map Classification.ofKey := by
  unfold classifyAt KeywordSet.matchLengthIn declaredKeys
  cases hset : sets scope with
  | none => rfl
  | some set =>
      simp only [KeywordSet.matchLength, Option.elim_some, List.find?_map, Function.comp_def,
        KeywordSet.begins_eq]
      cases hkey : set.keys.find? (fun key => Text.utf8 key.toList <+: field) with
      | none => rfl
      | some key =>
          -- The length of the keyword is not zero, so it counts as a match.
          have hpos := Text.byteLength_pos key
            (hsets scope set hset key (List.mem_of_find?_eq_some hkey))
          simp only [Option.map_some, Classification.ofKey]
          split
          · omega
          · rename_i n hn
            rw [hn]

/-- A field is classified by the first keyword of the whole cascade that begins
    it, and is unmatched if there is none. -/
theorem classifyIn_eq (sets : KeywordScopes) (hsets : sets.Sound) (field : Bytes) :
    classifyIn sets field = ((firstKey? sets field).map Classification.ofKey).getD .unmatched := by
  have hat : classifyAt sets field = fun scope =>
      (((declaredKeys (sets scope)).map fun key => (scope, key)).find? fun entry =>
        Text.utf8 entry.2.toList <+: field).map Classification.ofKey :=
    funext (classifyAt_eq sets hsets field)
  rw [classifyIn, hat, firstKey?, cascadeKeys, List.find?_flatMap, List.map_findSome?]
  rfl

-- No keyword of a cascade is empty, because no set has an empty keyword.
theorem byteLength_pos_of_mem_cascadeKeys (sets : KeywordScopes) (hsets : sets.Sound)
    (entry : MatchScope × String) (hentry : entry ∈ cascadeKeys sets) :
    1 ≤ Text.byteLength entry.2.toList := by
  rcases List.mem_flatMap.1 hentry with ⟨scope, -, hmem⟩
  rcases List.mem_map.1 hmem with ⟨key, hkey, rfl⟩
  cases hset : sets scope with
  | none =>
      rw [hset] at hkey
      exact absurd hkey List.not_mem_nil
  | some set =>
      rw [hset] at hkey
      exact Text.byteLength_pos key (hsets scope set hset key hkey)

-- A classification by a keyword has a scope, so it is not the one without.
theorem ofKey_getD_eq_unmatched_iff (key : Option (MatchScope × String)) :
    (key.map Classification.ofKey).getD .unmatched = .unmatched ↔ key = none := by
  cases key with
  | none => simp
  | some entry => simp [Classification.ofKey, Classification.unmatched]

/-- A source classifies fields by one scan over the keywords of four sets: its
    own traced ones, those of its digipeater, and then the plain ones in the
    same order. The first keyword that begins a field tells the scope and the
    length, and a field is unmatched if there is none. -/
structure OneScan (source : Source) (d : Digipeater) : Prop where
  keys_eq : cascadeKeys (scopeSet source d) =
    (declaredKeys source.trace).map (Prod.mk .sourceTrace) ++
      d.trace.keys.map (Prod.mk .digipeaterTrace) ++
      (declaredKeys source.wide).map (Prod.mk .sourceWide) ++
      d.wide.keys.map (Prod.mk .digipeaterWide)
  byteLength_pos : ∀ entry ∈ cascadeKeys (scopeSet source d),
    1 ≤ Text.byteLength entry.2.toList
  classify_eq : ∀ field, classify source d field =
    ((firstKey? (scopeSet source d) field).map Classification.ofKey).getD .unmatched
  unmatched_iff : ∀ field, classify source d field = .unmatched ↔
    ∀ entry ∈ cascadeKeys (scopeSet source d), ¬ Text.utf8 entry.2.toList <+: field

/-- Sets without an empty keyword are scanned in this way. -/
theorem oneScan (source : Source) (d : Digipeater) (hsets : (scopeSet source d).Sound) :
    OneScan source d where
  keys_eq := by
    simp [cascadeKeys, MatchScope.cascade, scopeSet, declaredKeys]
  byteLength_pos := byteLength_pos_of_mem_cascadeKeys _ hsets
  classify_eq := classifyIn_eq _ hsets
  unmatched_iff := by
    intro field
    rw [classify, classifyIn_eq _ hsets, ofKey_getD_eq_unmatched_iff, firstKey?,
      List.find?_eq_none]
    simp only [decide_eq_true_eq]

/-- No length is counted with where no keyword begins the field. -/
theorem keyLength_eq_zero_iff (sets : KeywordScopes) (hsets : sets.Sound) (field : String) :
    keyLength sets field = 0 ↔ firstKey? sets (Text.utf8 field.toList) = none := by
  rw [keyLength, classifyIn_eq sets hsets]
  cases hkey : firstKey? sets (Text.utf8 field.toList) with
  | none => simp [Classification.unmatched]
  | some entry =>
      have hpos := byteLength_pos_of_mem_cascadeKeys sets hsets entry
        (List.mem_of_find?_eq_some hkey)
      simp only [Option.map_some, Option.getD_some, Classification.ofKey, reduceCtorEq, iff_false]
      omega

-- Otherwise the bytes behind the keyword are what is left of the field.
theorem drop_keyLength (sets : KeywordScopes) (hsets : sets.Sound) (field : String)
    (entry : MatchScope × String)
    (h : firstKey? sets (Text.utf8 field.toList) = some entry) :
    Text.utf8 field.toList =
      Text.utf8 entry.2.toList ++ (Text.utf8 field.toList).drop (keyLength sets field) := by
  have hbegins := List.find?_some h
  rcases of_decide_eq_true hbegins with ⟨rest, hrest⟩
  rw [keyLength, classifyIn_eq sets hsets, h]
  simp only [Option.map_some, Option.getD_some, Classification.ofKey, Text.byteLength_eq]
  rw [← hrest, List.drop_left]

/-- The account of a path depends on the lengths of the keywords that begin
    fields, and not on the keyword sets otherwise. -/
theorem accountIn_congr (sets others : KeywordScopes) (h : keyLength others = keyLength sets)
    (segment : String) : accountIn others segment = accountIn sets segment := by
  have hcase : fieldCase others = fieldCase sets := by
    funext field
    rw [fieldCase, h, fieldCase]
  have hhops : fieldHops others = fieldHops sets := by
    funext field
    rw [fieldHops, h, fieldHops]
  simp only [accountIn, hcase, hhops]

end AprsRelay
