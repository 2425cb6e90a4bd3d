import AprsRelay.Proofs.Via.FirstKey
import Mathlib.Data.List.Basic

/-!
# Keywords in the Shadow of Others

A keyword that starts with an earlier one never classifies a field. Whatever
field it begins, the earlier keyword begins the field too and is compared with
it first, be it in the same set or in a set that is consulted before. Taking
such a keyword out of its set changes the classification of no field.

Sets are cut down here at one place of the cascade, and a set keeps its last
keyword, because there is no set without any.

## Main definitions

* `KeywordSet.without`, `KeywordScopes.without`: Sets that lost a keyword.
* `keysBefore`: The keywords that are compared before one of a set.
* `DeadKey`: A keyword that starts with an earlier one.

## Theorems

* `cascadeKeys_eq`, `cascadeKeys_without`: All keywords, with one among them,
  and without it.
* `find?_append_cons_of_mem`: What is never found first need not be there.
* `firstKey?_without`, `classifyIn_without`: A dead keyword does not matter.
-/

namespace AprsRelay

/-- The set without the keyword at a place. A set keeps its last keyword. -/
def KeywordSet.without (set : KeywordSet) (place : Nat) : KeywordSet :=
  if set.keys.eraseIdx place = [] then set
  else { set with keys := set.keys.eraseIdx place }

/-- The keyword sets of a cascade, where the set at one scope lost a keyword. -/
def KeywordScopes.without (sets : KeywordScopes) (scope : MatchScope) (place : Nat) :
    KeywordScopes := fun other =>
  if other = scope then (sets other).map (·.without place) else sets other

namespace MatchScope

/-- The scopes that are consulted before a scope. -/
def ahead (scope : MatchScope) : List MatchScope :=
  cascade.takeWhile (· ≠ scope)

/-- The scopes that are consulted after a scope. -/
def behind (scope : MatchScope) : List MatchScope :=
  (cascade.dropWhile (· ≠ scope)).tail

theorem cascade_eq (scope : MatchScope) : cascade = scope.ahead ++ scope :: scope.behind := by
  cases scope <;> rfl

theorem ne_of_mem_ahead (scope : MatchScope) : ∀ other ∈ scope.ahead, other ≠ scope := by
  cases scope <;> decide

theorem ne_of_mem_behind (scope : MatchScope) : ∀ other ∈ scope.behind, other ≠ scope := by
  cases scope <;> decide

end MatchScope

/-- The keywords at some scopes, in order, each with its scope. -/
def scopeKeys (sets : KeywordScopes) (scopes : List MatchScope) : List (MatchScope × String) :=
  scopes.flatMap fun scope => (declaredKeys (sets scope)).map fun key => (scope, key)

/-- The keywords that a field is compared with before it is compared with the
    one that stands at the given place of the set at a scope, each with its own
    scope. -/
def keysBefore (sets : KeywordScopes) (scope : MatchScope) (place : Nat) :
    List (MatchScope × String) :=
  scopeKeys sets scope.ahead ++
    ((declaredKeys (sets scope)).take place).map fun key => (scope, key)

/-- The keyword at a place of the set at a scope starts with a keyword that a
    field is compared with before. -/
def DeadKey (sets : KeywordScopes) (scope : MatchScope) (place : Nat) : Prop :=
  ∃ key, (declaredKeys (sets scope))[place]? = some key ∧
    ∃ earlier ∈ keysBefore sets scope place,
      Text.utf8 earlier.2.toList <+: Text.utf8 key.toList

section

variable (sets : KeywordScopes) (scope : MatchScope) (place : Nat)

-- The sets at other scopes keep their keywords.
theorem scopeKeys_without (scopes : List MatchScope) (h : ∀ other ∈ scopes, other ≠ scope) :
    scopeKeys (sets.without scope place) scopes = scopeKeys sets scopes := by
  unfold scopeKeys
  refine List.flatMap_congr fun other hother => ?_
  rw [KeywordScopes.without, if_neg (h other hother)]

theorem declaredKeys_without
    (hkept : (declaredKeys (sets scope)).eraseIdx place ≠ []) :
    declaredKeys (sets.without scope place scope) =
      (declaredKeys (sets scope)).eraseIdx place := by
  rw [KeywordScopes.without, if_pos rfl]
  cases hset : sets scope with
  | none => rfl
  | some set =>
      rw [hset] at hkept
      simp only [declaredKeys, Option.map_some, Option.elim_some] at hkept ⊢
      rw [KeywordSet.without, if_neg hkept]

-- The keywords of a cascade are those ahead of a scope, those at the scope,
-- and those behind it.
theorem cascadeKeys_eq_scopeKeys :
    cascadeKeys sets = scopeKeys sets scope.ahead ++
      ((declaredKeys (sets scope)).map (fun key => (scope, key)) ++
        scopeKeys sets scope.behind) := by
  rw [cascadeKeys, MatchScope.cascade_eq scope, List.flatMap_append, List.flatMap_cons]
  rfl

/-- The keywords of a cascade that a field is compared with after it was
    compared with the one at the given place of the set at a scope. -/
def keysAfter : List (MatchScope × String) :=
  ((declaredKeys (sets scope)).drop (place + 1)).map (fun key => (scope, key)) ++
    scopeKeys sets scope.behind

/-- A keyword of a cascade stands between those that come before it and those
    that come after it. -/
theorem cascadeKeys_eq (key : String) (hkey : (declaredKeys (sets scope))[place]? = some key) :
    cascadeKeys sets =
      keysBefore sets scope place ++ (scope, key) :: keysAfter sets scope place := by
  rcases List.getElem?_eq_some_iff.1 hkey with ⟨hlt, hat⟩
  have hsplit : declaredKeys (sets scope) = (declaredKeys (sets scope)).take place ++
      key :: (declaredKeys (sets scope)).drop (place + 1) := by
    rw [← hat, ← List.drop_eq_getElem_cons hlt, List.take_append_drop]
  rw [cascadeKeys_eq_scopeKeys sets scope]
  conv_lhs => rw [hsplit]
  simp only [keysBefore, keysAfter, List.map_append, List.map_cons, List.append_assoc,
    List.cons_append]

/-- Without this keyword the others stay as they are. -/
theorem cascadeKeys_without (hkept : (declaredKeys (sets scope)).eraseIdx place ≠ []) :
    cascadeKeys (sets.without scope place) =
      keysBefore sets scope place ++ keysAfter sets scope place := by
  rw [cascadeKeys_eq_scopeKeys _ scope,
    scopeKeys_without sets scope place _ scope.ne_of_mem_ahead,
    scopeKeys_without sets scope place _ scope.ne_of_mem_behind,
    declaredKeys_without sets scope place hkept, List.eraseIdx_eq_take_drop_succ]
  simp only [keysBefore, keysAfter, List.map_append, List.append_assoc]

-- A set that has no other keyword stays as it is.
theorem without_eq_self (hlast : (declaredKeys (sets scope)).eraseIdx place = []) :
    sets.without scope place = sets := by
  funext other
  unfold KeywordScopes.without
  split
  · rename_i hother
    rw [hother]
    cases hset : sets scope with
    | none => rfl
    | some set =>
        rw [hset, declaredKeys, Option.elim_some] at hlast
        rw [Option.map_some, KeywordSet.without, if_pos hlast]
  · rfl

-- Sets that lost a keyword have no empty one if they had none.
theorem KeywordSet.sound_without (set : KeywordSet) (h : set.Sound) :
    (set.without place).Sound := by
  unfold KeywordSet.without
  split
  · exact h
  · exact fun key hkey => h key (List.mem_of_mem_eraseIdx hkey)

theorem KeywordScopes.sound_without (h : sets.Sound) : (sets.without scope place).Sound := by
  intro other set hset
  unfold KeywordScopes.without at hset
  split at hset
  · rcases Option.map_eq_some_iff.1 hset with ⟨old, hold, rfl⟩
    exact KeywordSet.sound_without place old (h other old hold)
  · exact h other set hset

end

/-- What is never the first to be found can be left out of a search. -/
theorem find?_append_cons_of_mem {α : Type} (p : α → Bool) (before after : List α) (x : α)
    (h : p x = true → ∃ y ∈ before, p y = true) :
    (before ++ x :: after).find? p = (before ++ after).find? p := by
  rw [List.find?_append, List.find?_append]
  cases hbefore : before.find? p with
  | some y => rfl
  | none =>
      have hx : ¬ p x = true := by
        intro hx
        rcases h hx with ⟨y, hy, hpy⟩
        exact List.find?_eq_none.1 hbefore y hy hpy
      rw [List.find?_cons_of_neg hx]

section

variable (sets : KeywordScopes) (scope : MatchScope) (place : Nat)
  (hdead : DeadKey sets scope place)
include hdead

/-- The first keyword that begins a field is never a dead one. -/
theorem firstKey?_without (field : Bytes) :
    firstKey? (sets.without scope place) field = firstKey? sets field := by
  by_cases hlast : (declaredKeys (sets scope)).eraseIdx place = []
  · rw [without_eq_self sets scope place hlast]
  · rcases hdead with ⟨key, hkey, earlier, hearlier, hstart⟩
    rw [firstKey?, cascadeKeys_without sets scope place hlast, firstKey?,
      cascadeKeys_eq sets scope place key hkey, find?_append_cons_of_mem]
    -- The earlier keyword begins whatever the dead one begins.
    intro hbegins
    exact ⟨earlier, hearlier, decide_eq_true (hstart.trans (of_decide_eq_true hbegins))⟩

/-- So a field is classified in the same way without a dead keyword. -/
theorem classifyIn_without (hsets : sets.Sound) (field : Bytes) :
    classifyIn (sets.without scope place) field = classifyIn sets field := by
  rw [classifyIn_eq _ (KeywordScopes.sound_without sets scope place hsets),
    firstKey?_without sets scope place hdead, classifyIn_eq sets hsets]

end

end AprsRelay
