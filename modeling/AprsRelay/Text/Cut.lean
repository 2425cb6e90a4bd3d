/-!
# Cutting at a Separator

The header of a frame is read from left to right, each part ending at the
first of the separators that may follow it.

## Main definitions

* `cutAt`: The part before the first separator, the separator, and the rest.

## Theorems

* `cutAt_eq_none_iff`: There is no cut exactly when there is no separator.
* `cutAt_eq_some_iff`: A cut is a decomposition at the first separator.
* `cutAt_beq_eq_none_iff`, `cutAt_beq_eq_some_iff`: The same for a separator
  that is a single character.
-/

namespace AprsRelay

namespace Text

/-- The part of a text before its first separator, that separator, and the
    part after it. -/
def cutAt (isSeparator : Char → Bool) : List Char → Option (List Char × Char × List Char)
  | [] => none
  | c :: cs =>
    if isSeparator c then some ([], c, cs)
    else (cutAt isSeparator cs).map fun (before, s, after) => (c :: before, s, after)

/-- There is no cut exactly when there is no separator. -/
theorem cutAt_eq_none_iff (p : Char → Bool) (cs : List Char) :
    cutAt p cs = none ↔ ∀ c ∈ cs, p c = false := by
  induction cs with
  | nil => simp [cutAt]
  | cons c cs ih => by_cases hc : p c = true <;> simp [cutAt, hc, ih]

/-- A cut is the decomposition of the text at a separator that has none before
    it, and there is only one such decomposition. -/
theorem cutAt_eq_some_iff (p : Char → Bool) (cs before after : List Char) (s : Char) :
    cutAt p cs = some (before, s, after) ↔
      p s = true ∧ (∀ c ∈ before, p c = false) ∧ cs = before ++ s :: after := by
  induction cs generalizing before with
  | nil => simp [cutAt]
  | cons c cs ih =>
      by_cases hc : p c = true
      · -- The first character is the separator, so nothing stands before it.
        simp only [cutAt, hc, if_true, Option.some.injEq, Prod.mk.injEq]
        constructor
        · rintro ⟨rfl, rfl, rfl⟩
          simp [hc]
        · rintro ⟨-, hbefore, heq⟩
          cases before with
          | nil => simpa using heq
          | cons b before =>
              have hb := hbefore b (by simp)
              simp only [List.cons_append, List.cons.injEq] at heq
              rw [← heq.1, hc] at hb
              simp at hb
      · -- The first character is none, so it belongs to the part before the cut.
        simp only [cutAt, hc, Bool.false_eq_true, if_false, Option.map_eq_some_iff, Prod.exists,
          Prod.mk.injEq]
        constructor
        · rintro ⟨b, s', a, hcut, rfl, rfl, rfl⟩
          obtain ⟨hs, hb, rfl⟩ := (ih b).1 hcut
          refine ⟨hs, ?_, rfl⟩
          intro d hd
          rcases List.mem_cons.1 hd with rfl | hd
          · simpa using hc
          · exact hb d hd
        · rintro ⟨hs, hbefore, heq⟩
          cases before with
          | nil =>
              simp only [List.nil_append, List.cons.injEq] at heq
              rw [← heq.1] at hs
              exact absurd hs hc
          | cons b before =>
              simp only [List.cons_append, List.cons.injEq] at heq
              obtain ⟨rfl, rfl⟩ := heq
              exact ⟨before, s, after,
                (ih before).2 ⟨hs, fun d hd => hbefore d (by simp [hd]), rfl⟩, rfl, rfl, rfl⟩

theorem cutAt_beq_eq_none_iff (c : Char) (cs : List Char) :
    cutAt (· == c) cs = none ↔ c ∉ cs := by
  rw [cutAt_eq_none_iff]
  constructor
  · intro h hmem
    simpa using h c hmem
  · intro h d hd
    have hne : d ≠ c := fun heq => h (heq ▸ hd)
    simpa using hne

theorem cutAt_beq_eq_some_iff (c : Char) (cs before after : List Char) (s : Char) :
    cutAt (· == c) cs = some (before, s, after) ↔
      s = c ∧ c ∉ before ∧ cs = before ++ c :: after := by
  rw [cutAt_eq_some_iff, ← cutAt_eq_none_iff, cutAt_beq_eq_none_iff, beq_iff_eq]
  constructor
  · rintro ⟨rfl, hbefore, hcs⟩
    exact ⟨rfl, hbefore, hcs⟩
  · rintro ⟨rfl, hbefore, hcs⟩
    exact ⟨rfl, hbefore, hcs⟩

end Text

end AprsRelay
