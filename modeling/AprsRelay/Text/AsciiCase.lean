/-!
# Letter Case

Texts compared without regard to the case of ASCII letters. Every other
character, accented letters included, stands for itself.

## Main definitions

* `lowered`: A text with its ASCII capitals replaced by small letters.
* `sameLetters`: Equality up to the case of ASCII letters.

## Theorems

* `sameLetters_iff`, `sameLetters_refl`, `sameLetters_symm`, `sameLetters_trans`:
  It is an equivalence.
-/

namespace AprsRelay

namespace Text

/-- A text with its ASCII capitals replaced by small letters. -/
def lowered (s : String) : String :=
  String.ofList (s.toList.map Char.toLower)

/-- Equality up to the case of ASCII letters. -/
def sameLetters (a b : String) : Bool :=
  lowered a == lowered b

/-- Two texts are the same up to case when their lowered forms are equal. -/
theorem sameLetters_iff (a b : String) : sameLetters a b = true ↔ lowered a = lowered b := by
  simp [sameLetters]

@[simp]
theorem sameLetters_refl (a : String) : sameLetters a a = true := by
  simp [sameLetters]

theorem sameLetters_symm (a b : String) (h : sameLetters a b = true) :
    sameLetters b a = true := by
  rw [sameLetters_iff] at h ⊢
  exact h.symm

theorem sameLetters_trans (a b c : String) (hab : sameLetters a b = true)
    (hbc : sameLetters b c = true) : sameLetters a c = true := by
  rw [sameLetters_iff] at hab hbc ⊢
  exact hab.trans hbc

end Text

end AprsRelay
