/-!
# Blank Characters

The characters that separate words and may stand around a value. The class is
the Unicode property White_Space, so it holds the no-break spaces and the line
and paragraph separators, and it leaves out the zero-width ones.

## Main definitions

* `isBlank`: The class itself.
* `trimEnd`, `trim`: A text without the blanks at its end, or at both ends.
* `isBlankText`: Texts that hold nothing but blanks.

## Theorems

* `isBlankText_iff`: A text is blank when each of its characters is.
-/

namespace AprsRelay

namespace Text

/-- A character with the Unicode property White_Space. -/
def isBlank (c : Char) : Bool :=
  let n := c.toNat
  (0x09 ≤ n && n ≤ 0x0D) || n == 0x20 || n == 0x85 || n == 0xA0 || n == 0x1680 ||
    (0x2000 ≤ n && n ≤ 0x200A) || n == 0x2028 || n == 0x2029 || n == 0x202F ||
    n == 0x205F || n == 0x3000

/-- A text without the blanks at its end. -/
def trimEnd (cs : List Char) : List Char :=
  (cs.reverse.dropWhile isBlank).reverse

/-- A text without the blanks at its start and its end. -/
def trim (cs : List Char) : List Char :=
  trimEnd (cs.dropWhile isBlank)

/-- A text of blanks alone; the empty text is one. -/
def isBlankText (s : String) : Bool :=
  s.toList.all isBlank

theorem isBlankText_iff (s : String) :
    isBlankText s = true ↔ ∀ c ∈ s.toList, isBlank c = true := by
  simp [isBlankText]

end Text

end AprsRelay
