import AprsRelay.Text.Blank

/-!
# Words

The words of a text are its longest runs of characters that are not blank.

## Main definitions

* `words`: The words of a text, in order.

## Theorems

* `ne_nil_of_mem_words`: No word is empty.
* `not_blank_of_mem_words`: No word holds a blank.
* `words_append_cons`: A blank separates the words around it.
-/

namespace AprsRelay

namespace Text

/-- The words of a text: what stands between blanks, empty pieces dropped. -/
def words (cs : List Char) : List (List Char) :=
  (cs.splitOnP isBlank).filter (fun w => !w.isEmpty)

@[simp]
theorem words_nil : words [] = [] := by
  simp [words]

theorem ne_nil_of_mem_words (cs w : List Char) (h : w ∈ words cs) : w ≠ [] := by
  simp only [words, List.mem_filter] at h
  rintro rfl
  simp at h

theorem not_blank_of_mem_words (cs w : List Char) (h : w ∈ words cs) :
    ∀ c ∈ w, isBlank c = false := by
  -- That the piece is not empty does not matter here.
  have hmem : w ∈ cs.splitOnP isBlank := (List.mem_filter.1 h).1
  clear h
  induction cs generalizing w with
  | nil =>
      obtain rfl : w = [] := by simpa using hmem
      simp
  | cons c cs ih =>
      rw [List.splitOnP_cons_eq_if_modifyHead] at hmem
      split at hmem
      · rcases List.mem_cons.1 hmem with rfl | hmem
        · simp
        · exact ih w hmem
      · -- The character is not blank, so it joins the first piece of the rest.
        rename_i hc
        cases hs : cs.splitOnP isBlank with
        | nil => simp [hs] at hmem
        | cons first rest =>
            rw [hs, List.modifyHead_cons] at hmem
            rcases List.mem_cons.1 hmem with rfl | hmem
            · intro d hd
              rcases List.mem_cons.1 hd with rfl | hd
              · simpa using hc
              · exact ih first (by simp [hs]) d hd
            · exact ih w (by simp [hs, hmem])

/-- A blank separates the words before it from those behind it. -/
theorem words_append_cons (a b : List Char) (c : Char) (hc : isBlank c = true) :
    words (a ++ c :: b) = words a ++ words b := by
  rw [words, List.splitOnP_append_cons a b hc, List.filter_append, words, words]

end Text

end AprsRelay
