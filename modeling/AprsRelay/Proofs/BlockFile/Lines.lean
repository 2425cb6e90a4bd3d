import AprsRelay.BlockFile.Line

/-!
# The Lines of a File That Count

The reader decides by the words of a line whether the line counts: there has
to be a first word, and it may not start with `#`. Whoever writes the file
sees the line instead, and looks at what is left of it between the blanks at
its two ends. Both ways of looking pick the same lines.

## Main definitions

* `Text.isNoted`: A line that is neither empty nor a comment.
* `fileLines`: The lines of a text that count, with their numbers.

## Theorems

* `head?_words`: The first word starts where the trimmed line starts.
* `significantLines_eq`: The reader takes up exactly the lines that count.
* `pairwise_number_fileLines`: Their numbers ascend.
-/

namespace AprsRelay

namespace Text

-- Blanks in front of a text do not change its words.
theorem words_dropWhile (cs : List Char) : words (cs.dropWhile isBlank) = words cs := by
  induction cs with
  | nil => rfl
  | cons c cs ih =>
      rw [List.dropWhile_cons]
      by_cases hc : isBlank c = true
      · have hcons : words (c :: cs) = words [] ++ words cs := words_append_cons [] cs c hc
        rw [if_pos hc, ih, hcons, words_nil, List.nil_append]
      · rw [if_neg hc]

-- A text that starts with no blank starts with its first word.
theorem words_cons_of_not_blank (c : Char) (cs : List Char) (hc : isBlank c = false) :
    ∃ w ws, words (c :: cs) = (c :: w) :: ws := by
  cases hsplit : cs.splitOnP isBlank with
  | nil => exact absurd hsplit (List.splitOnP_ne_nil isBlank cs)
  | cons first rest =>
      refine ⟨first, rest.filter (fun w => !w.isEmpty), ?_⟩
      rw [words, List.splitOnP_cons_eq_if_modifyHead, hc, if_neg Bool.false_ne_true, hsplit,
        List.modifyHead_cons, List.filter_cons_of_pos (by simp)]

-- A text without blanks is a word.
theorem words_of_not_blank (cs : List Char) (hne : cs ≠ [])
    (hcs : ∀ c ∈ cs, isBlank c = false) : words cs = [cs] := by
  rw [words, List.splitOnP_eq_singleton hcs, List.filter_cons_of_pos (by simpa using hne),
    List.filter_nil]

-- Only what follows the last character that is not blank is taken away at
-- the end.
theorem trimEnd_cons_of_not_blank (c : Char) (cs : List Char) (hc : isBlank c = false) :
    trimEnd (c :: cs) = c :: trimEnd cs := by
  have hlast : [c].dropWhile isBlank = [c] := by
    rw [List.dropWhile_cons, hc, if_neg Bool.false_ne_true]
  rw [trimEnd, List.reverse_cons, List.dropWhile_append, hlast, trimEnd]
  split
  · rename_i hempty
    rw [List.isEmpty_iff.1 hempty]
    rfl
  · rw [List.reverse_append, List.reverse_singleton, List.singleton_append]

/-- The first word of a text and the text without the blanks around it start
    with the same character, or there is neither. -/
theorem head?_words (cs : List Char) : (words cs).head?.bind List.head? = (trim cs).head? := by
  rw [← words_dropWhile, trim]
  cases hcs : cs.dropWhile isBlank with
  | nil => rfl
  | cons c rest =>
      have hc : isBlank c = false := by
        have hhead := List.head?_dropWhile_not isBlank cs
        rw [hcs] at hhead
        simpa using hhead
      rcases words_cons_of_not_blank c rest hc with ⟨w, ws, hwords⟩
      rw [hwords, trimEnd_cons_of_not_blank c rest hc]
      rfl

/-- A line that is neither empty nor a comment, once the blanks around it are
    taken away. -/
def isNoted (cs : List Char) : Bool :=
  trim cs ≠ [] && (trim cs).head? ≠ some '#'

end Text

/-- The lines of a text that count, numbered from one. The name of such a line
    is its first word in small letters. -/
def fileLines (text : String) : List Line :=
  (((text.toList.splitOn '\n').zipIdx 1).filter fun (cs, _) => Text.isNoted cs).map
    fun (cs, number) =>
      ⟨number, Text.lowered (String.ofList ((Text.words cs).headD [])),
        (Text.words cs).tail.map String.ofList⟩

-- No argument holds a blank.
theorem not_blank_of_mem_args (text : String) (l : Line) (hl : l ∈ fileLines text) (arg : String)
    (harg : arg ∈ l.args) : ∀ c ∈ arg.toList, Text.isBlank c = false := by
  rcases List.mem_map.1 hl with ⟨⟨cs, number⟩, -, rfl⟩
  rcases List.mem_map.1 harg with ⟨w, hw, rfl⟩
  rw [String.toList_ofList]
  exact Text.not_blank_of_mem_words cs w (List.mem_of_mem_tail hw)

-- The words of a line make a significant line exactly when the line counts.
theorem ofWords?_words (number : Nat) (cs : List Char) :
    Line.ofWords? number (Text.words cs) =
      if Text.isNoted cs then
        some ⟨number, Text.lowered (String.ofList ((Text.words cs).headD [])),
          (Text.words cs).tail.map String.ofList⟩
      else none := by
  have hhead := Text.head?_words cs
  cases hwords : Text.words cs with
  | nil =>
      have htrim : Text.trim cs = [] := by
        rw [hwords] at hhead
        exact List.head?_eq_none_iff.1 hhead.symm
      simp [Line.ofWords?, Text.isNoted, htrim]
  | cons first others =>
      have hfirst : first ≠ [] :=
        Text.ne_nil_of_mem_words cs first (by rw [hwords]; exact List.mem_cons_self)
      have hne : Text.trim cs ≠ [] := by
        intro htrim
        rw [hwords, htrim] at hhead
        exact hfirst (List.head?_eq_none_iff.1 hhead)
      have hstart : first.head? = (Text.trim cs).head? := by
        rw [hwords] at hhead
        exact hhead
      by_cases hcomment : first.head? = some '#'
      · simp [Line.ofWords?, Text.isNoted, hcomment, ← hstart]
      · simp [Line.ofWords?, Text.isNoted, hcomment, ← hstart, hne]

/-- The reader takes up exactly the lines that count. -/
theorem significantLines_eq (text : String) : significantLines text = fileLines text := by
  unfold significantLines fileLines
  rw [← List.filterMap_eq_map, List.filterMap_filter]
  congr 1
  funext piece
  exact ofWords?_words piece.2 piece.1

/-- The numbers of the lines that count ascend from the first to the last. -/
theorem pairwise_number_fileLines (text : String) :
    ((fileLines text).map Line.number).Pairwise (· < ·) := by
  have hall : (((text.toList.splitOn '\n').zipIdx 1).map Prod.snd).Pairwise (· < ·) := by
    rw [List.zipIdx_map_snd]
    exact List.pairwise_lt_range'
  rw [fileLines, List.map_map]
  exact hall.sublist (List.filter_sublist.map Prod.snd)

end AprsRelay
