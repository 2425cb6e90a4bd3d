import AprsRelay.Text.AsciiCase
import AprsRelay.Text.Words

/-!
# Significant Lines

A block file is read line by line. A line counts when it has a word and its
first word does not start with `#`; such a line is a name, which is the first
word in small letters, followed by arguments, which stay as they are written.
The name alone tells whether the line opens a block, may close one, or is a
plain statement.

## Main definitions

* `Line`: A significant line.
* `significantLines`: The significant lines of a text.
* `LineRole`: Opening word, closing word, or neither.
* `LineRole.ofName`: The role that a name gives its line.

## Theorems

* `ofName_opening_iff`, `ofName_closing_iff`: The names that open and that
  may close a block.
-/

namespace AprsRelay

/-- A line that counts: its number, its first word in small letters, and its
    further words as they are written. -/
structure Line where
  number : Nat
  name : String
  args : List String
  deriving DecidableEq, Repr

namespace Line

/-- A line with the given words, unless it is empty or a comment. -/
def ofWords? (number : Nat) : List (List Char) → Option Line
  | [] => none
  | first :: others =>
    if first.head? = some '#' then none
    else some ⟨number, Text.lowered (String.ofList first), others.map String.ofList⟩

end Line

/-- The significant lines of a text, numbered from one. -/
def significantLines (text : String) : List Line :=
  ((text.toList.splitOn '\n').zipIdx 1).filterMap fun (cs, number) =>
    Line.ofWords? number (Text.words cs)

/-- What the name of a line makes of it. -/
inductive LineRole where
  | opening (tag : String)
  | closing (tag : String)
  | plain
  deriving DecidableEq, Repr

namespace LineRole

/-- The text between a leading `<` and a trailing `>`. -/
def bracketed? : List Char → Option (List Char)
  | '<' :: rest => if rest.getLast? = some '>' then some rest.dropLast else none
  | _ => none

/-- The word `<tag>` opens a block, unless the tag is empty, and `</tag>` may
    close one. -/
def ofName (name : String) : LineRole :=
  match bracketed? name.toList with
  | none => plain
  | some [] => plain
  | some ('/' :: tag) => closing (String.ofList tag)
  | some tag => opening (String.ofList tag)

/-- The brackets are the first and the last character, and nothing else is
    asked of the text between them. -/
theorem bracketed?_eq_some_iff (cs inner : List Char) :
    bracketed? cs = some inner ↔ cs = '<' :: (inner ++ ['>']) := by
  constructor
  · intro h
    unfold bracketed? at h
    split at h
    · rename_i rest
      split at h
      · rename_i hlast
        obtain rfl := Option.some.inj h
        obtain ⟨init, rfl⟩ := List.getLast?_eq_some_iff.1 hlast
        simp
      · simp at h
    · simp at h
  · rintro rfl
    simp [bracketed?]

/-- A name opens a block when it is a tag in brackets, where a tag is not empty
    and does not start with a slash. -/
theorem ofName_opening_iff (name tag : String) :
    ofName name = opening tag ↔
      name.toList = '<' :: (tag.toList ++ ['>']) ∧ tag ≠ "" ∧ tag.toList.head? ≠ some '/' := by
  unfold ofName
  cases h : bracketed? name.toList with
  | none =>
      constructor
      · simp
      · rintro ⟨hname, -, -⟩
        rw [(bracketed?_eq_some_iff _ _).2 hname] at h
        simp at h
  | some inner =>
      have hname := (bracketed?_eq_some_iff _ _).1 h
      rw [hname]
      constructor
      · intro hrole
        -- Of the four shapes of a name only the last one opens a block.
        split at hrole
        · simp at hrole
        · simp at hrole
        · simp at hrole
        · rename_i tag' hne hslash heq
          simp only [Option.some.injEq] at heq
          subst heq
          obtain rfl := opening.inj hrole
          refine ⟨by simp, ?_, ?_⟩
          · intro hempty
            apply hne
            have := congrArg String.toList hempty
            simpa using this
          · intro hhead
            cases inner with
            | nil => simp at hhead
            | cons c cs =>
                simp only [String.toList_ofList, List.head?_cons, Option.some.injEq] at hhead
                exact hslash cs (by rw [hhead])
      · rintro ⟨heq, hne, hslash⟩
        -- What stands between the brackets is the tag, so the other shapes are excluded.
        have hinner : inner = tag.toList := by simpa using heq
        subst hinner
        split
        · rename_i heq'
          simp at heq'
        · rename_i heq'
          exact absurd (by simpa using heq') hne
        · rename_i tag' heq'
          simp only [Option.some.injEq] at heq'
          rw [heq'] at hslash
          simp at hslash
        · rename_i heq'
          simp only [Option.some.injEq] at heq'
          rw [← heq', String.ofList_toList]

/-- A name may close a block when it is a tag in brackets behind a slash. -/
theorem ofName_closing_iff (name tag : String) :
    ofName name = closing tag ↔ name.toList = '<' :: '/' :: (tag.toList ++ ['>']) := by
  unfold ofName
  cases h : bracketed? name.toList with
  | none =>
      constructor
      · simp
      · intro hname
        have := (bracketed?_eq_some_iff name.toList ('/' :: tag.toList)).2 (by simpa using hname)
        rw [this] at h
        simp at h
  | some inner =>
      have hname := (bracketed?_eq_some_iff _ _).1 h
      rw [hname]
      constructor
      · intro hrole
        split at hrole
        · simp at hrole
        · simp at hrole
        · rename_i tag' heq
          simp only [Option.some.injEq] at heq
          subst heq
          obtain rfl := closing.inj hrole
          simp
        · simp at hrole
      · intro heq
        -- Both sides end in the closing bracket, which can be taken away.
        have hinner : inner = '/' :: tag.toList :=
          List.append_cancel_right
            (show inner ++ ['>'] = ('/' :: tag.toList) ++ ['>'] by simpa using heq)
        subst hinner
        simp

end LineRole

end AprsRelay
