import AprsRelay.Frame

/-!
# Parts of a Frame

A line is cut at the first separator that can end each part, so no part of a
parsed frame holds a separator that would have ended it sooner. Such parts make
one line, and are what that line is read as. Every other line lacks something,
and it can be told from the line what that is.

## Main definitions

* `ReadAs`: What a line is read as, by what stands in it.

## Theorems

* `readAs_parse`, `parse_of_readAs`, `parse_eq_iff_readAs`: A line is read as
  what stands in it.
* `parse_wellFormed`: The parts of a parsed frame can be told apart again.
* `parse_eq_ok_iff`: Reading and writing are inverse to each other.
* `parse_eq_missingSource_iff`: When the source call is missing.
-/

namespace AprsRelay

namespace Frame

/-- What a line is read as. A line is a frame if parts that can be told apart
    make it. Otherwise something is missing behind what is there. -/
inductive ReadAs (line : String) : Except FrameError Frame → Prop
  | missingSource (hline : '>' ∉ line.toList ∨ line.toList.head? = some '>') :
      ReadAs line (.error .missingSource)
  | missingDestination (source rest : List Char) (ending : Char) (hsource : source ≠ [])
      (harrow : '>' ∉ source) (hending : endsDestination ending = true)
      (hline : line.toList = source ++ '>' :: ending :: rest) :
      ReadAs line (.error .missingDestination)
  | missingPayload (source rest : List Char) (hsource : source ≠ []) (harrow : '>' ∉ source)
      (hcomma : rest.head? ≠ some ',') (hcolon : ':' ∉ rest)
      (hline : line.toList = source ++ '>' :: rest) :
      ReadAs line (.error .missingPayload)
  | frame (f : Frame) (hf : f.WellFormed) (hline : f.text = line) :
      ReadAs line (.ok f)

-- A destination call holds none of the characters that would have ended it.
theorem endsDestination_eq_false_iff (destination : List Char) :
    (∀ c ∈ destination, endsDestination c = false) ↔ ',' ∉ destination ∧ ':' ∉ destination := by
  constructor
  · intro hends
    exact ⟨fun hmem => by simpa [endsDestination] using hends ',' hmem,
      fun hmem => by simpa [endsDestination] using hends ':' hmem⟩
  · rintro ⟨hcomma, hcolon⟩ c hc
    have hne : c ≠ ',' := fun h => hcomma (h ▸ hc)
    have hne' : c ≠ ':' := fun h => hcolon (h ▸ hc)
    simp [endsDestination, hne, hne']

/-! ## Soundness -/

-- What follows two calls that are free of separators completes them to a
-- frame, or has no `:`.
theorem readAs_parseRest (line : String) (source destination rest : List Char) (ending : Char)
    (hsource : source ≠ []) (harrow : '>' ∉ source) (hdestination : destination ≠ [])
    (hends : ∀ c ∈ destination, endsDestination c = false)
    (hending : endsDestination ending = true)
    (hline : line.toList = source ++ '>' :: (destination ++ ending :: rest)) :
    ReadAs line (parseRest source destination ending rest) := by
  rcases (endsDestination_eq_false_iff destination).1 hends with ⟨hcomma, hcolon⟩
  have hwellFormed : ∀ via payload, (∀ path, via = some path → ':' ∉ path.toList) →
      WellFormed ⟨String.ofList source, String.ofList destination, via, payload⟩ := by
    intro via payload hvia
    exact ⟨by simpa using hsource, by simpa using harrow, by simpa using hdestination,
      by simpa using hcomma, by simpa using hcolon, hvia⟩
  unfold parseRest
  split
  case isTrue heq =>
      refine .frame _ (hwellFormed none _ nofun) ?_
      rw [← String.toList_inj, hline, heq]
      simp [text, header]
  case isFalse hne =>
      have heq : ending = ',' := by simpa [endsDestination, hne] using hending
      cases hcut : Text.cutAt (· == ':') rest with
      | none =>
          have hrest := (Text.cutAt_beq_eq_none_iff _ _).1 hcut
          refine .missingPayload source _ hsource harrow ?_ ?_ hline
          · -- The destination call starts with something else than `,`.
            cases destination with
            | nil => exact absurd rfl hdestination
            | cons c destination => exact fun h => hcomma (by simp [Option.some.inj h])
          · simp [hcolon, hrest, heq]
      | some cut =>
          rcases cut with ⟨path, colon, payload⟩
          rcases (Text.cutAt_beq_eq_some_iff _ _ _ _ _).1 hcut with ⟨-, hpath, hrest⟩
          refine .frame _ (hwellFormed (some (String.ofList path)) _ ?_) ?_
          · intro via hvia
            rcases Option.some.inj hvia with rfl
            simpa using hpath
          · rw [← String.toList_inj, hline, heq, hrest]
            simp [text, header]

/-- A line is read as something that stands in it. -/
theorem readAs_parse (line : String) : ReadAs line (parse line) := by
  unfold parse
  split
  · rename_i hcut
    exact .missingSource (.inl ((Text.cutAt_beq_eq_none_iff _ _).1 hcut))
  · rename_i arrow rest hcut
    rcases (Text.cutAt_beq_eq_some_iff _ _ _ _ _).1 hcut with ⟨-, -, hline⟩
    exact .missingSource (.inr (by rw [hline]; rfl))
  · rename_i source arrow rest hne hcut
    rcases (Text.cutAt_beq_eq_some_iff _ _ _ _ _).1 hcut with ⟨-, harrow, hline⟩
    have hsource : source ≠ [] := fun h => by simp [h] at hne
    split
    · rename_i hcut'
      rcases (endsDestination_eq_false_iff rest).1 ((Text.cutAt_eq_none_iff _ _).1 hcut') with
        ⟨hcomma, hcolon⟩
      exact .missingPayload source rest hsource harrow
        (fun h => hcomma (List.mem_of_mem_head? h)) hcolon hline
    · rename_i ending rest' hcut'
      rcases (Text.cutAt_eq_some_iff _ _ _ _ _).1 hcut' with ⟨hending, -, hrest⟩
      exact .missingDestination source rest' ending hsource harrow hending (by rw [hline, hrest]; rfl)
    · rename_i destination ending rest' hne' hcut'
      rcases (Text.cutAt_eq_some_iff _ _ _ _ _).1 hcut' with ⟨hending, hends, hrest⟩
      have hdestination : destination ≠ [] := fun h => by simp [h] at hne'
      exact readAs_parseRest line source destination rest' ending hsource harrow hdestination
        hends hending (by rw [hline, hrest])

/-! ## Completeness -/

-- A line is cut behind its source call first.
theorem parse_of_source (line : String) (source rest : List Char) (hsource : source ≠ [])
    (harrow : '>' ∉ source) (hline : line.toList = source ++ '>' :: rest) :
    parse line =
      match Text.cutAt endsDestination rest with
      | none => .error .missingPayload
      | some ([], _, _) => .error .missingDestination
      | some (destination, ending, rest) => parseRest source destination ending rest := by
  have hcut : Text.cutAt (· == '>') line.toList = some (source, '>', rest) :=
    (Text.cutAt_beq_eq_some_iff _ _ _ _ _).2 ⟨rfl, harrow, hline⟩
  unfold parse
  rw [hcut]
  cases source with
  | nil => exact absurd rfl hsource
  | cons a source => rfl

-- Behind a destination call that is there, the line is cut once more.
theorem parse_of_calls (line : String) (source destination rest : List Char) (ending : Char)
    (hsource : source ≠ []) (harrow : '>' ∉ source) (hdestination : destination ≠ [])
    (hends : ∀ c ∈ destination, endsDestination c = false)
    (hending : endsDestination ending = true)
    (hline : line.toList = source ++ '>' :: (destination ++ ending :: rest)) :
    parse line = parseRest source destination ending rest := by
  have hcut : Text.cutAt endsDestination (destination ++ ending :: rest) =
      some (destination, ending, rest) :=
    (Text.cutAt_eq_some_iff _ _ _ _ _).2 ⟨hending, hends, rfl⟩
  rw [parse_of_source line source _ hsource harrow hline, hcut]
  cases destination with
  | nil => exact absurd rfl hdestination
  | cons c destination => rfl

/-- A frame whose parts can be told apart is read back from its text. -/
theorem parse_text (f : Frame) (hf : f.WellFormed) : parse f.text = .ok f := by
  rcases f with ⟨source, destination, via, payload⟩
  rcases hf with ⟨hsource, harrow, hdestination, hcomma, hcolon, hvia⟩
  have hends := (endsDestination_eq_false_iff destination.toList).2 ⟨hcomma, hcolon⟩
  cases via with
  | none =>
      rw [parse_of_calls _ source.toList destination.toList payload.toList ':'
        (by simpa using hsource) harrow (by simpa using hdestination) hends rfl
        (by simp [text, header])]
      simp [parseRest]
  | some path =>
      have hcut : Text.cutAt (· == ':') (path.toList ++ ':' :: payload.toList) =
          some (path.toList, ':', payload.toList) :=
        (Text.cutAt_beq_eq_some_iff _ _ _ _ _).2 ⟨rfl, hvia path rfl, rfl⟩
      rw [parse_of_calls _ source.toList destination.toList
        (path.toList ++ ':' :: payload.toList) ','
        (by simpa using hsource) harrow (by simpa using hdestination) hends rfl
        (by simp [text, header])]
      simp [parseRest, hcut]

/-- Whatever stands in a line, it is read as nothing else. -/
theorem parse_of_readAs (line : String) (outcome : Except FrameError Frame)
    (h : ReadAs line outcome) : parse line = outcome := by
  cases h with
  | missingSource hline =>
      unfold parse
      cases hcut : Text.cutAt (· == '>') line.toList with
      | none => rfl
      | some cut =>
          rcases cut with ⟨source, arrow, rest⟩
          rcases (Text.cutAt_beq_eq_some_iff _ _ _ _ _).1 hcut with ⟨-, harrow, heq⟩
          rcases hline with hnone | hhead
          · exact absurd (by simp [heq]) hnone
          · cases source with
            | nil => rfl
            | cons c source =>
                rw [heq] at hhead
                exact absurd (by simp [Option.some.inj hhead]) harrow
  | missingDestination source rest ending hsource harrow hending hline =>
      have hcut : Text.cutAt endsDestination (ending :: rest) = some ([], ending, rest) :=
        (Text.cutAt_eq_some_iff _ _ _ _ _).2 ⟨hending, nofun, rfl⟩
      rw [parse_of_source line source _ hsource harrow hline, hcut]
  | missingPayload source rest hsource harrow hcomma hcolon hline =>
      cases hcut : Text.cutAt endsDestination rest with
      | none => rw [parse_of_source line source rest hsource harrow hline, hcut]
      | some cut =>
          rcases cut with ⟨destination, ending, rest'⟩
          rcases (Text.cutAt_eq_some_iff _ _ _ _ _).1 hcut with ⟨hending, hends, rfl⟩
          -- The destination call ends with `,`, as there is no `:`, so it is there.
          have hne : ending ≠ ':' := fun h => hcolon (by simp [h])
          have heq : ending = ',' := by simpa [endsDestination, hne] using hending
          have hdestination : destination ≠ [] := by
            rintro rfl
            exact hcomma (by rw [heq]; rfl)
          have hcut' : Text.cutAt (· == ':') rest' = none :=
            (Text.cutAt_beq_eq_none_iff _ _).2 fun h => hcolon (by simp [h])
          rw [parse_of_calls line source destination rest' ending hsource harrow hdestination
            hends hending hline, parseRest, if_neg hne, hcut']
  | frame f hf hline =>
      rw [← hline]
      exact parse_text f hf

/-- A line is read as what stands in it. -/
theorem parse_eq_iff_readAs (line : String) (outcome : Except FrameError Frame) :
    parse line = outcome ↔ ReadAs line outcome := by
  constructor
  · rintro rfl
    exact readAs_parse line
  · exact parse_of_readAs line outcome

/-! ## Frames, and lines that are none -/

/-- Reading a line and writing a frame are inverse to each other: the frames
    that are read are those whose parts can be told apart. -/
theorem parse_eq_ok_iff (line : String) (f : Frame) :
    parse line = .ok f ↔ f.WellFormed ∧ f.text = line := by
  rw [parse_eq_iff_readAs]
  constructor
  · intro h
    cases h with
    | frame _ hf hline => exact ⟨hf, hline⟩
  · rintro ⟨hf, hline⟩
    exact .frame f hf hline

/-- The parts of a parsed frame can be told apart again. -/
theorem parse_wellFormed (line : String) (f : Frame) (h : parse line = .ok f) :
    f.WellFormed :=
  ((parse_eq_ok_iff line f).1 h).1

/-- A line has no source call exactly when it has no `>` or starts with one. -/
theorem parse_eq_missingSource_iff (line : String) :
    parse line = .error .missingSource ↔
      '>' ∉ line.toList ∨ line.toList.head? = some '>' := by
  rw [parse_eq_iff_readAs]
  constructor
  · intro h
    cases h with
    | missingSource hline => exact hline
  · exact .missingSource

end Frame

end AprsRelay
