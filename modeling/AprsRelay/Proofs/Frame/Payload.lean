import AprsRelay.Proofs.Frame.Parts
import AprsRelay.Verdict

/-!
# Payloads

The payload of a frame is whatever its sender likes, so nothing that is decided
about a frame may depend on it. The header is what stands before the first `:`
of the line, and two lines with one header should be read alike whatever
follows that `:`.

A line is read from left to right, and a part that has been read does not
change when the line goes on: behind a line that is a frame, further text is
more payload (`parse_append_of_ok`), and a destination call that is missing
stays missing (`parse_append_of_missingDestination`). A header with a `>` and
its `:` is settled in this sense, so the payload is only handed on
(`parse_append_of_arrow`). Then the via path is the same for both lines, and
a verdict depends on nothing else (`judge?_congr`).

A header without `>` is not settled. The line then lacks a source call, but the
first `>` is looked for in the whole line, so a `>` in the payload makes
something else of it (`parse_append_eq_missingSource_iff`).

## Main definitions

* `Frame.withPayload`: A frame with another payload.
* `Frame.SameHeader`: Two outcomes that differ in the payload at most.

## Theorems

* `parse_append_of_ok`, `parse_append_of_missingDestination`: What a longer
  line is read as.
* `parse_append_of_arrow`: A header with `>` hands the payload on.
* `parse_append_eq_missingSource_iff`: A header without `>` is refused for it
  unless the payload has one.
* `not_sameHeader_of_mem`: Such a header lets the payload decide.
* `sameHeader_parse_iff`: The headers whose frames the payload cannot change.
-/

namespace AprsRelay

namespace Frame

/-- A frame with another payload. -/
def withPayload (payload : String) (f : Frame) : Frame :=
  { f with payload := payload }

-- Any payload goes with parts that can be told apart.
theorem WellFormed.withPayload {f : Frame} (hf : f.WellFormed) (payload : String) :
    (f.withPayload payload).WellFormed where
  source_ne_empty := hf.source_ne_empty
  source_no_arrow := hf.source_no_arrow
  destination_ne_empty := hf.destination_ne_empty
  destination_no_comma := hf.destination_no_comma
  destination_no_colon := hf.destination_no_colon
  via_no_colon := hf.via_no_colon

/-- Two outcomes with one header: the lines are refused for the same reason, or
    are read as frames that differ in their payloads, which are given. -/
def SameHeader (p q : String) : Except FrameError Frame → Except FrameError Frame → Prop
  | .error e, .error e' => e = e'
  | .ok f, .ok g =>
    f.source = g.source ∧ f.destination = g.destination ∧ f.viaSegment = g.viaSegment ∧
      f.payload = p ∧ g.payload = q
  | .error _, .ok _ | .ok _, .error _ => False

-- Outcomes that are made of one by handing payloads on have one header.
theorem sameHeader_map (p q : String) (outcome : Except FrameError Frame) :
    SameHeader p q (outcome.map (withPayload p)) (outcome.map (withPayload q)) := by
  cases outcome with
  | error e => exact rfl
  | ok f => exact ⟨rfl, rfl, rfl, rfl, rfl⟩

/-- Behind a line that is a frame, further text is more payload. -/
theorem parse_append_of_ok (line more : String) (f : Frame) (h : parse line = .ok f) :
    parse (line ++ more) = .ok (f.withPayload (f.payload ++ more)) := by
  rcases (parse_eq_ok_iff line f).1 h with ⟨hf, htext⟩
  refine (parse_eq_ok_iff _ _).2 ⟨hf.withPayload _, ?_⟩
  rw [← htext, text, text, String.append_assoc]
  rfl

/-- A missing destination call stays missing when the line goes on. -/
theorem parse_append_of_missingDestination (line more : String)
    (h : parse line = .error .missingDestination) :
    parse (line ++ more) = .error .missingDestination := by
  cases (parse_eq_iff_readAs _ _).1 h with
  | missingDestination source rest ending hsource harrow hending hline =>
      refine parse_of_readAs _ _
        (.missingDestination source (rest ++ more.toList) ending hsource harrow hending ?_)
      simp [hline]

-- The last character of a text is the last one of every part that ends it.
theorem exists_eq_concat (cs xs ys : List Char) (c : Char) (hne : ys ≠ [])
    (h : cs ++ [c] = xs ++ ys) : ∃ zs, ys = zs ++ [c] ∧ cs = xs ++ zs := by
  rcases List.eq_nil_or_concat ys with hnil | ⟨zs, d, rfl⟩
  · exact absurd hnil hne
  · rw [List.concat_eq_append, ← List.append_assoc] at h
    rw [List.concat_eq_append]
    rcases List.append_inj' h rfl with ⟨hcs, hc⟩
    exact ⟨zs, by rw [hc], hcs⟩

-- A header that ends with `:` has a place for its payload.
theorem parse_colon_ne_missingPayload (header : String) :
    parse (header ++ ":") ≠ .error .missingPayload := by
  intro h
  cases (parse_eq_iff_readAs _ _).1 h with
  | missingPayload source rest _ _ _ hcolon hline =>
      rcases exists_eq_concat header.toList source ('>' :: rest) ':' (List.cons_ne_nil _ _)
        (by simpa using hline) with ⟨zs, hrest, -⟩
      have hmem : ':' ∈ '>' :: rest := by
        rw [hrest]
        exact List.mem_concat_self
      rcases List.mem_cons.1 hmem with heq | hmem
      · exact absurd heq (by decide)
      · exact hcolon hmem

-- Nothing stands behind the `:` that ends the header.
theorem payload_of_parse_colon (header : String) (hcolon : ':' ∉ header.toList) (f : Frame)
    (h : parse (header ++ ":") = .ok f) : f.payload = "" := by
  have hcolon' : ∃ before, f.header.toList = before ++ [':'] := by
    unfold Frame.header
    cases f.via with
    | none => exact ⟨_, String.toList_append⟩
    | some path =>
        refine ⟨(f.source ++ ">" ++ f.destination ++ ("," ++ path)).toList, ?_⟩
        simp
  rcases hcolon' with ⟨before, hbefore⟩
  have hline : header.toList ++ [':'] = before ++ ':' :: f.payload.toList := by
    have htext := congrArg String.toList ((parse_eq_ok_iff _ f).1 h).2
    simpa [text, hbefore] using htext.symm
  rcases exists_eq_concat _ _ _ _ (List.cons_ne_nil _ _) hline with ⟨zs, hpayload, hheader⟩
  cases zs with
  | nil => simpa using hpayload
  | cons z zs =>
      -- Then the first `:` would belong to the header.
      have hz : z = ':' := (List.cons.inj hpayload).1.symm
      exact absurd (by simp [hheader, hz]) hcolon

/-- A header with a `>` settles everything but the payload, which is handed
    on. -/
theorem parse_append_of_arrow (header payload : String) (hcolon : ':' ∉ header.toList)
    (harrow : '>' ∈ header.toList) :
    parse (header ++ ":" ++ payload) = (parse (header ++ ":")).map (withPayload payload) := by
  cases hparse : parse (header ++ ":") with
  | ok f =>
      rw [parse_append_of_ok _ payload f hparse, payload_of_parse_colon header hcolon f hparse]
      simp [Except.map]
  | error e =>
      cases e with
      | missingSource =>
          -- The line starts with `>`, and still does so when it goes on.
          rcases (parse_eq_missingSource_iff _).1 hparse with hnone | hhead
          · exact absurd (by simp [harrow]) hnone
          · refine (parse_eq_missingSource_iff _).2 (.inr ?_)
            rw [String.toList_append, List.head?_append, hhead]
            rfl
      | missingDestination =>
          exact parse_append_of_missingDestination _ payload hparse
      | missingPayload => exact absurd hparse (parse_colon_ne_missingPayload header)

/-- A header without `>` is refused for that only as long as the payload has
    none either: otherwise the `>` of the payload is taken for the one behind
    the source call. -/
theorem parse_append_eq_missingSource_iff (header : String) (harrow : '>' ∉ header.toList)
    (payload : String) :
    parse (header ++ ":" ++ payload) = .error .missingSource ↔ '>' ∉ payload.toList := by
  have hhead : (header ++ ":" ++ payload).toList.head? ≠ some '>' := by
    cases hcs : header.toList with
    | nil => simp [hcs]
    | cons c cs =>
        have hc : c ≠ '>' := fun h => harrow (by simp [hcs, h])
        simpa [hcs] using hc
  rw [parse_eq_missingSource_iff, or_iff_left hhead]
  simp [harrow]

/-- Without a `>` in the header, a payload with a `>` is told from one without. -/
theorem not_sameHeader_of_mem (header p q : String) (harrow : '>' ∉ header.toList)
    (hp : '>' ∉ p.toList) (hq : '>' ∈ q.toList) :
    ¬ SameHeader p q (parse (header ++ ":" ++ p)) (parse (header ++ ":" ++ q)) := by
  have hparse := (parse_append_eq_missingSource_iff header harrow p).2 hp
  have hne := mt (parse_append_eq_missingSource_iff header harrow q).1 (fun h => h hq)
  rw [hparse]
  cases hparse' : parse (header ++ ":" ++ q) with
  | ok g => exact id
  | error e =>
      rw [hparse'] at hne
      exact fun h => hne (congrArg Except.error (Eq.symm h))

end Frame

-- A verdict depends on the via path and on nothing else of the frame.
theorem Station.judge?_congr (s : Station) (id : SourceId) (f g : Frame)
    (h : f.viaSegment = g.viaSegment) : s.judge? id f = s.judge? id g := by
  simp only [Station.judge?, h]

namespace Frame

/-- The payload changes nothing exactly if the header has a `>`. With such a
    header no source of any station can tell the frames apart; without one the
    missing source call is reported only if the payload has no `>` either. -/
theorem sameHeader_parse_iff (header : String) (hcolon : ':' ∉ header.toList) :
    ((∀ p q, SameHeader p q (parse (header ++ ":" ++ p)) (parse (header ++ ":" ++ q))) ↔
      '>' ∈ header.toList) ∧
    ('>' ∈ header.toList → ∀ p q f g, parse (header ++ ":" ++ p) = .ok f →
      parse (header ++ ":" ++ q) = .ok g →
        ∀ (s : Station) (id : SourceId), s.judge? id f = s.judge? id g) ∧
    ('>' ∉ header.toList → ∀ p,
      (parse (header ++ ":" ++ p) = .error .missingSource ↔ '>' ∉ p.toList)) := by
  have hsame : '>' ∈ header.toList → ∀ p q,
      SameHeader p q (parse (header ++ ":" ++ p)) (parse (header ++ ":" ++ q)) := by
    intro harrow p q
    rw [parse_append_of_arrow header p hcolon harrow, parse_append_of_arrow header q hcolon harrow]
    exact sameHeader_map p q _
  refine ⟨⟨fun h => ?_, hsame⟩, ?_, parse_append_eq_missingSource_iff header⟩
  · by_cases harrow : '>' ∈ header.toList
    · exact harrow
    · exact absurd (h "" ">") (not_sameHeader_of_mem header "" ">" harrow (by simp) (by simp))
  · intro harrow p q f g hf hg s id
    have hpq := hsame harrow p q
    rw [hf, hg] at hpq
    exact s.judge?_congr id f g hpq.2.2.1

/-- A header with two hops in its via path, before two payloads that hold
    every separator. -/
theorem sameHeader_parse_iff_plain :
    ':' ∉ "OH7LZB>APRS,WIDE1-1".toList ∧
    SameHeader ":OH2RDP :ack>1,2" ">WIDE2-2:"
      (parse ("OH7LZB>APRS,WIDE1-1" ++ ":" ++ ":OH2RDP :ack>1,2"))
      (parse ("OH7LZB>APRS,WIDE1-1" ++ ":" ++ ">WIDE2-2:")) := by
  have hcolon : ':' ∉ "OH7LZB>APRS,WIDE1-1".toList := by decide +kernel
  exact ⟨hcolon, (sameHeader_parse_iff _ hcolon).1.2 (by decide +kernel) _ _⟩

/-- A header without `>`, before a payload that holds none either and before
    one that holds everything a frame needs. -/
theorem not_sameHeader_of_no_arrow :
    ':' ∉ "APRS".toList ∧
    ¬ SameHeader "hello" ">X,WIDE1-1:y" (parse ("APRS" ++ ":" ++ "hello"))
      (parse ("APRS" ++ ":" ++ ">X,WIDE1-1:y")) :=
  ⟨by decide +kernel, not_sameHeader_of_mem "APRS" "hello" ">X,WIDE1-1:y"
    (by decide +kernel) (by decide +kernel) (by decide +kernel)⟩

end Frame

end AprsRelay
