import AprsRelay.Proofs.Frame.Parts

/-!
# Parts by Their Offsets

A parsed frame can be kept as its line with two marks: the offset of the
character that ends the destination call, and the offset of the payload. Both
count bytes. The source call ends before the first `>` of the line, and every
other part is a slice between two offsets that follow from the marks.

A slice is only there if both its ends are boundaries of characters. `slice?`
makes this explicit: it yields nothing for an offset that is beyond the end of
the line or inside a character. So a statement that a slice is some text says
that the offsets are in bounds and on boundaries as well.

A slice is what stands between surroundings of known size
(`slice?_eq_some_iff`), and the parts of a frame are each other's surroundings,
as they make up the line. That the parts make no other line, and that a line
is read as no other parts, follows from reading and writing being inverse to
each other. For a line that is refused, the relation of what a line is read as
tells what is missing.

## Main definitions

* `Text.splitAtByte?`, `Text.slice?`: A text cut at offsets in bytes.
* `Text.offsetOf?`: The offset of the first character of a kind.
* `Frame.render`, `Frame.Separable`: The line that parts make, with the via path
  as a segment, and parts that can be told apart again.
* `Frame.Marked`: A line with two marks, and the slices that are its parts.

## Theorems

* `splitAtByte?_eq_some_iff`: Where a text can be cut.
* `slice?_eq_some_iff`: What a slice is.
* `exists_parse_iff`: The parts of a frame, and the lines that they make.
* `marked_parts`: The slices of a parsed line are its parts.
* `parse_eq_missingDestination_iff`, `parse_eq_missingPayload_iff`: What else
  can be missing.
* `parse_parts`: Reading, its inverse, and its failures.
-/

namespace AprsRelay

namespace Text

/-! ## Slices -/

/-- A text cut behind the given number of bytes. There is no cut beyond the end
    or inside a character. -/
def splitAtByte? (n : Nat) : List Char → Option (List Char × List Char)
  | [] => if n = 0 then some ([], []) else none
  | c :: cs =>
    if n = 0 then some ([], c :: cs)
    else if c.utf8Size ≤ n then
      (splitAtByte? (n - c.utf8Size) cs).map fun (before, after) => (c :: before, after)
    else none

/-- A text is cut where the part before the cut has the given number of
    bytes. -/
theorem splitAtByte?_eq_some_iff (n : Nat) (cs before after : List Char) :
    splitAtByte? n cs = some (before, after) ↔ cs = before ++ after ∧ byteLength before = n := by
  induction cs generalizing n before with
  | nil =>
      unfold splitAtByte?
      by_cases hn : n = 0
      · rw [if_pos hn, hn]
        constructor
        · intro h
          cases h
          exact ⟨rfl, rfl⟩
        · rintro ⟨hnil, -⟩
          rcases List.append_eq_nil_iff.1 hnil.symm with ⟨rfl, rfl⟩
          rfl
      · rw [if_neg hn]
        constructor
        · intro h
          cases h
        · rintro ⟨hnil, hlength⟩
          rcases List.append_eq_nil_iff.1 hnil.symm with ⟨rfl, rfl⟩
          exact absurd hlength.symm hn
  | cons c cs ih =>
      have hc := c.utf8Size_pos
      unfold splitAtByte?
      by_cases hn : n = 0
      · rw [if_pos hn, hn]
        constructor
        · intro h
          cases h
          exact ⟨rfl, rfl⟩
        · rintro ⟨heq, hlength⟩
          -- A part of no bytes is empty.
          cases before with
          | nil => rw [heq]; rfl
          | cons b before =>
              have hb := b.utf8Size_pos
              rw [byteLength_cons] at hlength
              omega
      · rw [if_neg hn]
        cases before with
        | nil =>
            constructor
            · intro h
              split at h
              · simp at h
              · cases h
            · rintro ⟨-, hlength⟩
              exact absurd hlength.symm hn
        | cons b before =>
            rw [List.cons_append, List.cons.injEq, byteLength_cons]
            by_cases hle : c.utf8Size ≤ n
            · rw [if_pos hle, Option.map_eq_some_iff]
              constructor
              · rintro ⟨⟨before', after'⟩, hcut, heq⟩
                cases heq
                rcases (ih _ _).1 hcut with ⟨hcs, hlength⟩
                exact ⟨⟨rfl, hcs⟩, by omega⟩
              · rintro ⟨⟨rfl, hcs⟩, hlength⟩
                exact ⟨(before, after), (ih _ _).2 ⟨hcs, by omega⟩, rfl⟩
            · rw [if_neg hle]
              constructor
              · intro h
                cases h
              · rintro ⟨⟨rfl, -⟩, hlength⟩
                omega

/-- The part of a line between two offsets. Both have to be boundaries of
    characters, and in order. -/
def slice? (line : String) (start stop : Nat) : Option String :=
  (splitAtByte? stop line.toList).bind fun (upTo, _) =>
    (splitAtByte? start upTo).map fun (_, part) => String.ofList part

/-- A slice is what stands between two surroundings whose sizes are known. -/
theorem slice?_eq_some_iff (line part : String) (start stop : Nat) :
    slice? line start stop = some part ↔
      ∃ before after, line = before ++ part ++ after ∧ byteLength before.toList = start ∧
        byteLength (before ++ part).toList = stop := by
  simp only [slice?, Option.bind_eq_some_iff, Option.map_eq_some_iff, Prod.exists,
    splitAtByte?_eq_some_iff]
  constructor
  · rintro ⟨upTo, after, ⟨hline, hstop⟩, before, part', ⟨rfl, hstart⟩, rfl⟩
    refine ⟨String.ofList before, String.ofList after, ?_, ?_, ?_⟩
    · rw [← String.toList_inj, hline]
      simp
    · rwa [String.toList_ofList]
    · rw [String.toList_append, String.toList_ofList, String.toList_ofList]
      exact hstop
  · rintro ⟨before, after, rfl, hstart, hstop⟩
    refine ⟨(before ++ part).toList, after.toList, ⟨by simp, hstop⟩, before.toList, part.toList,
      ⟨by simp, hstart⟩, ?_⟩
    exact String.ofList_toList

/-- The number of bytes before the first character of a kind. -/
def offsetOf? (p : Char → Bool) (cs : List Char) : Option Nat :=
  (cutAt p cs).map fun (before, _, _) => byteLength before

end Text

namespace Frame

/-! ## Parts that make a line -/

/-- The line that parts make when the via path is given as the segment up to the
    `:` that ends the header. Without a via path there is no comma. -/
def render (source destination segment payload : String) : String :=
  source ++ ">" ++ destination ++ (if segment = "" then ":" else "," ++ segment) ++ payload

/-- Parts that can be told apart again, with the via path as a segment. -/
structure Separable (source destination segment : String) : Prop where
  source_ne_empty : source ≠ ""
  source_no_arrow : '>' ∉ source.toList
  destination_ne_empty : destination ≠ ""
  destination_no_comma : ',' ∉ destination.toList
  destination_no_colon : ':' ∉ destination.toList
  segment : segment = "" ∨ ∃ path, segment = path ++ ":" ∧ ':' ∉ path.toList

theorem append_colon_ne_empty (path : String) : path ++ ":" ≠ "" := by
  intro h
  have hlist := congrArg String.toList h
  simp at hlist

theorem render_of_via (f : Frame) :
    render f.source f.destination f.viaSegment f.payload = f.text := by
  unfold render text header viaSegment
  cases f.via with
  | none => rfl
  | some path =>
      rw [if_neg (append_colon_ne_empty path)]
      simp only [String.append_assoc]

theorem WellFormed.separable {f : Frame} (hf : f.WellFormed) :
    Separable f.source f.destination f.viaSegment where
  source_ne_empty := hf.source_ne_empty
  source_no_arrow := hf.source_no_arrow
  destination_ne_empty := hf.destination_ne_empty
  destination_no_comma := hf.destination_no_comma
  destination_no_colon := hf.destination_no_colon
  segment := by
    unfold viaSegment
    cases hvia : f.via with
    | none => exact .inl rfl
    | some path => exact .inr ⟨path, rfl, hf.via_no_colon path hvia⟩

-- Every segment comes from a via path, or from none.
theorem exists_wellFormed (source destination segment payload : String)
    (h : Separable source destination segment) :
    ∃ f : Frame, f.WellFormed ∧ f.source = source ∧ f.destination = destination ∧
      f.viaSegment = segment ∧ f.payload = payload := by
  rcases h with ⟨hsource, harrow, hdestination, hcomma, hcolon, rfl | ⟨path, rfl, hpath⟩⟩
  · exact ⟨⟨source, destination, none, payload⟩,
      ⟨hsource, harrow, hdestination, hcomma, hcolon, nofun⟩, rfl, rfl, rfl, rfl⟩
  · refine ⟨⟨source, destination, some path, payload⟩,
      ⟨hsource, harrow, hdestination, hcomma, hcolon, ?_⟩, rfl, rfl, rfl, rfl⟩
    intro path' hpath'
    rwa [← Option.some.inj hpath']

/-- A line is read as the parts that make it, if they can be told apart, and as
    no others. -/
theorem exists_parse_iff (line source destination segment payload : String) :
    (∃ f, parse line = .ok f ∧ f.source = source ∧ f.destination = destination ∧
      f.viaSegment = segment ∧ f.payload = payload) ↔
      Separable source destination segment ∧
        render source destination segment payload = line := by
  constructor
  · rintro ⟨f, hparse, rfl, rfl, rfl, rfl⟩
    rcases (parse_eq_ok_iff line f).1 hparse with ⟨hf, htext⟩
    exact ⟨hf.separable, (render_of_via f).trans htext⟩
  · rintro ⟨hparts, hline⟩
    rcases exists_wellFormed source destination segment payload hparts with
      ⟨f, hf, rfl, rfl, rfl, rfl⟩
    exact ⟨f, (parse_eq_ok_iff line f).2 ⟨hf, (render_of_via f).symm.trans hline⟩, rfl, rfl, rfl,
      rfl⟩

/-! ## Slices of a line -/

/-- A line with the offsets of the character that ends the destination call and
    of the payload. -/
structure Marked where
  line : String
  destinationEnd : Nat
  payloadStart : Nat

namespace Marked

/-- What stands before the first `>`. -/
def source? (m : Marked) : Option String :=
  Text.slice? m.line 0 ((Text.offsetOf? (· == '>') m.line.toList).getD 0)

/-- What stands between that `>` and the end of the destination call. -/
def destination? (m : Marked) : Option String :=
  m.source?.bind fun source =>
    Text.slice? m.line (Text.byteLength source.toList + 1) m.destinationEnd

/-- The character that ends the destination call. -/
def ending? (m : Marked) : Option String :=
  Text.slice? m.line m.destinationEnd (m.destinationEnd + 1)

/-- What stands between that character and the payload. -/
def viaSegment? (m : Marked) : Option String :=
  Text.slice? m.line (m.destinationEnd + 1) m.payloadStart

/-- What stands from the payload on. -/
def payload? (m : Marked) : Option String :=
  Text.slice? m.line m.payloadStart (Text.byteLength m.line.toList)

end Marked

section

variable {f : Frame}

-- The first `>` of a frame is the one behind its source call.
theorem offsetOf?_arrow (hf : f.WellFormed) :
    Text.offsetOf? (· == '>') f.text.toList = some (Text.byteLength f.source.toList) := by
  have hcut : Text.cutAt (· == '>') f.text.toList =
      some (f.source.toList, '>', (f.text.toList.drop (f.source.toList.length + 1))) := by
    refine (Text.cutAt_beq_eq_some_iff _ _ _ _ _).2 ⟨rfl, hf.source_no_arrow, ?_⟩
    simp [text, header]
  rw [Text.offsetOf?, hcut]
  rfl

/-- The character that ends the destination call: a comma before a via path, or
    the `:` before the payload. -/
def ending (f : Frame) : String :=
  if f.viaSegment = "" then ":" else ","

theorem byteLength_ending (f : Frame) : Text.byteLength f.ending.toList = 1 := by
  unfold ending
  split <;> rfl

theorem header_eq (f : Frame) :
    f.header = f.source ++ ">" ++ f.destination ++ f.ending ++ f.viaSegment := by
  unfold header ending viaSegment
  cases f.via with
  | none => simp
  | some path => simp [String.append_assoc]

/-- The slices between the marks of a parsed line are the parts of the frame. -/
theorem marked_parts (line : String) (hparse : parse line = .ok f) :
    Marked.source? ⟨line, f.destinationEnd, f.payloadStart⟩ = some f.source ∧
      Marked.destination? ⟨line, f.destinationEnd, f.payloadStart⟩ = some f.destination ∧
      Marked.ending? ⟨line, f.destinationEnd, f.payloadStart⟩ = some f.ending ∧
      Marked.viaSegment? ⟨line, f.destinationEnd, f.payloadStart⟩ = some f.viaSegment ∧
      Marked.payload? ⟨line, f.destinationEnd, f.payloadStart⟩ = some f.payload := by
  rcases (parse_eq_ok_iff line f).1 hparse with ⟨hf, rfl⟩
  have hsource : Marked.source? ⟨f.text, f.destinationEnd, f.payloadStart⟩ = some f.source := by
    refine (Text.slice?_eq_some_iff _ _ _ _).2
      ⟨"", ">" ++ f.destination ++ f.ending ++ f.viaSegment ++ f.payload, ?_, rfl, ?_⟩
    · simp only [text, header_eq, String.empty_append, String.append_assoc]
    · rw [offsetOf?_arrow hf, String.empty_append, Option.getD_some]
  refine ⟨hsource, ?_, ?_, ?_, ?_⟩
  · rw [Marked.destination?, hsource, Option.bind_some]
    refine (Text.slice?_eq_some_iff _ _ _ _).2
      ⟨f.source ++ ">", f.ending ++ f.viaSegment ++ f.payload, ?_, ?_, rfl⟩
    · simp only [text, header_eq, String.append_assoc]
    · rw [String.toList_append, Text.byteLength_append]
      rfl
  · refine (Text.slice?_eq_some_iff _ _ _ _).2
      ⟨f.source ++ ">" ++ f.destination, f.viaSegment ++ f.payload, ?_, rfl, ?_⟩
    · simp only [text, header_eq, String.append_assoc]
    · rw [String.toList_append, Text.byteLength_append, byteLength_ending]
      rfl
  · refine (Text.slice?_eq_some_iff _ _ _ _).2
      ⟨f.source ++ ">" ++ f.destination ++ f.ending, f.payload, ?_, ?_, ?_⟩
    · simp only [text, header_eq, String.append_assoc]
    · rw [String.toList_append, Text.byteLength_append, byteLength_ending]
      rfl
    · rw [← header_eq]
      rfl
  · exact (Text.slice?_eq_some_iff _ _ _ _).2 ⟨f.header, "", by simp [text], rfl, rfl⟩

end

/-! ## What can be missing -/

/-- A destination call is missing when the first `>` is followed by one of the
    characters that would end the call. -/
theorem parse_eq_missingDestination_iff (line : String) :
    parse line = .error .missingDestination ↔
      ∃ source ending rest, line.toList = source ++ '>' :: ending :: rest ∧ source ≠ [] ∧
        '>' ∉ source ∧ (ending = ',' ∨ ending = ':') := by
  rw [parse_eq_iff_readAs]
  constructor
  · intro h
    cases h with
    | missingDestination source rest ending hsource harrow hending hline =>
        refine ⟨source, ending, rest, hline, hsource, harrow, ?_⟩
        simpa [endsDestination] using hending
  · rintro ⟨source, ending, rest, hline, hsource, harrow, hending⟩
    refine .missingDestination source rest ending hsource harrow ?_ hline
    simpa [endsDestination] using hending

/-- The payload is missing when a destination call may follow the first `>`, but
    no `:` does. -/
theorem parse_eq_missingPayload_iff (line : String) :
    parse line = .error .missingPayload ↔
      ∃ source rest, line.toList = source ++ '>' :: rest ∧ source ≠ [] ∧ '>' ∉ source ∧
        rest.head? ≠ some ',' ∧ rest.head? ≠ some ':' ∧ ':' ∉ rest := by
  rw [parse_eq_iff_readAs]
  constructor
  · intro h
    cases h with
    | missingPayload source rest hsource harrow hcomma hcolon hline =>
        exact ⟨source, rest, hline, hsource, harrow, hcomma,
          fun h => hcolon (List.mem_of_mem_head? h), hcolon⟩
  · rintro ⟨source, rest, hline, hsource, harrow, hcomma, -, hcolon⟩
    exact .missingPayload source rest hsource harrow hcomma hcolon hline

/-- A line is read as the parts that make it, and as no others. The slices of a
    parsed line between its two marks are these parts. A line that no parts make
    lacks its source call, or else its destination call, or else its payload. -/
theorem parse_parts (line : String) :
    (∀ source destination segment payload,
      (∃ f, parse line = .ok f ∧ f.source = source ∧ f.destination = destination ∧
        f.viaSegment = segment ∧ f.payload = payload) ↔
      Separable source destination segment ∧
        render source destination segment payload = line) ∧
    (∀ f, parse line = .ok f →
      Marked.source? ⟨line, f.destinationEnd, f.payloadStart⟩ = some f.source ∧
      Marked.destination? ⟨line, f.destinationEnd, f.payloadStart⟩ = some f.destination ∧
      Marked.ending? ⟨line, f.destinationEnd, f.payloadStart⟩ = some f.ending ∧
      Marked.viaSegment? ⟨line, f.destinationEnd, f.payloadStart⟩ = some f.viaSegment ∧
      Marked.payload? ⟨line, f.destinationEnd, f.payloadStart⟩ = some f.payload) ∧
    (parse line = .error .missingSource ↔
      '>' ∉ line.toList ∨ line.toList.head? = some '>') ∧
    (parse line = .error .missingDestination ↔
      ∃ source ending rest, line.toList = source ++ '>' :: ending :: rest ∧ source ≠ [] ∧
        '>' ∉ source ∧ (ending = ',' ∨ ending = ':')) ∧
    (parse line = .error .missingPayload ↔
      ∃ source rest, line.toList = source ++ '>' :: rest ∧ source ≠ [] ∧ '>' ∉ source ∧
        rest.head? ≠ some ',' ∧ rest.head? ≠ some ':' ∧ ':' ∉ rest) :=
  ⟨exists_parse_iff line, fun _ hparse => marked_parts line hparse,
    parse_eq_missingSource_iff line, parse_eq_missingDestination_iff line,
    parse_eq_missingPayload_iff line⟩

/-- A line with separators in its payload and with characters of two bytes in
    every part. -/
theorem parse_parts_umlauts :
    parse "ÄÖ>Ü,é1-1:ö>,:" = .ok ⟨"ÄÖ", "Ü", some "é1-1", "ö>,:"⟩ ∧
      Marked.viaSegment? ⟨"ÄÖ>Ü,é1-1:ö>,:", 7, 14⟩ = some "é1-1:" ∧
      Separable "ÄÖ" "Ü" "é1-1:" ∧ render "ÄÖ" "Ü" "é1-1:" "ö>,:" = "ÄÖ>Ü,é1-1:ö>,:" := by
  have hparse : parse "ÄÖ>Ü,é1-1:ö>,:" = .ok ⟨"ÄÖ", "Ü", some "é1-1", "ö>,:"⟩ := by rfl
  have hparts := parse_parts "ÄÖ>Ü,é1-1:ö>,:"
  exact ⟨hparse, (hparts.2.1 _ hparse).2.2.2.1,
    (hparts.1 _ _ _ _).1 ⟨_, hparse, rfl, rfl, rfl, rfl⟩⟩

end Frame

end AprsRelay
