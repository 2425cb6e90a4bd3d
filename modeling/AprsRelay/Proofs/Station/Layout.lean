import AprsRelay.Proofs.BlockFile.Lines
import AprsRelay.Proofs.Plan.Alike
import AprsRelay.Proofs.Station.Continued

/-!
# Layout and Letter Case

How a block file is laid out does not matter: where its lines start, how their
words are set apart, how the lines end, and which empty lines and comments
stand between them. Nor does it matter whether the first word of a line is
written in capitals, or the callsign of an interface. Two texts that differ in
this only have the same words line by line, once the lines that do not count
are left out.

Such texts are loaded into the same station. The same blocks are accepted and
refused, and the faults of a refused block stand on the lines with the same
words. The letters of a callsign are compared in three places: as a keyword
that stands for the station's own call, as the callsign of an interface, and
as the first word of a line. A likeness of the two texts takes care of all
three.

## Main definitions

* `Line.SameWords`: Lines with the same words, but for letter case.
* `Likeness.layout`: The likeness of two texts with the same words.

## Theorems

* `forall₂_alike_layout`: Lines with the same words are alike.
* `forall₂_digipeaterBlocks`: So are the blocks of both texts.
* `plansOf_alike`, `forall₂_refusals`: Alike blocks have equal plans, and they
  are refused alike.
* `build_of_sameWords`: Texts with the same words.
-/

namespace AprsRelay

/-- Two lines have the same words. The first word, which is the name, may differ
    in letter case, and so may the interface that a `transmit` or `source`
    statement names. -/
structure Line.SameWords (l l' : Line) : Prop where
  name : l.name = l'.name
  args : l.args = l'.args ∨ (l.name = "transmit" ∨ l.name = "source") ∧
    ∃ arg arg' others, l.args = arg :: others ∧ l'.args = arg' :: others ∧
      Text.sameLetters arg arg' = true

/-- The likeness of two texts with the given lines: lines correspond when they
    have the same place among the lines that count, and callsigns are alike
    when they have the same letters. -/
def Likeness.layout (lines lines' : List Line) : Likeness where
  lines x y := (x, y) ∈ (lines.map Line.number).zip (lines'.map Line.number)
  callsigns a b := Text.sameLetters a b = true
  callsigns_refl := Text.sameLetters_refl
  sameLetters _ _ h := h

/-- Lines with the same words are alike. -/
theorem forall₂_alike_layout {lines lines' : List Line}
    (h : List.Forall₂ Line.SameWords lines lines') :
    List.Forall₂ (Line.Alike (.layout lines lines')) lines lines' := by
  rcases List.forall₂_iff_zip.1 h with ⟨hlength, hpairs⟩
  refine List.forall₂_iff_zip.2 ⟨hlength, fun {l l'} hmem => ?_⟩
  have hwords := hpairs hmem
  refine ⟨?_, hwords.name, ?_⟩
  · have hnumbers := List.mem_map_of_mem (f := Prod.map Line.number Line.number) hmem
    rwa [← List.zip_map] at hnumbers
  · rcases hwords.args with hsame | ⟨hname, arg, arg', others, hargs, hargs', hletters⟩
    · rw [hsame]
      exact .same _
    · rw [hargs, hargs']
      exact .callsign arg arg' others hname hletters

section

variable {c : Likeness}

theorem forall₂_digipeaterBlocks (name : String) {a b : String}
    (h : List.Forall₂ (Line.Alike c) (fileLines a) (fileLines b)) :
    List.Forall₂ (Block.Alike c) (digipeaterBlocks name a) (digipeaterBlocks name b) := by
  rw [← significantLines_eq, ← significantLines_eq] at h
  have hstart : Reading.start.Alike c .start := ⟨.nil, .nil⟩
  have hnodes := Reading.forall₂_finish (Reading.alike_run hstart h)
  exact List.rel_filterMap (fun _ _ hnode => hnode.rel_blockTagged? Station.digipeaterTag) hnodes

variable (s : Station) (file : String)

theorem plansOf_alike {blocks blocks' : List Block}
    (h : List.Forall₂ (Block.Alike c) blocks blocks') :
    plansOf s file blocks = plansOf s file blocks' := by
  induction h with
  | nil => rfl
  | cons hb _ ih =>
      rcases ofBlock_alike s hb file with ⟨plan, hplan, hplan'⟩ | ⟨r, r', hr, hr', -⟩
      · rw [Station.plansOf_cons_ok _ hplan, Station.plansOf_cons_ok _ hplan', ih]
      · rw [Station.plansOf_cons_error _ hr, Station.plansOf_cons_error _ hr', ih]

theorem forall₂_refusals {blocks blocks' : List Block}
    (h : List.Forall₂ (Block.Alike c) blocks blocks') :
    List.Forall₂ (Rejection.Alike c) (blocks.filterMap (Block.refusal? s file))
      (blocks'.filterMap (Block.refusal? s file)) := by
  refine List.rel_filterMap (fun b b' hb => ?_) h
  rcases ofBlock_alike s hb file with ⟨plan, hplan, hplan'⟩ | ⟨r, r', hr, hr', halike⟩
  · rw [Block.refusal?, Block.refusal?, hplan, hplan']
    exact .none
  · rw [Block.refusal?, Block.refusal?, hr, hr']
    exact .some halike

end

/-- Two texts with the same words on the lines that count are loaded into the
    same station, whatever their layout is and in whatever letter case the
    first words and the callsigns of interfaces are written. The same
    digipeaters are reported. The same blocks are refused, in the same order,
    for as many faults of the same kinds, and each fault is on the line of the
    one text that corresponds to its line in the other. -/
theorem build_of_sameWords (settings : Settings) (name a b : String)
    (h : List.Forall₂ Line.SameWords (fileLines a) (fileLines b)) :
    let first := LoadedStation.build settings (.read name a)
    let second := LoadedStation.build settings (.read name b)
    first.station = second.station ∧ first.report.accepted = second.report.accepted ∧
      List.Forall₂ (Rejection.Alike (.layout (fileLines a) (fileLines b)))
        first.report.rejected second.report.rejected := by
  intro first second
  have hfirst : first = _ := build_eq settings name a
  have hsecond : second = _ := build_eq settings name b
  have hblocks := forall₂_digipeaterBlocks name (forall₂_alike_layout h)
  have hplans := plansOf_alike (.ofSettings settings) name hblocks
  rw [hfirst, hsecond, reportOf, reportOf, hplans]
  exact ⟨rfl, rfl, forall₂_refusals _ name hblocks⟩

/-- A block that is refused, since it has no source and is not closed. -/
def narrowText : String :=
  "<digipeater>\ntransmit n0call"

/-- The same words with a comment, an empty line, other blanks, other line ends
    and other letters. -/
def wideText : String :=
  "# one\r\n\r\n<Digipeater>\r\n\tTRANSMIT  N0Call \r\n"

/-- The block is refused in both texts, on the first line and on the third. -/
theorem build_of_sameWords_refused :
    let settings := { Settings.standard with interfaces := [⟨"N0CALL", true⟩] }
    let first := LoadedStation.build settings (.read "digi.conf" narrowText)
    let second := LoadedStation.build settings (.read "digi.conf" wideText)
    List.Forall₂ Line.SameWords (fileLines narrowText) (fileLines wideText) ∧
      first.station = second.station ∧ first.report.rejected.map (·.line) = [1] ∧
      second.report.rejected.map (·.line) = [3] := by
  intro settings first second
  have hnarrow : fileLines narrowText =
      [⟨1, "<digipeater>", []⟩, ⟨2, "transmit", ["n0call"]⟩] := by decide +kernel
  have hwide : fileLines wideText =
      [⟨3, "<digipeater>", []⟩, ⟨4, "transmit", ["N0Call"]⟩] := by decide +kernel
  have hwords : List.Forall₂ Line.SameWords (fileLines narrowText) (fileLines wideText) := by
    rw [hnarrow, hwide]
    refine .cons ⟨rfl, .inl rfl⟩ (.cons ⟨rfl, .inr ⟨.inl rfl, ?_⟩⟩ .nil)
    exact ⟨"n0call", "N0Call", [], rfl, rfl, by decide⟩
  exact ⟨hwords, (build_of_sameWords settings "digi.conf" narrowText wideText hwords).1,
    by decide +kernel, by decide +kernel⟩

end AprsRelay
