import AprsRelay.Program.Run

/-!
# Line by Line

What is listed for a line of input depends on the line alone and on the
station. The relay that is handed on from line to line has a queue and
counters, but no verdict looks at them, and the station in it never changes.
So a listing is put together from what is listed for each line, and blank
lines and lines that are no frame add nothing.

There is one exception. A line that is no text ends the listing, and the lines
behind it are not heard any more. Two parts of an input are therefore listed
as if each stood alone exactly when the first part is a text throughout, or
when nothing would be listed for the second part anyway.

## Main definitions

* `isText`: Lines of input that are a text.
* `frameOn?`: The frame on a line of input.
* `Listing.linesFor`: What is listed for a line of input.
* `Listing.printed`: What is listed for all of some input.

## Theorems

* `foldl_hear`, `ofFrame_eq`: What is listed for a frame.
* `ofLine_cases`: What a line of input does.
* `ofLines_eq`, `ofInput_eq`: Listings are put together line by line.
* `printed_append`: Inputs in two parts.
* `run_eq`: A run whose station is loaded shows the listing.
* `printed_append_iff`: When the parts of an input are independent.
-/

namespace AprsRelay

/-- Whether a line of input is a text. -/
def isText (input : Bytes) : Bool :=
  (Text.ofUtf8? input).isSome

/-- The frame on a line of input, if the line is a text and the text without
    the blanks at its end is a frame. -/
def frameOn? (input : Bytes) : Option Frame :=
  (Text.ofUtf8? input).bind fun text =>
    (Frame.parse (String.ofList (Text.trimEnd text.toList))).toOption

namespace Listing

variable (l : Listing)

/-- What is listed for a frame that all interfaces of the listing hear. -/
def frameLines (s : Station) (frame : Frame) : List String :=
  l.interfaces.flatMap fun heardOn =>
    (s.verdicts heardOn frame).map (l.line s heardOn frame)

/-- What is listed for a line of input. -/
def linesFor (s : Station) (input : Bytes) : List String :=
  ((frameOn? input).map (l.frameLines s)).getD []

/-- What is listed for all of some input. -/
def printed (s : Station) (input : Bytes) : List String :=
  ((inputLines input).takeWhile isText).flatMap (l.linesFor s)

/-! ## One line -/

-- Interfaces that hear a frame one after the other leave the station as it is,
-- so the first ones do not matter to the others.
theorem foldl_hear (frame : Frame) (interfaces : List InterfaceId) (lines : List String)
    (relay : Relay) :
    ∃ after, after.station = relay.station ∧
      interfaces.foldl (l.hear frame) (lines, relay) =
        (lines ++ interfaces.flatMap fun heardOn =>
          (relay.station.verdicts heardOn frame).map (l.line relay.station heardOn frame),
          after) := by
  induction interfaces generalizing lines relay with
  | nil => exact ⟨relay, rfl, by rw [List.flatMap_nil, List.append_nil]; rfl⟩
  | cons heardOn interfaces ih =>
      rcases ih (lines ++ (relay.station.verdicts heardOn frame).map
        (l.line relay.station heardOn frame)) (relay.receive heardOn frame).2 with
        ⟨after, hstation, hfold⟩
      refine ⟨after, hstation, ?_⟩
      rw [List.foldl_cons, List.flatMap_cons, ← List.append_assoc]
      exact hfold

/-- A frame is listed by the station alone, and nothing waits to be sent when
    the next one comes in. -/
theorem ofFrame_eq (relay : Relay) (frame : Frame) :
    ∃ after, after.station = relay.station ∧ after.queue = [] ∧
      l.ofFrame relay frame = (l.frameLines relay.station frame, after) := by
  rcases l.foldl_hear frame l.interfaces [] relay with ⟨after, hstation, hfold⟩
  refine ⟨after.drain.2, hstation, rfl, ?_⟩
  rw [ofFrame, hfold, List.nil_append]
  rfl

/-- A line that is no text ends the listing. Any other line lists what belongs
    to it and leaves the station as it is. -/
theorem ofLine_cases (relay : Relay) (input : Bytes) :
    (isText input = false ∧ l.ofLine relay input = .error .notText) ∨
      (isText input = true ∧ ∃ after, after.station = relay.station ∧
        l.ofLine relay input = .ok (l.linesFor relay.station input, after)) := by
  rw [isText, ofLine, decodeText, linesFor, frameOn?]
  cases Text.ofUtf8? input with
  | none => exact .inl ⟨rfl, rfl⟩
  | some text =>
      refine .inr ⟨rfl, ?_⟩
      simp only [Option.bind_some]
      cases Frame.parse (String.ofList (Text.trimEnd text.toList)) with
      | error e => exact ⟨relay, rfl, rfl⟩
      | ok frame =>
          rcases l.ofFrame_eq relay frame with ⟨after, hstation, -, hframe⟩
          exact ⟨after, hstation, congrArg Except.ok hframe⟩

/-! ## All lines -/

/-- Listings are put together line by line, up to the first line that is no
    text. -/
theorem ofLines_eq (relay : Relay) (inputs : List Bytes) :
    l.ofLines relay inputs =
      ((inputs.takeWhile isText).flatMap (l.linesFor relay.station),
        if inputs.all isText then none else some .notText) := by
  induction inputs generalizing relay with
  | nil => rfl
  | cons input inputs ih =>
      rcases l.ofLine_cases relay input with ⟨htext, hline⟩ | ⟨htext, after, hstation, hline⟩
      · simp only [ofLines, hline, List.takeWhile_cons, htext, List.all_cons, Bool.false_and]
        rfl
      · simp only [ofLines, hline, ih, hstation, List.takeWhile_cons, htext, if_true,
          List.flatMap_cons, List.all_cons, Bool.true_and]

theorem ofInput_eq (relay : Relay) (input : Bytes) :
    l.ofInput relay input =
      (l.printed relay.station input,
        if (inputLines input).all isText then none else some .notText) :=
  l.ofLines_eq relay (inputLines input)

/-! ## Inputs in two parts -/

theorem inputLines_append (a b : Bytes) :
    inputLines (a ++ [0x0A] ++ b) = inputLines a ++ inputLines b := by
  rw [inputLines, List.append_assoc, List.singleton_append, List.splitOn_append_cons_self]
  rfl

-- Behind the last line end there is one more line, which is empty.
theorem inputLines_concat (a : Bytes) : inputLines (a ++ [0x0A]) = inputLines a ++ [[]] := by
  rw [← List.append_nil (a ++ [0x0A]), inputLines_append]
  rfl

theorem isText_nil : isText [] = true := by
  decide +kernel

theorem linesFor_nil (s : Station) : l.linesFor s [] = [] := by
  have hnone : frameOn? [] = none := by decide +kernel
  rw [linesFor, hnone]
  rfl

-- What fails the test hides everything behind it.
theorem takeWhile_append_of_all_eq_false {α : Type} (p : α → Bool) (xs ys : List α)
    (h : xs.all p = false) : (xs ++ ys).takeWhile p = xs.takeWhile p := by
  induction xs with
  | nil => exact nomatch h
  | cons x xs ih =>
      rw [List.cons_append, List.takeWhile_cons, List.takeWhile_cons]
      cases hx : p x with
      | false => rfl
      | true =>
          rw [List.all_cons, hx, Bool.true_and] at h
          rw [if_pos rfl, if_pos rfl, ih h]

/-- Behind the end of a line a listing goes on as if it started there, unless a
    line before was no text. -/
theorem printed_append (s : Station) (a b : Bytes) (ha : a = [] ∨ ∃ rest, a = rest ++ [0x0A]) :
    l.printed s (a ++ b) =
      if (inputLines a).all isText then l.printed s a ++ l.printed s b else l.printed s a := by
  rcases ha with rfl | ⟨rest, rfl⟩
  · have hempty : inputLines [] = [[]] := rfl
    simp only [printed, List.nil_append, hempty, List.all_cons, List.all_nil, Bool.and_true,
      isText_nil, List.takeWhile_cons, List.takeWhile_nil, List.flatMap_singleton, linesFor_nil,
      if_true]
  · simp only [printed, inputLines_append, inputLines_concat, List.all_append, List.all_cons,
      List.all_nil, isText_nil, Bool.and_true]
    cases h : (inputLines rest).all isText with
    | true =>
        have hall := List.all_eq_true.1 h
        simp only [if_true, List.takeWhile_append_of_pos hall, List.takeWhile_cons, isText_nil,
          List.takeWhile_nil, List.flatMap_append, List.flatMap_singleton, linesFor_nil,
          List.append_nil]
    | false =>
        simp only [Bool.false_eq_true, if_false, takeWhile_append_of_all_eq_false isText _ _ h]

/-- A line that is a text but no frame lists nothing, and the lines behind it
    are listed as ever. -/
theorem printed_append_of_no_frame (s : Station) (line b : Bytes) (hline : 0x0A ∉ line)
    (htext : isText line = true) (hframe : frameOn? line = none) :
    l.printed s (line ++ [0x0A] ++ b) = l.printed s b := by
  have hnone : l.linesFor s line = [] := by
    rw [linesFor, hframe]
    rfl
  rw [printed, inputLines_append, inputLines, List.splitOn_eq_singleton hline,
    List.singleton_append, List.takeWhile_cons, htext, if_pos rfl, List.flatMap_cons, hnone,
    List.nil_append, printed]

end Listing

/-! ## Whole runs -/

section

variable (read : String → Id (Except ReadFault Bytes)) (options : Options)

/-- A run whose station is loaded shows what its frames come to, wherever they
    are read. -/
theorem run_eq (ready : Ready) (hready : (Program.start read options).run.result = .ok ready)
    (atHand input : Bytes) (hinput : (Program.readFrames read options atHand).run = .ok input) :
    (Program.run read options atHand).run =
      .ofInput (Program.start read options).run.notes ready input := by
  simp only [Id.run] at hready hinput
  simp only [Program.run, bind, pure, Id.run, hready, hinput]

/-- What is listed for an input in two parts. The parts are independent exactly
    when every line of the first part is a text, or when nothing is listed for
    the second one. A line that is no text keeps all lines behind it from being
    heard. A line that is a text but no frame makes no difference at all. -/
theorem printed_append_iff (ready : Ready)
    (hready : (Program.start read options).run.result = .ok ready) :
    let notes := (Program.start read options).run.notes
    let printed := fun input => (Outcome.ofInput notes ready input).printed
    (∀ atHand input, (Program.readFrames read options atHand).run = .ok input →
      (Program.run read options atHand).run = .ofInput notes ready input) ∧
    ∀ a, (a = [] ∨ ∃ rest, a = rest ++ [0x0A]) →
      (∀ b, printed (a ++ b) = printed a ++ printed b ↔
        (∀ line ∈ Listing.inputLines a, isText line = true) ∨ printed b = []) ∧
      (∀ b, (∃ line ∈ Listing.inputLines a, isText line = false) → printed (a ++ b) = printed a) ∧
      ∀ line b, 0x0A ∉ line → isText line = true → frameOn? line = none →
        printed (a ++ (line ++ [0x0A] ++ b)) = printed (a ++ b) := by
  intro notes printed
  have hprinted : printed = ready.listing.printed ready.relay.station := by
    funext input
    simp only [printed, Outcome.ofInput, Listing.ofInput_eq]
  refine ⟨run_eq read options ready hready, fun a ha => ?_⟩
  have hsplit := fun b => ready.listing.printed_append ready.relay.station a b ha
  rw [hprinted]
  refine ⟨fun b => ?_, fun b hbad => ?_, fun line b hline htext hframe => ?_⟩
  · rw [hsplit, ← List.all_eq_true]
    cases (Listing.inputLines a).all isText with
    | true => simp only [if_true, true_or]
    | false => simp only [Bool.false_eq_true, if_false, false_or, List.self_eq_append_right]
  · rcases hbad with ⟨line, hmem, hline⟩
    have hnot : (Listing.inputLines a).all isText = false :=
      List.all_eq_false.2 ⟨line, hmem, by rw [hline]; exact Bool.false_ne_true⟩
    rw [hsplit, hnot, if_neg Bool.false_ne_true]
  · rw [hsplit, hsplit, Listing.printed_append_of_no_frame _ _ line b hline htext hframe]

end

/-! ## A plain station -/

/-- A disk with a station of one interface, and with a digipeater that sends
    and listens there. -/
def plainDisk : Disk where
  files := [
    ("station.toml", Text.utf8 "[[interfaces]]\ncallsign=\"N0CALL\"\ntx_ok=true".toList),
    ("digi.conf", Text.utf8
      "<digipeater>\ntransmit N0CALL\n<source>\nsource N0CALL\n</source>\n</digipeater>".toList)]

/-- Reading a file of the plain disk. -/
def readPlain (name : String) : Id (Except ReadFault Bytes) :=
  plainDisk.read name

/-- Options that name both files of the plain disk. -/
def plainOptions : Options :=
  ⟨"station.toml", some "digi.conf", none, none, false⟩

/-- The station on the plain disk. -/
def plainStation : Station where
  mycall := "N0CALL"
  interfaces := [⟨⟨0⟩, "N0CALL", true, [⟨0⟩]⟩]
  sources := [⟨⟨0⟩, ⟨0⟩, ⟨0⟩, .unset, [], none, none⟩]
  digipeaters := [⟨⟨0⟩, ⟨0⟩, 300, 0, .standard .trace, .standard .wide, [⟨0⟩]⟩]

/-- A line of input with a frame that asks for one hop. -/
def plainLine : Bytes :=
  Text.utf8 "OH7LZB>APRS,WIDE1-1:x\n".toList

theorem exists_ready_plain :
    ∃ ready : Ready, (Program.start readPlain plainOptions).run.result = .ok ready ∧
      ready.relay.station = plainStation ∧ ready.listing = ⟨[⟨0⟩], false⟩ := by
  have hstart : (Program.start readPlain plainOptions).run.result.toOption.map
      (fun ready => (ready.relay.station, ready.listing)) =
        some (plainStation, ⟨[⟨0⟩], false⟩) := by decide +kernel
  cases hresult : (Program.start readPlain plainOptions).run.result with
  | error failure =>
      rw [hresult] at hstart
      exact nomatch hstart
  | ok ready =>
      rw [hresult] at hstart
      rcases Prod.mk.inj (Option.some.inj hstart) with ⟨hstation, hlisting⟩
      exact ⟨ready, rfl, hstation, hlisting⟩

-- The plain station sends the frame on.
theorem printed_plainLine (notes : List String) (ready : Ready)
    (hstation : ready.relay.station = plainStation) (hlisting : ready.listing = ⟨[⟨0⟩], false⟩) :
    (Outcome.ofInput notes ready plainLine).printed =
      ["DIGIPEAT digi#0 via N0CALL: req=1 done=0 traces=0 OH7LZB>APRS,WIDE1-1:x"] := by
  simp only [Outcome.ofInput, Listing.ofInput_eq, hstation, hlisting]
  decide +kernel

/-- Behind a line that is no frame, and behind a frame, another frame is listed
    as if it came first. -/
theorem printed_append_iff_plain :
    ∃ ready : Ready, (Program.start readPlain plainOptions).run.result = .ok ready ∧
      (Outcome.ofInput [] ready plainLine).printed ≠ [] ∧
      (Outcome.ofInput (Program.start readPlain plainOptions).run.notes ready
          (Text.utf8 "APRS\n".toList ++ plainLine ++ plainLine)).printed =
        (Outcome.ofInput (Program.start readPlain plainOptions).run.notes ready
            (Text.utf8 "APRS\n".toList ++ plainLine)).printed ++
          (Outcome.ofInput (Program.start readPlain plainOptions).run.notes ready
            plainLine).printed := by
  rcases exists_ready_plain with ⟨ready, hready, hstation, hlisting⟩
  refine ⟨ready, hready, ?_, ?_⟩
  · rw [printed_plainLine [] ready hstation hlisting]
    exact List.cons_ne_nil _ _
  · have hends : ∃ rest, Text.utf8 "APRS\n".toList ++ plainLine = rest ++ [0x0A] :=
      ⟨Text.utf8 "APRS\nOH7LZB>APRS,WIDE1-1:x".toList, by decide +kernel⟩
    have htext : ∀ line ∈ Listing.inputLines (Text.utf8 "APRS\n".toList ++ plainLine),
        isText line = true := by decide +kernel
    exact (((printed_append_iff readPlain plainOptions ready hready).2 _ (.inr hends)).1 _).2
      (.inl htext)

/-- Behind a line that is no text the same frame is not heard. -/
theorem printed_append_ne_of_not_text :
    ∃ ready : Ready, (Program.start readPlain plainOptions).run.result = .ok ready ∧
      ∀ notes, (Outcome.ofInput notes ready ([0xFF, 0x0A] ++ plainLine)).printed ≠
        (Outcome.ofInput notes ready [0xFF, 0x0A]).printed ++
          (Outcome.ofInput notes ready plainLine).printed := by
  rcases exists_ready_plain with ⟨ready, hready, hstation, hlisting⟩
  refine ⟨ready, hready, fun notes => ?_⟩
  have hbroken : ∀ b, (Outcome.ofInput notes ready ([0xFF, 0x0A] ++ b)).printed = [] := by
    intro b
    have hlines : Listing.inputLines ([0xFF, 0x0A] ++ b) = [0xFF] :: Listing.inputLines b :=
      Listing.inputLines_append [0xFF] b
    have hnot : isText [0xFF] = false := by decide +kernel
    simp only [Outcome.ofInput, Listing.ofInput_eq, Listing.printed, hlines, List.takeWhile_cons,
      hnot, Bool.false_eq_true, if_false, List.flatMap_nil]
  rw [hbroken, printed_plainLine notes ready hstation hlisting]
  exact fun h => List.cons_ne_nil _ _ (List.append_eq_nil_iff.1 h.symm).2

end AprsRelay
