import AprsRelay.Program.Listing

/-!
# The Display of Verdicts

A verdict is listed in one of two forms. The plain form is for people: it says
whether the frame is sent on, by which digipeater and under which callsign, and
it ends in the frame itself. The number of the source is not in it. The other
form is a JSON object that holds the whole verdict.

Callsigns and frames may hold any characters. In the plain form they stand as
they are. In a JSON string quotes, backslashes and control characters are
spelled out, and `unescape?` reads them back. It refuses a quote that is not
spelled out, so what it reads reaches up to the quote that ends the string, and
a JSON line shows the callsign and the frame unmistakably
(`unescape?_flatMap_escape`).

The number of the source is what a JSON line ends in. No line ends in two
numbers (`MentionsSource.unique`), so lines can be told apart by their sources.

## Main definitions

* `Json.unescape?`: The characters that stand between the quotes of a string.
* `TextShows`, `JsonShows`: What a line of either form shows.
* `MentionsSource`: A line ends in the number of a source.

## Theorems

* `unescape?_flatMap_escape`: Strings are read back.
* `textShows_verdictText`, `jsonShows_verdictJson`: What the two forms show.
* `JsonShows.mentionsSource`, `MentionsSource.unique`: A JSON line ends in the
  number of its source, and in no other.
-/

namespace AprsRelay

/-! ## Strings in JSON -/

namespace Json

/-- The number that a hexadecimal digit stands for. -/
def hexValue? (c : Char) : Option Nat :=
  if '0' ≤ c ∧ c ≤ '9' then some (c.toNat - 0x30)
  else if 'a' ≤ c ∧ c ≤ 'f' then some (c.toNat - 0x57)
  else if 'A' ≤ c ∧ c ≤ 'F' then some (c.toNat - 0x37)
  else none

/-- What a character behind a backslash stands for. -/
def escaped? : Char → Option Char
  | '\x22' => some '\x22'
  | '\x5c' => some '\x5c'
  | '/' => some '/'
  | 'b' => some '\x08'
  | 'f' => some '\x0c'
  | 'n' => some '\n'
  | 'r' => some '\r'
  | 't' => some '\t'
  | _ => none

/-- The character with the number that four hexadecimal digits spell. Numbers
    that are half of a pair are no character of their own. -/
def numbered? (a b c d : Char) : Option Char := do
  let number := 4096 * (← hexValue? a) + 256 * (← hexValue? b) + 16 * (← hexValue? c) +
    (← hexValue? d)
  if number.isValidChar then return Char.ofNat number else none

/-- The characters that a text between quotes stands for; none if the text
    could not stand there. -/
def unescape? : List Char → Option (List Char)
  | [] => some []
  | '\x5c' :: 'u' :: a :: b :: c :: d :: text => do
    return (← numbered? a b c d) :: (← unescape? text)
  | '\x5c' :: c :: text => do
    return (← escaped? c) :: (← unescape? text)
  | c :: text =>
    if c = '\x22' ∨ c = '\x5c' ∨ c.toNat < 0x20 then none
    else (unescape? text).map (c :: ·)

/-- A text between quotes stands for a string. -/
def StandsFor (text s : String) : Prop :=
  unescape? text.toList = some s.toList

theorem hexValue?_hexDigit : ∀ n < 16, hexValue? (hexDigit n) = some n := by
  decide

-- A character below a space is spelled by the last two of its four digits.
theorem numbered?_control (c : Char) (hc : c.toNat < 0x20) :
    numbered? '0' '0' (hexDigit (c.toNat / 16)) (hexDigit (c.toNat % 16)) = some c := by
  have hnumber : 4096 * 0 + 256 * 0 + 16 * (c.toNat / 16) + c.toNat % 16 = c.toNat := by omega
  have hzero : hexValue? '0' = some 0 := rfl
  have hvalid : c.toNat.isValidChar := c.valid
  simp only [numbered?, hzero, hexValue?_hexDigit _ (show c.toNat / 16 < 16 by omega),
    hexValue?_hexDigit _ (show c.toNat % 16 < 16 by omega), bind, Option.bind_some, hnumber,
    if_pos hvalid, Char.ofNat_toNat]
  rfl

-- A letter that stands for a character is not the one in front of a number.
theorem unescape?_escaped (c e : Char) (text : List Char) (h : escaped? e = some c) :
    unescape? ('\x5c' :: e :: text) = (unescape? text).map (c :: ·) := by
  have hnot : e ≠ 'u' := by
    rintro rfl
    cases h
  rw [unescape?]
  · simp only [h, bind, Option.bind_some]
    cases unescape? text <;> rfl
  · intro _ _ _ _ _ he _
    exact hnot he

/-- A character that is spelled out is read back, and reading goes on behind it. -/
theorem unescape?_escape_append (c : Char) (text : List Char) :
    unescape? (escape c ++ text) = (unescape? text).map (c :: ·) := by
  unfold escape
  split
  -- Seven characters are spelled by a letter.
  iterate 7 exact unescape?_escaped _ _ text rfl
  · next hquote hback _ _ _ _ _ =>
      split
      · next hcontrol =>
          simp only [List.cons_append, List.nil_append, unescape?, numbered?_control c hcontrol,
            bind, Option.bind_some]
          cases unescape? text <;> rfl
      · next hplain =>
          rw [List.singleton_append, unescape?]
          · rw [if_neg]
            rintro (h | h | h)
            · exact hquote h
            · exact hback h
            · exact hplain h
          -- Without a backslash in front neither way of spelling out applies.
          · exact fun _ _ _ _ _ h _ => hback h
          · exact fun _ _ h _ => hback h

/-- The text of a string stands for the string. -/
theorem unescape?_flatMap_escape (cs : List Char) : unescape? (cs.flatMap escape) = some cs := by
  induction cs with
  | nil => rfl
  | cons c cs ih => rw [List.flatMap_cons, unescape?_escape_append, ih, Option.map_some]

theorem standsFor_escape (s : String) : StandsFor (String.ofList (s.toList.flatMap escape)) s := by
  rw [StandsFor, String.toList_ofList, unescape?_flatMap_escape]

/-! ## Objects in JSON -/

/-- A text between quotes. -/
def quoted (text : String) : String :=
  "\"" ++ text ++ "\""

/-- The text of a truth value. -/
def truthText (b : Bool) : String :=
  if b = true then "true" else "false"

/-- The text of a member of an object. -/
def memberText (key value : String) : String :=
  quoted key ++ ":" ++ value

/-- The text of an object with the given members. -/
def objectText (members : List String) : String :=
  "\x7b" ++ ",".intercalate members ++ "\x7d"

/-- The text of an array with the given items. -/
def arrayText (items : List String) : String :=
  "[" ++ ",".intercalate items ++ "]"

theorem renderString_eq (s : String) :
    renderString s = quoted (String.ofList (s.toList.flatMap escape)) := by
  apply String.ext
  simp [renderString, quoted]

theorem render_boolean (b : Bool) : (boolean b).render = truthText b := by
  cases b <;> rw [render] <;> rfl

theorem render_number (v : Int) : (number v).render = toString v := by
  rw [render]

theorem render_ofNat (n : Nat) : (ofNat n).render = toString n := by
  rw [ofNat, render]
  rfl

theorem render_string (s : String) :
    (string s).render = quoted (String.ofList (s.toList.flatMap escape)) := by
  rw [render, renderString_eq]

theorem renderItems_eq (items : List Json) : renderItems items = items.map render := by
  induction items with
  | nil => rw [renderItems, List.map_nil]
  | cons item items ih => rw [renderItems, List.map_cons, ih]

theorem renderMembers_eq (members : List (String × Json)) :
    renderMembers members =
      members.map fun member => renderString member.1 ++ ":" ++ member.2.render := by
  induction members with
  | nil => rw [renderMembers, List.map_nil]
  | cons member members ih => rw [renderMembers, List.map_cons, ih]

theorem render_array (items : List Json) : (array items).render = arrayText (items.map render) := by
  rw [render, renderItems_eq, arrayText]

theorem render_object (members : List (String × Json)) :
    (object members).render =
      objectText (members.map fun member => renderString member.1 ++ ":" ++ member.2.render) := by
  rw [render, renderMembers_eq, objectText]

end Json

/-! ## Lines -/

/-- What a plain line shows for a verdict under a callsign: whether the frame is
    sent on, the digipeater, the callsign, the counters, a mark if the path has
    faults, and the frame. -/
def TextShows (callsign : String) (frame : Frame) (v : Verdict) (line : String) : Prop :=
  line =
    (if v.accepted = true then "DIGIPEAT" else "DROP    ") ++
      " digi#" ++ toString v.digipeater.index ++ " via " ++ callsign ++ ": " ++
      "req=" ++ toString v.hops.requested ++ " done=" ++ toString v.hops.completed ++
      " traces=" ++ toString v.hops.traces ++
      (if v.faults = [] then "" else " FAULT") ++ " " ++ frame.text

/-- A fault of a path in a JSON line. -/
def PathFault.objectText : PathFault → String
  | .emptyField index =>
    Json.objectText [Json.memberText "index" (toString index),
      Json.memberText "kind" (Json.quoted "empty_field")]
  | .fieldTooLong index length =>
    Json.objectText [Json.memberText "index" (toString index),
      Json.memberText "kind" (Json.quoted "field_too_long"),
      Json.memberText "len" (toString length)]

/-- A verdict in a JSON line. -/
def Verdict.objectText (v : Verdict) : String :=
  Json.objectText [
    Json.memberText "accepted" (Json.truthText v.accepted),
    Json.memberText "digipeater" (toString v.digipeater.index),
    Json.memberText "faults" (Json.arrayText (v.faults.map PathFault.objectText)),
    Json.memberText "fields" (toString v.fields),
    Json.memberText "hops" (Json.objectText [
      Json.memberText "completed" (toString v.hops.completed),
      Json.memberText "requested" (toString v.hops.requested),
      Json.memberText "traces" (toString v.hops.traces)]),
    Json.memberText "provenance" (Json.truthText v.provenance),
    Json.memberText "source" (toString v.source.index)]

/-- What a JSON line shows for a verdict under a callsign: the frame and the
    callsign, in texts that stand for them, and the verdict. -/
def JsonShows (callsign : String) (frame : Frame) (v : Verdict) (line : String) : Prop :=
  ∃ frameText callsignText, Json.StandsFor frameText frame.text ∧
    Json.StandsFor callsignText callsign ∧
    line = Json.objectText [
      Json.memberText "frame" (Json.quoted frameText),
      Json.memberText "interface" (Json.quoted callsignText),
      Json.memberText "verdict" v.objectText]

theorem textShows_verdictText (callsign : String) (frame : Frame) (v : Verdict) :
    TextShows callsign frame v (verdictText callsign frame v) := by
  simp only [TextShows, verdictText, String.append_assoc]
  rfl

theorem PathFault.render_toJson (f : PathFault) : f.toJson.render = f.objectText := by
  cases f with
  | emptyField index =>
      simp only [toJson, label, Json.render_object, Json.render_ofNat, Json.render_string,
        List.map_cons, List.map_nil]
      rfl
  | fieldTooLong index length =>
      simp only [toJson, label, Json.render_object, Json.render_ofNat, Json.render_string,
        List.map_cons, List.map_nil]
      rfl

theorem Verdict.render_toJson (v : Verdict) : v.toJson.render = v.objectText := by
  have hfaults : (v.faults.map PathFault.toJson).map Json.render =
      v.faults.map PathFault.objectText := by
    rw [List.map_map]
    exact List.map_congr_left fun f _ => f.render_toJson
  simp only [toJson, Json.render_object, Json.render_array, Json.render_boolean,
    Json.render_number, Json.render_ofNat, List.map_cons, List.map_nil, hfaults]
  rfl

theorem jsonShows_verdictJson (callsign : String) (frame : Frame) (v : Verdict) :
    JsonShows callsign frame v (verdictJson callsign frame v) := by
  refine ⟨_, _, Json.standsFor_escape frame.text, Json.standsFor_escape callsign, ?_⟩
  simp only [verdictJson, Json.render_object, Json.render_string, List.map_cons, List.map_nil,
    v.render_toJson]
  rfl

/-! ## Sources -/

/-- A line ends in the number of a source. -/
def MentionsSource (id : SourceId) (line : String) : Prop :=
  (Json.memberText "source" (toString id.index) ++ "\x7d" ++ "\x7d").toList <:+ line.toList

instance (id : SourceId) (line : String) : Decidable (MentionsSource id line) :=
  inferInstanceAs (Decidable (_ <:+ _))

-- An object ends in its last member and the closing brace.
theorem Json.exists_objectText_eq (members : List String) (last : String)
    (hlast : members.getLast? = some last) :
    ∃ front, objectText members = front ++ (last ++ "\x7d") := by
  rcases List.getLast?_eq_some_iff.1 hlast with ⟨others, rfl⟩
  rw [objectText]
  by_cases hothers : others = []
  · rw [hothers, List.nil_append, String.intercalate_singleton, String.append_assoc]
    exact ⟨_, rfl⟩
  · rw [String.intercalate_append_of_ne_nil hothers (List.cons_ne_nil _ _),
      String.intercalate_singleton, ← String.append_assoc, String.append_assoc]
    exact ⟨_, rfl⟩

/-- A JSON line ends in the number of the source whose verdict it shows. -/
theorem JsonShows.mentionsSource {callsign : String} {frame : Frame} {v : Verdict} {line : String}
    (h : JsonShows callsign frame v line) : MentionsSource v.source line := by
  rcases h with ⟨frameText, callsignText, -, -, hline⟩
  have hinner : ∃ front, v.objectText =
      front ++ (Json.memberText "source" (toString v.source.index) ++ "\x7d") :=
    Json.exists_objectText_eq _ _ rfl
  have houter : ∃ front, line = front ++ (Json.memberText "verdict" v.objectText ++ "\x7d") :=
    hline ▸ Json.exists_objectText_eq _ _ rfl
  rcases hinner with ⟨inner, hinner⟩
  rcases houter with ⟨outer, houter⟩
  rw [MentionsSource, houter, hinner]
  refine ⟨(outer ++ Json.memberText "verdict" inner).toList, ?_⟩
  simp only [Json.memberText, String.toList_append, List.append_assoc]

-- In front of the braces at the end of a line stand the digits of the number.
theorem MentionsSource.takeWhile_isDigit {id : SourceId} {line : String}
    (h : MentionsSource id line) :
    (line.toList.reverse.drop 2).takeWhile Char.isDigit = (Nat.toDigits 10 id.index).reverse := by
  have hdigits : ∀ c ∈ (Nat.toDigits 10 id.index).reverse, c.isDigit = true := fun c hc =>
    Nat.isDigit_of_mem_toDigits (Nat.succ_pos 9) (Nat.le_refl 10) (List.mem_reverse.1 hc)
  -- Read from the end, the digits are followed by the colon behind the key.
  rcases h with ⟨front, hfront⟩
  rw [← hfront]
  simp only [Json.memberText, Nat.toString_eq_ofList_toDigits, String.toList_append,
    String.toList_ofList, List.reverse_append, List.append_assoc]
  exact (List.takeWhile_append_of_pos hdigits).trans (List.append_nil _)

/-- No line ends in the numbers of two sources. -/
theorem MentionsSource.unique {a b : SourceId} {line : String} (ha : MentionsSource a line)
    (hb : MentionsSource b line) : a = b := by
  have hdigits := List.reverse_inj.1 (ha.takeWhile_isDigit.symm.trans hb.takeWhile_isDigit)
  have hindex : a.index = b.index := calc
    a.index = Nat.ofDigitChars 10 (Nat.toDigits 10 a.index) 0 :=
      Nat.ofDigitChars_ten_toDigits.symm
    _ = Nat.ofDigitChars 10 (Nat.toDigits 10 b.index) 0 := by rw [hdigits]
    _ = b.index := Nat.ofDigitChars_ten_toDigits
  exact congrArg SourceId.mk hindex

end AprsRelay
