import AprsRelay.Proofs.BlockFile.Faithful
import AprsRelay.Proofs.Station.Callsigns
import AprsRelay.Proofs.Station.Transmitters

/-!
# Naming an Interface in a Block File

Settings without a fault have callsigns that are not blank, and no two that
are the same. This does not make each of them fit for a block file. There a
line is taken apart at its blanks, a statement uses its first argument only,
and one argument stands for the station's own call. So a callsign that holds a
blank is cut short, and one that is spelled like the keyword is replaced. What
is left may be no callsign at all, or that of another interface.

Whether an interface can be named is looked at on the smallest block file that
uses it, with one digipeater that sends on it and listens to it. The words of
that file are known up to the callsign, and with them the block that is read
and the plan that it has.

## Main definitions

* `namingText`: A block file that is to use an interface.
* `NamesInterface`: It does.
* `namingBlock`, `namingPlan`: The block that is read from it, and its plan.

## Theorems

* `digipeaterBlocks_namingText`: What is read if the callsign is on one line.
* `ofBlock_namingBlock`: What is planned if its words name an interface.
* `namesInterface_iff_named`: When the text uses an interface.
* `exists_word_of_ofBlock`: An interface is named by a word.
* `namesInterface_iff`: The callsigns that name their interface.
* `not_namesInterface`: Some do not.
-/

namespace AprsRelay

/-- A block file with one digipeater that is to send on the interface with a
    callsign and to listen to it. -/
def namingText (callsign : String) : String :=
  "<digipeater>\ntransmit " ++ callsign ++ "\n<source>\nsource " ++ callsign ++
    "\n</source>\n</digipeater>\n"

/-- The text for a callsign is accepted as one digipeater, which sends on the
    interface and listens to it with its only source. -/
def NamesInterface (settings : Settings) (file callsign : String) (id : InterfaceId) : Prop :=
  let loaded := LoadedStation.build settings (.read file (namingText callsign))
  loaded.report = ⟨[⟨0⟩], []⟩ ∧
    ∃ d source, loaded.station.digipeaters = [d] ∧ loaded.station.sources = [source] ∧
      d.transmitter = id ∧ d.sources = [source.id] ∧
      source.parent = d.id ∧ source.interface = id

/-! ## From the text to the block -/

/-- The lines of the text, for a callsign that is on one line. -/
def namingLines (callsign : String) : List String :=
  ["<digipeater>", "transmit " ++ callsign, "<source>", "source " ++ callsign, "</source>",
    "</digipeater>", ""]

theorem namingText_eq (callsign : String) :
    namingText callsign = "\n".intercalate (namingLines callsign) := by
  -- The literals are taken apart one by one, so that none is compared with another.
  have hjoin : ∀ first second third : String,
      first = "<digipeater>" ++ ("\n" ++ "transmit ") →
      second = "\n" ++ ("<source>" ++ ("\n" ++ "source ")) →
      third = "\n" ++ ("</source>" ++ ("\n" ++ ("</digipeater>" ++ ("\n" ++ "")))) →
      first ++ callsign ++ second ++ callsign ++ third =
        "\n".intercalate (namingLines callsign) := by
    rintro _ _ _ rfl rfl rfl
    simp only [namingLines, String.intercalate_cons_cons, String.intercalate_singleton,
      String.append_assoc]
  exact hjoin _ _ _ (by decide) (by decide) (by decide)

/-- The words of a callsign, as a statement has them for arguments. -/
def callsignArgs (callsign : String) : List String :=
  (Text.words callsign.toList).map String.ofList

-- A line with a name and a callsign has the words of the callsign as
-- arguments.
theorem ofWords?_callsign (number : Nat) (line name callsign : String)
    (hline : line.toList = name.toList ++ [' ']) (hname : Text.words name.toList = [name.toList])
    (hcomment : name.toList.head? ≠ some '#') :
    Line.ofWords? number (Text.words (line ++ callsign).toList) =
      some ⟨number, Text.lowered name, callsignArgs callsign⟩ := by
  have hwords : Text.words (line ++ callsign).toList =
      name.toList :: Text.words callsign.toList := by
    rw [String.toList_append, hline, List.append_assoc, List.singleton_append,
      Text.words_append_cons _ _ ' ' (by decide), hname, List.singleton_append]
  rw [hwords, Line.ofWords?, if_neg hcomment, String.ofList_toList]
  rfl

section

variable (callsign : String) (h : '\n' ∉ callsign.toList)
include h

theorem splitOn_namingText :
    (namingText callsign).toList.splitOn '\n' = (namingLines callsign).map String.toList := by
  have hline : ∀ name : String, '\n' ∉ name.toList → '\n' ∉ (name ++ callsign).toList := by
    intro name hname hmem
    rw [String.toList_append] at hmem
    exact (List.mem_append.1 hmem).elim hname h
  have hsep : "\n".toList = ['\n'] := rfl
  rw [namingText_eq, String.toList_intercalate, hsep]
  refine List.splitOn_intercalate '\n' ?_ (by simp [namingLines])
  simp only [namingLines, List.map_cons, List.map_nil, List.forall_mem_cons]
  exact ⟨by decide, hline "transmit " (by decide), by decide, hline "source " (by decide),
    by decide, by decide, by decide, by simp⟩

/-- The callsign adds arguments to two lines, and no line, if it is on one line
    itself. -/
theorem significantLines_namingText :
    significantLines (namingText callsign) =
      [⟨1, "<digipeater>", []⟩, ⟨2, "transmit", callsignArgs callsign⟩, ⟨3, "<source>", []⟩,
        ⟨4, "source", callsignArgs callsign⟩, ⟨5, "</source>", []⟩,
        ⟨6, "</digipeater>", []⟩] := by
  have hopening : Line.ofWords? 1 (Text.words "<digipeater>".toList) =
      some ⟨1, "<digipeater>", []⟩ := by decide
  have htransmit : Line.ofWords? 2 (Text.words ("transmit " ++ callsign).toList) =
      some ⟨2, "transmit", callsignArgs callsign⟩ :=
    ofWords?_callsign 2 "transmit " "transmit" callsign (by decide) (by decide) (by decide)
  have hinner : Line.ofWords? 3 (Text.words "<source>".toList) =
      some ⟨3, "<source>", []⟩ := by decide
  have hsource : Line.ofWords? 4 (Text.words ("source " ++ callsign).toList) =
      some ⟨4, "source", callsignArgs callsign⟩ :=
    ofWords?_callsign 4 "source " "source" callsign (by decide) (by decide) (by decide)
  have hinnerEnd : Line.ofWords? 5 (Text.words "</source>".toList) =
      some ⟨5, "</source>", []⟩ := by decide
  have hclosing : Line.ofWords? 6 (Text.words "</digipeater>".toList) =
      some ⟨6, "</digipeater>", []⟩ := by decide
  have hlast : Line.ofWords? 7 (Text.words "".toList) = none := by decide
  have hnumbered : ((namingLines callsign).map String.toList).zipIdx 1 =
      [("<digipeater>".toList, 1), (("transmit " ++ callsign).toList, 2),
        ("<source>".toList, 3), (("source " ++ callsign).toList, 4), ("</source>".toList, 5),
        ("</digipeater>".toList, 6), ("".toList, 7)] := rfl
  rw [significantLines, splitOn_namingText callsign h, hnumbered]
  simp only [List.filterMap_cons, List.filterMap_nil, hopening, htransmit, hinner, hsource,
    hinnerEnd, hclosing, hlast]

end

/-- The source block of the text, for a callsign with the given words. -/
def namingSourceBlock (args : List String) : Block where
  line := 3
  tag := "source"
  closed := true
  body := [.statement ⟨4, "source", args⟩]

/-- The digipeater block of the text. -/
def namingBlock (args : List String) : Block where
  line := 1
  tag := "digipeater"
  closed := true
  body := [.statement ⟨2, "transmit", args⟩,
    .block (namingSourceBlock args).toHeading (namingSourceBlock args).body]

/-- The text has one digipeater block, if the callsign is on one line. -/
theorem digipeaterBlocks_namingText (file callsign : String) (h : '\n' ∉ callsign.toList) :
    digipeaterBlocks file (namingText callsign) = [namingBlock (callsignArgs callsign)] := by
  have hnodes : BlockFile.readNodes (namingText callsign) =
      [.block (namingBlock (callsignArgs callsign)).toHeading
        (namingBlock (callsignArgs callsign)).body] := by
    have hopening : LineRole.ofName "<digipeater>" = .opening "digipeater" := by decide
    have htransmit : LineRole.ofName "transmit" = .plain := by decide
    have hinner : LineRole.ofName "<source>" = .opening "source" := by decide
    have hsource : LineRole.ofName "source" = .plain := by decide
    have hinnerEnd : LineRole.ofName "</source>" = .closing "source" := by decide
    have hclosing : LineRole.ofName "</digipeater>" = .closing "digipeater" := by decide
    rw [BlockFile.readNodes, significantLines_namingText callsign h]
    simp only [Reading.run_cons, Reading.run_nil, Reading.step, hopening, htransmit, hinner,
      hsource, hinnerEnd, hclosing]
    rfl
  rw [digipeaterBlocks, BlockFile.blocks, BlockFile.read, hnodes]
  rfl

/-! ## From the block to the station -/

/-- What the block asks for, if its words name an interface. -/
def namingPlan (id : InterfaceId) : DigipeaterPlan where
  transmitter := id
  rateLimit := 300
  viscousDelay := 0
  trace := none
  wide := none
  sources := [⟨id, .unset, [], none, none⟩]

/-- The block has a plan, if the first of its words names an interface that may
    be sent on. -/
theorem ofBlock_namingBlock (s : Station) (file : String) (args : List String) (id : InterfaceId)
    (hid : args.head?.bind s.named? = some id) (hcan : s.canTransmit id = true) :
    DigipeaterPlan.ofBlock s file (namingBlock args) = .ok (namingPlan id) := by
  have hsource : SourceRule s (namingSourceBlock args) := by
    refine ⟨rfl, fun node hnode => ?_, List.cons_ne_nil _ _⟩
    rcases List.mem_singleton.1 hnode with rfl
    exact .inl ⟨rfl, id, hid⟩
  have hrule : DigipeaterRule s (namingBlock args) := by
    refine ⟨rfl, fun node hnode => ?_, List.cons_ne_nil _ _, List.cons_ne_nil _ _⟩
    simp only [namingBlock, List.mem_cons, List.not_mem_nil, or_false] at hnode
    rcases hnode with rfl | rfl
    · exact .inl ⟨rfl, id, hid, hcan⟩
    · exact .inr ⟨rfl, hsource⟩
  have hstated : DigipeaterStated s (namingBlock args) (namingPlan id) :=
    ⟨hid, rfl, rfl, rfl, rfl, .cons ⟨hid, rfl, rfl, rfl, rfl⟩ .nil⟩
  exact ofBlock_of_stated s file _ _ hrule hstated

section

variable (settings : Settings) (file : String)

/-- A plan is all that the text becomes where it names an interface. -/
theorem exists_plan_of_namesInterface (callsign : String) (id : InterfaceId)
    (h : NamesInterface settings file callsign id) :
    ∃ b ∈ digipeaterBlocks file (namingText callsign), ∃ plan,
      DigipeaterPlan.ofBlock (.ofSettings settings) file b = .ok plan ∧
        plan.transmitter = id := by
  rcases h with ⟨hreport, d, source, hd, -, hid, -⟩
  rw [build_eq] at hreport hd
  -- One digipeater was accepted, so there is one plan.
  have hcount := congrArg (fun r => r.accepted.length) hreport
  simp only [reportOf, List.length_map, List.length_range', List.length_singleton] at hcount
  rcases List.length_eq_one_iff.1 hcount with ⟨plan, hplan⟩
  rw [hplan, Station.ofSettings_eq] at hd
  have hmem : plan ∈ plansOf (.ofSettings settings) file
      (digipeaterBlocks file (namingText callsign)) := by
    rw [hplan]
    exact List.mem_singleton_self plan
  rcases List.mem_filterMap.1 hmem with ⟨b, hb, hbuilt⟩
  refine ⟨b, hb, plan, (plan?_eq_some_iff _ _ _ _).1 hbuilt, ?_⟩
  rw [← hid, ← (List.singleton_inj.1 hd)]
  rfl

/-- The text uses the interface that the first word of the callsign names, if
    the callsign is on one line. -/
theorem namesInterface_iff_named (callsign : String) (h : '\n' ∉ callsign.toList)
    (id : InterfaceId) (hcan : (Station.ofSettings settings).canTransmit id = true) :
    NamesInterface settings file callsign id ↔
      (callsignArgs callsign).head?.bind (Station.ofSettings settings).named? = some id := by
  have hblocks := digipeaterBlocks_namingText file callsign h
  constructor
  · intro hnames
    rcases exists_plan_of_namesInterface settings file callsign id hnames with
      ⟨b, hb, plan, hbuilt, htransmitter⟩
    rw [hblocks] at hb
    rcases List.mem_singleton.1 hb with rfl
    rw [← htransmitter]
    exact (digipeaterStated_of_ofBlock _ file _ plan hbuilt).transmitter
  · intro hid
    have hbuilt := ofBlock_namingBlock _ file _ id hid hcan
    have hplans : plansOf (.ofSettings settings) file
        (digipeaterBlocks file (namingText callsign)) = [namingPlan id] := by
      rw [hblocks, Station.plansOf_cons_ok [] hbuilt]
      rfl
    have hreport : reportOf (.ofSettings settings) file
        (digipeaterBlocks file (namingText callsign)) = ⟨[⟨0⟩], []⟩ := by
      rw [hblocks, Station.reportOf_cons_ok [] hbuilt, Station.ofSettings_eq]
      rfl
    rw [NamesInterface, build_eq, hplans, hreport, Station.ofSettings_eq]
    exact ⟨rfl, _, _, rfl, rfl, rfl, rfl, rfl, rfl⟩

end

/-! ## Interfaces that can be named -/

/-- A text that holds no blank. -/
def NoBlank (s : String) : Prop :=
  ∀ c ∈ s.toList, Text.isBlank c = false

theorem noBlank_of_sameLetters (a b : String) (h : Text.sameLetters a b = true) (ha : NoBlank a) :
    NoBlank b := by
  rw [NoBlank, ← List.forall_mem_map (P := (· = false))] at ha ⊢
  rwa [← Text.map_isBlank_of_sameLetters a b h]

/-- Whatever a text is, a word of it names the interface that a digipeater
    sends on. -/
theorem exists_word_of_ofBlock (s : Station) (file text : String) (b : Block)
    (hb : b ∈ digipeaterBlocks file text) (plan : DigipeaterPlan)
    (hbuilt : DigipeaterPlan.ofBlock s file b = .ok plan) :
    ∃ word, NoBlank word ∧ s.named? word = some plan.transmitter := by
  have hlast := (digipeaterStated_of_ofBlock s file b plan hbuilt).transmitter
  rcases Option.bind_eq_some_iff.1 hlast with ⟨stmt, hstmt, hid⟩
  rcases Option.bind_eq_some_iff.1 hid with ⟨word, hword, hnamed⟩
  have hbody := ((mem_statements_iff b "transmit" stmt).1 (List.mem_of_getLast? hstmt)).2
  have hblock := ((BlockFile.mem_blocks_iff _ _ b).1 hb).2
  rcases BlockFile.exists_line_of_statement text _ _ hblock stmt hbody with ⟨l, hl, hargs⟩
  refine ⟨word, not_blank_of_mem_args text l hl word ?_, hnamed⟩
  rw [← hargs]
  exact List.mem_of_mem_head? hword

theorem canTransmit_ofSettings (settings : Settings) (k : Nat) :
    (Station.ofSettings settings).canTransmit ⟨k⟩ =
      settings.interfaces[k]?.any (·.canTransmit) := by
  rw [Station.ofSettings_eq, Station.canTransmit, Station.interface?, List.getElem?_map,
    List.getElem?_zipIdx, Option.any_map, Option.any_map]

section

variable (settings : Settings) (hsensible : settings.Sensible) (file : String) (k : Nat)
  (i : InterfaceSettings) (hi : settings.interfaces[k]? = some i)
include hsensible hi

/-- A word names an interface when it stands for a callsign that is the same as
    that of the interface. -/
theorem named?_ofSettings_iff (word : String) :
    (Station.ofSettings settings).named? word = some ⟨k⟩ ↔
      Text.sameLetters (settings.callsignOf word) i.callsign = true := by
  have hfind := findIdx?_callsign_eq_some_iff settings.interfaces hsensible.distinct
    (settings.callsignOf word) k
  rw [Station.named?, Station.findInterface?_ofSettings, Settings.interface?,
    Option.map_eq_some_iff]
  simp only [InterfaceId.mk.injEq, exists_eq_right, hfind, hi, Option.some.injEq, exists_eq_left']

variable (hcan : i.canTransmit = true)
include hcan

/-- A callsign on one line names its interface when its first word stands for
    it. -/
theorem namesInterface_iff_first (h : '\n' ∉ i.callsign.toList) :
    NamesInterface settings file i.callsign ⟨k⟩ ↔
      ∃ word, (callsignArgs i.callsign).head? = some word ∧
        Text.sameLetters (settings.callsignOf word) i.callsign = true := by
  have htransmit : (Station.ofSettings settings).canTransmit ⟨k⟩ = true := by
    rw [canTransmit_ofSettings, hi]
    exact hcan
  rw [namesInterface_iff_named settings file i.callsign h ⟨k⟩ htransmit, Option.bind_eq_some_iff]
  simp only [named?_ofSettings_iff settings hsensible k i hi]

-- A callsign without blanks is its own first word.
theorem namesInterface_iff_of_noBlank (h : NoBlank i.callsign) :
    NamesInterface settings file i.callsign ⟨k⟩ ↔
      Text.sameLetters (settings.callsignOf i.callsign) i.callsign = true := by
  have hline : '\n' ∉ i.callsign.toList := fun hmem => absurd (h '\n' hmem) (by decide)
  have hne : i.callsign.toList ≠ [] := by
    intro hnil
    have hblank := hsensible.callsigns i (List.mem_of_getElem? hi)
    rw [Text.isBlankText, hnil, List.all_nil] at hblank
    cases hblank
  have hargs : (callsignArgs i.callsign).head? = some i.callsign := by
    rw [callsignArgs, Text.words_of_not_blank _ hne h, List.map_singleton, String.ofList_toList]
    rfl
  rw [namesInterface_iff_first settings hsensible file k i hi hcan hline, hargs]
  simp only [Option.some.injEq, exists_eq_left']

end

/-- Which callsigns name their interface. A callsign without blanks does, unless
    it is spelled like the keyword for the station's own call and is not that
    call. In general a callsign on one line does when its first word stands for
    it, and a callsign that is not the station's own does only if it has no
    blank and is not spelled like the keyword. -/
theorem namesInterface_iff (settings : Settings) (hfaults : settings.faults = []) (file : String)
    (k : Nat) (i : InterfaceSettings) (hi : settings.interfaces[k]? = some i)
    (hcan : i.canTransmit = true) :
    (NoBlank i.callsign →
      (Text.sameLetters i.callsign "$mycall" = true →
        Text.sameLetters settings.mycall i.callsign = true) →
      NamesInterface settings file i.callsign ⟨k⟩) ∧
    ('\n' ∉ i.callsign.toList →
      (NamesInterface settings file i.callsign ⟨k⟩ ↔
        ∃ word, (callsignArgs i.callsign).head? = some word ∧
          Text.sameLetters (settings.callsignOf word) i.callsign = true)) ∧
    (Text.sameLetters settings.mycall i.callsign = false →
      (NamesInterface settings file i.callsign ⟨k⟩ ↔
        NoBlank i.callsign ∧ Text.sameLetters i.callsign "$mycall" = false)) := by
  have hsensible := settings.faults_eq_nil_iff.1 hfaults
  have hnames : NoBlank i.callsign →
      (Text.sameLetters i.callsign "$mycall" = true →
        Text.sameLetters settings.mycall i.callsign = true) →
      NamesInterface settings file i.callsign ⟨k⟩ := by
    intro hword hmycall
    rw [namesInterface_iff_of_noBlank settings hsensible file k i hi hcan hword,
      Settings.callsignOf]
    split
    · rename_i hkeyword
      exact hmycall hkeyword
    · exact Text.sameLetters_refl _
  refine ⟨hnames, namesInterface_iff_first settings hsensible file k i hi hcan,
    fun hother => ⟨fun h => ?_, fun h => ?_⟩⟩
  · rcases exists_plan_of_namesInterface settings file i.callsign ⟨k⟩ h with
      ⟨b, hb, plan, hbuilt, htransmitter⟩
    rcases exists_word_of_ofBlock _ file _ b hb plan hbuilt with ⟨word, hword, hnamed⟩
    rw [htransmitter] at hnamed
    have hsame := (named?_ofSettings_iff settings hsensible k i hi word).1 hnamed
    rw [Settings.callsignOf] at hsame
    -- The word is not the keyword, since the callsign is not the station's own.
    split at hsame
    · rw [hother] at hsame
      exact nomatch hsame
    · rename_i hkeyword
      refine ⟨noBlank_of_sameLetters word _ hsame hword, Bool.eq_false_iff.2 fun hmycall => ?_⟩
      exact hkeyword (Text.sameLetters_trans _ _ _ hsame hmycall)
  · refine hnames h.1 fun hmycall => ?_
    rw [h.2] at hmycall
    exact nomatch hmycall

/-- Settings with a callsign that starts with another, and with one that is
    spelled like the keyword. -/
def crampedSettings : Settings :=
  { Settings.standard with
    interfaces := [⟨"N0CALL", true⟩, ⟨"N0CALL 2", true⟩, ⟨"$MyCall", true⟩, ⟨"#2", true⟩] }

/-- A callsign that starts like a comment names its interface. -/
theorem namesInterface_iff_number_sign :
    crampedSettings.faults = [] ∧ crampedSettings.interfaces[3]? = some ⟨"#2", true⟩ ∧
      NoBlank "#2" ∧ NamesInterface crampedSettings "digi.conf" "#2" ⟨3⟩ := by
  have hfaults : crampedSettings.faults = [] := by decide +kernel
  have hblank : NoBlank "#2" := by
    have hchars : "#2".toList = ['#', '2'] := by decide
    rw [NoBlank, hchars, List.forall_mem_cons, List.forall_mem_singleton]
    decide
  exact ⟨hfaults, rfl, hblank,
    (namesInterface_iff crampedSettings hfaults "digi.conf" 3 ⟨"#2", true⟩ rfl rfl).1 hblank
      (by decide)⟩

/-- Two interfaces of these settings cannot be named. What is written for them
    names the first interface. -/
theorem not_namesInterface :
    crampedSettings.faults = [] ∧
    (crampedSettings.interfaces[1]? = some ⟨"N0CALL 2", true⟩ ∧
      ¬ NamesInterface crampedSettings "digi.conf" "N0CALL 2" ⟨1⟩ ∧
      NamesInterface crampedSettings "digi.conf" "N0CALL 2" ⟨0⟩) ∧
    crampedSettings.interfaces[2]? = some ⟨"$MyCall", true⟩ ∧
      ¬ NamesInterface crampedSettings "digi.conf" "$MyCall" ⟨2⟩ ∧
      NamesInterface crampedSettings "digi.conf" "$MyCall" ⟨0⟩ := by
  have hblank (id : InterfaceId) := namesInterface_iff_named crampedSettings "digi.conf"
    "N0CALL 2" (by decide) id
  have hkeyword (id : InterfaceId) := namesInterface_iff_named crampedSettings "digi.conf"
    "$MyCall" (by decide) id
  refine ⟨by decide +kernel, ⟨rfl, ?_, ?_⟩, rfl, ?_, ?_⟩
  · rw [hblank ⟨1⟩ (by decide)]
    decide +kernel
  · rw [hblank ⟨0⟩ (by decide)]
    decide +kernel
  · rw [hkeyword ⟨2⟩ (by decide)]
    decide +kernel
  · rw [hkeyword ⟨0⟩ (by decide)]
    decide +kernel

end AprsRelay
