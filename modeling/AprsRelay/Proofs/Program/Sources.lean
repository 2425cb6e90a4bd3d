import AprsRelay.Proofs.Program.Display
import AprsRelay.Proofs.Program.Lines
import AprsRelay.Proofs.Station.Continued

/-!
# Every Source Once

If no interface is asked for, a frame is heard on every interface that feeds a
source. So the listing goes through two nested loops, over these interfaces
and over what each of them feeds, and a source could be missed or be listed
twice. Neither happens: in a linked station an interface feeds exactly those
sources that name it, so the sources are parted among the interfaces. They
come out in the order of their interfaces, and for each interface in their own
order.

What is listed can be seen on the lines themselves. Every line shows the verdict
of its source under the declared callsign, and in JSON the number of each
source ends exactly one line.

If an interface is asked for by its callsign, the listing has the sources of
the first interface that was declared with that callsign. In both cases
nothing waits to be sent when the next line is read.

## Main definitions

* `ShowsVerdict`: A line shows the verdict of a source.
* `Station.sourcesOn`: The sources that listen to an interface.
* `Station.feeding`: The interfaces to which a source listens at all.
* `Source.ListedBefore`: The order in which sources are listed.

## Theorems

* `forall₂_verdicts`: One verdict for each source on an interface.
* `pairwise_listedBefore`, `perm_sources`: Going through the interfaces gives
  every source once, in order.
* `ids_of_judge?`: Verdicts bear the numbers of sources and digipeaters.
* `map_callsign_build`: Interfaces keep the callsigns that were declared.
* `forall₂_frameLines`: What is listed for a frame, source by source.
* `ofLine_of_frameOn?`: What is listed for a line with a frame.
* `countP_mentionsSource`: In JSON every number ends exactly one line.
* `ofLine_receivingInterfaces`: The listing with and without a callsign.
-/

namespace AprsRelay

-- Values that are all there are picked in order.
theorem forall₂_filterMap_of_isSome {α β : Type} (f : α → Option β) (xs : List α)
    (h : ∀ x ∈ xs, (f x).isSome) :
    List.Forall₂ (fun x y => f x = some y) xs (xs.filterMap f) := by
  induction xs with
  | nil => exact .nil
  | cons x xs ih =>
      rcases Option.isSome_iff_exists.1 (h x List.mem_cons_self) with ⟨y, hy⟩
      rw [List.filterMap_cons_some hy]
      exact .cons hy (ih fun z hz => h z (List.mem_cons_of_mem x hz))

theorem forall₂_flatMap {α β γ : Type} {R : β → γ → Prop} (xs : List α) (f : α → List β)
    (g : α → List γ) (h : ∀ x ∈ xs, List.Forall₂ R (f x) (g x)) :
    List.Forall₂ R (xs.flatMap f) (xs.flatMap g) := by
  induction xs with
  | nil => exact .nil
  | cons x xs ih =>
      exact List.rel_append (h x List.mem_cons_self)
        (ih fun y hy => h y (List.mem_cons_of_mem x hy))

-- Where entries pass the tests of their lists alike, as many pass in both lists.
theorem countP_eq_of_forall₂ {α β : Type} (p : α → Bool) (q : β → Bool) {xs : List α}
    {ys : List β} (h : List.Forall₂ (fun x y => p x = q y) xs ys) : xs.countP p = ys.countP q := by
  induction h with
  | nil => rfl
  | cons hpq _ ih => rw [List.countP_cons, List.countP_cons, hpq, ih]

/-- The order in which sources are listed: by their interfaces, and on one
    interface by their own numbers. -/
def Source.ListedBefore (a b : Source) : Prop :=
  a.interface.index < b.interface.index ∨
    a.interface.index = b.interface.index ∧ a.id.index < b.id.index

theorem Source.ListedBefore.ne {a b : Source} (h : a.ListedBefore b) : a ≠ b := by
  rintro rfl
  rcases h with hlt | ⟨-, hlt⟩
  · exact Nat.lt_irrefl _ hlt
  · exact Nat.lt_irrefl _ hlt

/-! ## Sources by interface -/

namespace Station

/-- The sources that listen to an interface, in the order of their numbers. -/
def sourcesOn (s : Station) (id : InterfaceId) : List Source :=
  s.sources.filter fun source => source.interface = id

/-- The interfaces to which a source listens at all. -/
def feeding (s : Station) : List InterfaceId :=
  (s.interfaces.filter fun i => i.feeds ≠ []).map (·.id)

variable {s : Station}

theorem mem_sourcesOn_iff (source : Source) (id : InterfaceId) :
    source ∈ s.sourcesOn id ↔ source ∈ s.sources ∧ source.interface = id := by
  rw [sourcesOn, List.mem_filter, decide_eq_true_eq]

namespace Linked

variable (h : s.Linked)
include h

/-- The verdict of a source bears its number and that of its parent. -/
theorem ids_of_judge? (source : Source) (hsource : source ∈ s.sources) {frame : Frame}
    {v : Verdict} (hv : s.judge? source.id frame = some v) :
    v.source = source.id ∧ v.digipeater = source.parent := by
  rcases exists_of_judge? hv with ⟨source', d, hid, hd, rfl⟩
  rw [(h.source?_eq_some_iff source.id source).2 ⟨hsource, rfl⟩] at hid
  rcases Option.some.inj hid with rfl
  exact ⟨rfl, ((h.digipeater?_eq_some_iff _ d).1 hd).2⟩

-- No other source has the number of a source.
theorem countP_id (source : Source) (hsource : source ∈ s.sources) :
    s.sources.countP (fun other => other.id = source.id) = 1 := by
  have hnodup : (s.sources.map (·.id)).Nodup :=
    List.pairwise_map.2 (h.sources_ascending.imp fun hlt heq =>
      Nat.ne_of_lt hlt (congrArg SourceId.index heq))
  have hcount := List.count_eq_one_of_mem hnodup (List.mem_map_of_mem hsource)
  rwa [List.count_eq_countP, List.countP_map] at hcount

theorem sourcesOn_ascending (id : InterfaceId) :
    (s.sourcesOn id).Pairwise fun a b => a.id.index < b.id.index :=
  h.sources_ascending.filter _

/-- Each source on an interface gives one verdict on a frame that is heard
    there, in order. -/
theorem forall₂_verdicts (heardOn : InterfaceId) (frame : Frame) :
    List.Forall₂ (fun source v => s.judge? source.id frame = some v) (s.sourcesOn heardOn)
      (s.verdicts heardOn frame) := by
  rw [verdicts, h.feeds_eq, List.filterMap_map]
  refine forall₂_filterMap_of_isSome (fun source : Source => s.judge? source.id frame) _
    fun source hmem => ?_
  have hsource := (h.source?_eq_some_iff source.id source).2
    ⟨((mem_sourcesOn_iff source heardOn).1 hmem).1, rfl⟩
  exact h.judge?_isSome source.id source hsource frame

theorem feeding_ascending : s.feeding.Pairwise fun a b => a.index < b.index := by
  have hall : (s.interfaces.map fun i => i.id.index).Pairwise (· < ·) := by
    rw [map_of_numbered _ _ h.interface_id]
    exact List.pairwise_lt_range
  exact List.pairwise_map.2 ((List.pairwise_map.1 hall).filter _)

-- The interface of a source exists, and it feeds the source.
theorem mem_feeding (source : Source) (hsource : source ∈ s.sources) :
    source.interface ∈ s.feeding := by
  have hlt := (s.holds_iff _).1 (h.source_interface_held source hsource)
  have hplace : s.interface? source.interface = some s.interfaces[source.interface.index] :=
    List.getElem?_eq_getElem hlt
  have hid : s.interfaces[source.interface.index].id = source.interface :=
    congrArg InterfaceId.mk (h.interface_id _ _ hplace)
  have hfed : source.id ∈ s.feeds source.interface :=
    (h.mem_feeds_iff _ _).2 ⟨source, (h.source?_eq_some_iff _ _).2 ⟨hsource, rfl⟩, rfl⟩
  rw [feeds, hplace] at hfed
  exact List.mem_map.2 ⟨_, List.mem_filter.2
    ⟨List.getElem_mem hlt, decide_eq_true (List.ne_nil_of_mem hfed)⟩, hid⟩

/-- Going through the interfaces, and on each of them through its sources, gives
    the sources in order. -/
theorem pairwise_listedBefore : (s.feeding.flatMap s.sourcesOn).Pairwise Source.ListedBefore := by
  refine List.pairwise_flatMap.2
    ⟨fun id _ => ?_, h.feeding_ascending.imp fun hlt a ha b hb => .inl ?_⟩
  · refine (h.sourcesOn_ascending id).imp_of_mem fun ha hb hlt => .inr ⟨?_, hlt⟩
    rw [((mem_sourcesOn_iff _ id).1 ha).2, ((mem_sourcesOn_iff _ id).1 hb).2]
  · rw [((mem_sourcesOn_iff a _).1 ha).2, ((mem_sourcesOn_iff b _).1 hb).2]
    exact hlt

/-- It gives every source exactly once. -/
theorem perm_sources : (s.feeding.flatMap s.sourcesOn).Perm s.sources := by
  have hnodup : (s.feeding.flatMap s.sourcesOn).Nodup :=
    h.pairwise_listedBefore.imp fun hbefore => hbefore.ne
  have hnodup' : s.sources.Nodup := h.sources_ascending.imp fun hlt heq => by
    rw [heq] at hlt
    exact Nat.lt_irrefl _ hlt
  -- Neither list has a source twice, so it is enough that they have the same sources.
  refine (List.perm_ext_iff_of_nodup hnodup hnodup').2 fun source => ?_
  rw [List.mem_flatMap]
  constructor
  · rintro ⟨id, -, hon⟩
    exact ((mem_sourcesOn_iff source id).1 hon).1
  · intro hsource
    exact ⟨source.interface, h.mem_feeding source hsource,
      (mem_sourcesOn_iff source _).2 ⟨hsource, rfl⟩⟩

end Linked

-- Carrying out plans does not touch callsigns.
theorem map_callsign_installAll (s : Station) (plans : List DigipeaterPlan) :
    (s.installAll plans).interfaces.map (·.callsign) = s.interfaces.map (·.callsign) := by
  induction plans generalizing s with
  | nil => rfl
  | cons plan plans ih =>
      refine (ih (s.install plan)).trans ?_
      simp only [install, map_linkSources _ _ Interface.callsign fun _ _ => rfl]

end Station

/-! ## Declared interfaces -/

section

variable (settings : Settings) (file : BlockFile)

theorem map_callsign_build :
    (LoadedStation.build settings file).station.interfaces.map (·.callsign) =
      settings.interfaces.map (·.callsign) := by
  rw [build_of_file, Station.map_callsign_installAll, Station.ofSettings_eq, List.map_map]
  conv_rhs => rw [← List.zipIdx_map_fst 0 settings.interfaces, List.map_map]
  rfl

-- An interface that exists was declared, with the callsign that it has.
theorem exists_declared (id : InterfaceId)
    (hid : (LoadedStation.build settings file).station.holds id = true) :
    ∃ i, settings.interfaces[id.index]? = some i ∧
      ((LoadedStation.build settings file).station.interface? id).map (·.callsign) =
        some i.callsign := by
  have hplace := List.getElem?_eq_getElem ((Station.holds_iff _ id).1 hid)
  have hcallsigns := congrArg (·[id.index]?) (map_callsign_build settings file)
  simp only [List.getElem?_map, hplace, Option.map_some] at hcallsigns
  rcases Option.map_eq_some_iff.1 hcallsigns.symm with ⟨i, hi, hcallsign⟩
  refine ⟨i, hi, ?_⟩
  rw [Station.interface?, hplace, Option.map_some, hcallsign]

end

/-! ## Lines -/

/-- A line shows the verdict of a source on a frame, in one of the two forms and
    under the callsign that settings declare for the interface of the source.
    The verdict bears the numbers of the source and of its digipeater. -/
def ShowsVerdict (settings : Settings) (s : Station) (json : Bool) (frame : Frame)
    (source : Source) (line : String) : Prop :=
  ∃ i v, settings.interfaces[source.interface.index]? = some i ∧
    s.judge? source.id frame = some v ∧ v.source = source.id ∧ v.digipeater = source.parent ∧
    if json = true then JsonShows i.callsign frame v line else TextShows i.callsign frame v line

/-- A JSON line that shows the verdict of a source ends in the number of the
    source, and in no other. -/
theorem ShowsVerdict.mentionsSource_iff {settings : Settings} {s : Station} {frame : Frame}
    {source : Source} {line : String} (h : ShowsVerdict settings s true frame source line)
    (id : SourceId) : MentionsSource id line ↔ source.id = id := by
  rcases h with ⟨i, v, -, -, hsource, -, hline⟩
  have hmention : MentionsSource source.id line :=
    hsource ▸ ((if_pos rfl).mp hline : JsonShows i.callsign frame v line).mentionsSource
  constructor
  · exact fun hid => hmention.unique hid
  · rintro rfl
    exact hmention

/-- A line with a frame is listed like the frame, and it leaves nothing that
    waits to be sent. -/
theorem Listing.ofLine_of_frameOn? (l : Listing) (relay : Relay) (input : Bytes) (frame : Frame)
    (hframe : frameOn? input = some frame) :
    ∃ after, after.station = relay.station ∧ after.queue = [] ∧
      l.ofLine relay input = .ok (l.frameLines relay.station frame, after) := by
  rcases l.ofFrame_eq relay frame with ⟨after, hstation, hqueue, hlisted⟩
  refine ⟨after, hstation, hqueue, ?_⟩
  rcases Option.bind_eq_some_iff.1 hframe with ⟨text, htext, hparsed⟩
  rw [ofLine, decodeText, htext]
  simp only
  cases hparse : Frame.parse (String.ofList (Text.trimEnd text.toList)) with
  | error e =>
      rw [hparse] at hparsed
      cases hparsed
  | ok parsed =>
      rw [hparse] at hparsed
      rcases Option.some.inj hparsed with rfl
      exact congrArg Except.ok hlisted

section

variable (settings : Settings) (file : BlockFile) (l : Listing) (frame : Frame)

/-- The lines for the verdicts of an interface show its sources one by one. -/
theorem forall₂_lines (heardOn : InterfaceId) :
    let s := (LoadedStation.build settings file).station
    List.Forall₂ (ShowsVerdict settings s l.json frame) (s.sourcesOn heardOn)
      ((s.verdicts heardOn frame).map (l.line s heardOn frame)) := by
  intro s
  have h : s.Linked := linked_build settings file
  have hpairs := (List.forall₂_and_left _ _).2
    ⟨fun source hmem => (Station.mem_sourcesOn_iff source heardOn).1 hmem,
      h.forall₂_verdicts heardOn frame⟩
  refine List.forall₂_map_right_iff.2 (hpairs.imp fun source v hpair => ?_)
  rcases hpair with ⟨⟨hmem, hon⟩, hv⟩
  rcases exists_declared settings file source.interface (h.source_interface_held source hmem) with
    ⟨i, hi, hcallsign⟩
  rcases h.ids_of_judge? source hmem hv with ⟨hsource, hparent⟩
  refine ⟨i, v, hi, hv, hsource, hparent, ?_⟩
  rw [hon] at hcallsign
  rw [Listing.line, hcallsign, Option.getD_some]
  cases l.json with
  | false => exact textShows_verdictText i.callsign frame v
  | true => exact jsonShows_verdictJson i.callsign frame v

/-- What is listed for a frame: on each interface in turn, the sources there
    one by one. -/
theorem forall₂_frameLines :
    let s := (LoadedStation.build settings file).station
    List.Forall₂ (ShowsVerdict settings s l.json frame) (l.interfaces.flatMap s.sourcesOn)
      (l.frameLines s frame) :=
  forall₂_flatMap l.interfaces _ _ fun heardOn _ => forall₂_lines settings file l frame heardOn

-- Where every source has its line in JSON, every number ends exactly one line.
theorem countP_mentionsSource {s : Station} (h : s.Linked) (order : List Source)
    (hperm : order.Perm s.sources) (lines : List String)
    (hshown : List.Forall₂ (ShowsVerdict settings s true frame) order lines) (source : Source)
    (hsource : source ∈ s.sources) :
    lines.countP (fun line => MentionsSource source.id line) = 1 := by
  have hsame := countP_eq_of_forall₂ (fun other : Source => decide (other.id = source.id))
    (fun line => decide (MentionsSource source.id line))
    (hshown.imp fun other line hline => decide_eq_decide.2 (hline.mentionsSource_iff _).symm)
  rw [← hsame, hperm.countP_eq, h.countP_id source hsource]

end

/-- Without a callsign, what is listed for a line with a frame shows the verdict
    of every source of the station, each exactly once, by their interfaces and
    then by their own numbers, under the callsigns that were declared; in JSON
    the number of every source ends exactly one line. With a callsign it shows
    the sources on the first interface that was declared with it, in capitals
    or not, in ascending order; a callsign that was not declared is reported.
    The queue is empty again before the next line. -/
theorem ofLine_receivingInterfaces (settings : Settings) (file : BlockFile) (json : Bool)
    (queue : List Outgoing) (tally : Tally) (input : Bytes) (frame : Frame)
    (hframe : frameOn? input = some frame) :
    let s := (LoadedStation.build settings file).station
    (∃ interfaces lines after order,
      receivingInterfaces s none = .ok interfaces ∧
        (⟨interfaces, json⟩ : Listing).ofLine ⟨s, queue, tally⟩ input = .ok (lines, after) ∧
        after.station = s ∧ after.queue = [] ∧
        order.Perm s.sources ∧ order.Pairwise Source.ListedBefore ∧
        List.Forall₂ (ShowsVerdict settings s json frame) order lines ∧
        (json = true → ∀ source ∈ s.sources,
          lines.countP (fun line => MentionsSource source.id line) = 1)) ∧
      ∀ callsign,
        let declared := settings.interfaces.findIdx? fun i =>
          Text.sameLetters i.callsign callsign
        (declared = none →
          receivingInterfaces s (some callsign) = .error (.unknownInterface callsign)) ∧
        ∀ k, declared = some k →
          receivingInterfaces s (some callsign) = .ok [⟨k⟩] ∧
            ∃ lines after,
              (⟨[⟨k⟩], json⟩ : Listing).ofLine ⟨s, queue, tally⟩ input = .ok (lines, after) ∧
                after.station = s ∧ after.queue = [] ∧
                (s.sourcesOn ⟨k⟩).Pairwise (fun a b => a.id.index < b.id.index) ∧
                List.Forall₂ (ShowsVerdict settings s json frame) (s.sourcesOn ⟨k⟩) lines := by
  intro s
  have h : s.Linked := linked_build settings file
  have hlisted : ∀ interfaces, ∃ after, after.station = s ∧ after.queue = [] ∧
      (⟨interfaces, json⟩ : Listing).ofLine ⟨s, queue, tally⟩ input =
        .ok ((⟨interfaces, json⟩ : Listing).frameLines s frame, after) :=
    fun interfaces =>
      Listing.ofLine_of_frameOn? ⟨interfaces, json⟩ ⟨s, queue, tally⟩ input frame hframe
  constructor
  · rcases hlisted s.feeding with ⟨after, hstation, hqueue, hline⟩
    have hshown := forall₂_frameLines settings file ⟨s.feeding, json⟩ frame
    refine ⟨s.feeding, _, after, _, rfl, hline, hstation, hqueue, h.perm_sources,
      h.pairwise_listedBefore, hshown, ?_⟩
    rintro rfl source hsource
    exact countP_mentionsSource settings frame h _ h.perm_sources _ hshown source hsource
  · intro callsign declared
    have hfind : s.findInterface? callsign = declared.map InterfaceId.mk :=
      findInterface?_build settings file callsign
    refine ⟨fun hnone => ?_, fun k hk => ⟨?_, ?_⟩⟩
    · rw [receivingInterfaces, hfind, hnone]
      rfl
    · rw [receivingInterfaces, hfind, hk]
      rfl
    · rcases hlisted [⟨k⟩] with ⟨after, hstation, hqueue, hline⟩
      have hshown := forall₂_frameLines settings file ⟨[⟨k⟩], json⟩ frame
      simp only [List.flatMap_singleton] at hshown
      exact ⟨_, after, hline, hstation, hqueue, h.sourcesOn_ascending ⟨k⟩, hshown⟩

/-- A digipeater that listens on the second interface before the first. -/
def crossedFile : BlockFile where
  name := "digi.conf"
  nodes := [.block ⟨1, "digipeater", true⟩ [.statement ⟨2, "transmit", ["N0CALL"]⟩,
    .block ⟨3, "source", true⟩ [.statement ⟨4, "source", ["N1CALL"]⟩],
    .block ⟨6, "source", true⟩ [.statement ⟨7, "source", ["N0CALL"]⟩]]]

-- The lines of a listing whose value is known.
theorem Listing.lines_of_ofLine (l : Listing) (relay after : Relay) (input : Bytes)
    (lines lines' : List String) (h : l.ofLine relay input = .ok (lines, after))
    (hlines : (l.ofLine relay input).toOption.map Prod.fst = some lines') :
    l.ofLine relay input = .ok (lines', after) := by
  rw [h] at hlines
  have heq : lines = lines' := Option.some.inj hlines
  rw [h, heq]

/-- Both sources are listed for a frame, the one on the first interface before
    the one with the lower number. In JSON each number ends one line. Asked for
    the second interface, the listing has the first source alone. -/
theorem ofLine_receivingInterfaces_crossed :
    let settings := { Settings.standard with interfaces := [⟨"N0CALL", true⟩, ⟨"N1CALL", false⟩] }
    let s := (LoadedStation.build settings crossedFile).station
    let input := Text.utf8 "A>B,WIDE1-1:x".toList
    frameOn? input = some ⟨"A", "B", some "WIDE1-1", "x"⟩ ∧
      receivingInterfaces s none = .ok [⟨0⟩, ⟨1⟩] ∧
      (∃ after, after.queue = [] ∧
        (⟨[⟨0⟩, ⟨1⟩], false⟩ : Listing).ofLine (.ofStation s) input =
          .ok (["DIGIPEAT digi#0 via N0CALL: req=1 done=0 traces=0 A>B,WIDE1-1:x",
            "DIGIPEAT digi#0 via N1CALL: req=1 done=0 traces=0 A>B,WIDE1-1:x"], after)) ∧
      (∃ lines after, (⟨[⟨0⟩, ⟨1⟩], true⟩ : Listing).ofLine (.ofStation s) input =
          .ok (lines, after) ∧
        lines.countP (fun line => MentionsSource ⟨0⟩ line) = 1 ∧
        lines.countP (fun line => MentionsSource ⟨1⟩ line) = 1) ∧
      receivingInterfaces s (some "n1call") = .ok [⟨1⟩] ∧
      ∃ after, after.queue = [] ∧
        (⟨[⟨1⟩], true⟩ : Listing).ofLine (.ofStation s) input =
          .ok (["\x7b\"frame\":\"A>B,WIDE1-1:x\",\"interface\":\"N1CALL\",\"verdict\":\x7b" ++
            "\"accepted\":true,\"digipeater\":0,\"faults\":[],\"fields\":1," ++
            "\"hops\":\x7b\"completed\":0,\"requested\":1,\"traces\":0\x7d," ++
            "\"provenance\":false,\"source\":0\x7d\x7d"], after) := by
  intro settings s input
  have hframe : frameOn? input = some ⟨"A", "B", some "WIDE1-1", "x"⟩ := by decide +kernel
  have hfeeding : receivingInterfaces s none = .ok [⟨0⟩, ⟨1⟩] := by
    rw [receivingInterfaces, Except.ok.injEq]
    decide
  have htext := ofLine_receivingInterfaces settings crossedFile false [] .zero input _ hframe
  have hjson := ofLine_receivingInterfaces settings crossedFile true [] .zero input _ hframe
  refine ⟨hframe, hfeeding, ?_, ?_, ((hjson.2 "n1call").2 1 (by decide)).1, ?_⟩
  · rcases htext.1 with ⟨interfaces, lines, after, order, hreceiving, hline, -, hqueue, -⟩
    rw [hfeeding] at hreceiving
    rcases Except.ok.inj hreceiving with rfl
    exact ⟨after, hqueue, Listing.lines_of_ofLine _ _ _ _ _ _ hline (by decide +kernel)⟩
  · rcases hjson.1 with ⟨interfaces, lines, after, order, hreceiving, hline, -, -, -, -, -, hcount⟩
    rw [hfeeding] at hreceiving
    rcases Except.ok.inj hreceiving with rfl
    have hsources : s.sources.map (·.id) = [⟨0⟩, ⟨1⟩] := by decide
    have hone : ∀ id ∈ [SourceId.mk 0, ⟨1⟩],
        lines.countP (fun line => MentionsSource id line) = 1 := by
      intro id hid
      rw [← hsources] at hid
      rcases List.mem_map.1 hid with ⟨source, hsource, rfl⟩
      exact hcount rfl source hsource
    exact ⟨lines, after, hline, hone _ (by decide), hone _ (by decide)⟩
  · rcases ((hjson.2 "n1call").2 1 (by decide)).2 with ⟨lines, after, hline, -, hqueue, -⟩
    exact ⟨after, hqueue, Listing.lines_of_ofLine _ _ _ _ _ _ hline (by decide +kernel)⟩

end AprsRelay
