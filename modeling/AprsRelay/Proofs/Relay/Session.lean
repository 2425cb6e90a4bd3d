import AprsRelay.Proofs.Station.Links
import AprsRelay.Relay
import Mathlib.Algebra.GroupWithZero.Nat

/-!
# Sessions

A session is a relay at work, with a record of everything that it has
returned. Frames are heard, the queue is taken out, and the station grows, in
any order. The queue and the counters of the relay can then be compared with
the verdicts in the record, and they agree: what was taken out and what still
waits is what the accepted verdicts ask for, in order, and the counters say
how many verdicts and faults there were.

The relay could lose something in two places without a word. A source that is
fed could give no verdict, and an accepted verdict could name a digipeater
that does not exist. Neither happens in a linked station, so the links of the
station are part of what one request preserves.

## Main definitions

* `Tally.ofVerdicts`: What the counters have to say about verdicts.
* `Relay.change`: A change of the station at work.
* `Request`: What can be asked of a relay.
* `Hearing`: A frame that was heard, and the verdicts that were returned.
* `Session`: A relay with its record.
* `Session.Accounted`: The relay agrees with the record.

## Theorems

* `foldl_countVerdict`: Counting verdict by verdict.
* `map_source_verdicts`: Every source that is fed gives one verdict.
* `outgoing_verdicts`: Every accepted verdict has a digipeater that sends.
* `read_of_mem_verdicts`: The via path is read alike for all sources.
* `accounted_step`, `accounted_run`: A request, and a session, keep account.
* `session_accounted`: Nothing is lost, sent twice or miscounted.
-/

namespace AprsRelay

/-! ## Counting -/

namespace Tally

/-- What the counters say after the given verdicts. -/
def ofVerdicts (verdicts : List Verdict) : Tally where
  accepted := verdicts.countP (·.accepted)
  dropped := verdicts.countP (!·.accepted)
  emptyFields := (verdicts.flatMap (·.faults)).countP (·.label = "empty_field")
  longFields := (verdicts.flatMap (·.faults)).countP (·.label = "field_too_long")

-- A fault is counted under its label.
theorem foldl_countFault (t : Tally) (faults : List PathFault) :
    faults.foldl countFault t =
      { t with
        emptyFields := t.emptyFields + faults.countP (·.label = "empty_field")
        longFields := t.longFields + faults.countP (·.label = "field_too_long") } := by
  induction faults generalizing t with
  | nil => rfl
  | cons fault faults ih =>
      rw [List.foldl_cons, ih, List.countP_cons, List.countP_cons]
      cases fault with
      | emptyField index =>
          simp only [countFault, PathFault.label, decide_true, if_true, Tally.mk.injEq,
            true_and]
          exact ⟨by omega, rfl⟩
      | fieldTooLong index length =>
          simp only [countFault, PathFault.label, decide_true, if_true, Tally.mk.injEq,
            true_and]
          exact ⟨rfl, by omega⟩

theorem countVerdict_ofVerdicts (before : List Verdict) (v : Verdict) :
    (ofVerdicts before).countVerdict v = ofVerdicts (before ++ [v]) := by
  rw [countVerdict, foldl_countFault]
  simp only [ofVerdicts, List.countP_append, List.flatMap_append, List.flatMap_singleton,
    List.countP_singleton]
  cases v.accepted <;> rfl

/-- Verdicts that are counted one by one are all counted. -/
theorem foldl_countVerdict (before verdicts : List Verdict) :
    verdicts.foldl countVerdict (ofVerdicts before) = ofVerdicts (before ++ verdicts) := by
  induction verdicts generalizing before with
  | nil => rw [List.foldl_nil, List.append_nil]
  | cons v verdicts ih =>
      rw [List.foldl_cons, countVerdict_ofVerdicts, ih, List.append_assoc, List.singleton_append]

-- A verdict is for a frame or against it.
theorem accepted_add_dropped (verdicts : List Verdict) :
    (ofVerdicts verdicts).accepted + (ofVerdicts verdicts).dropped = verdicts.length := by
  rw [List.length_eq_countP_add_countP (·.accepted)]
  simp only [ofVerdicts, Bool.not_eq_true, Bool.decide_eq_false]

end Tally

/-! ## Verdicts of a linked station -/

namespace Station

variable {s : Station}

/-- All sources read the via path of a frame alike. They differ only in what
    the fields mean to them. -/
theorem read_of_mem_verdicts {heardOn : InterfaceId} {frame : Frame} {v : Verdict}
    (hv : v ∈ s.verdicts heardOn frame) :
    v.fields = (ViaPath.ofSegment frame.viaSegment).fields.length ∧
      v.provenance = (ViaPath.ofSegment frame.viaSegment).provenance ∧
      v.faults = (ViaPath.ofSegment frame.viaSegment).faults := by
  rcases List.mem_filterMap.1 hv with ⟨id, -, hjudged⟩
  rcases exists_of_judge? hjudged with ⟨source, d, -, -, rfl⟩
  exact ⟨List.length_map _, rfl, rfl⟩

/-- Every source that an interface feeds gives one verdict, in the order of
    the feed. -/
theorem map_source_verdicts (h : s.Linked) (heardOn : InterfaceId) (frame : Frame) :
    (s.verdicts heardOn frame).map (·.source) = s.feeds heardOn := by
  have hjudged : ∀ id ∈ s.feeds heardOn,
      (s.judge? id frame).map (·.source) = some id := by
    intro id hid
    rcases (h.mem_feeds_iff heardOn id).1 hid with ⟨source, hsource, -⟩
    rcases h.exists_parent source (List.mem_of_getElem? hsource) with ⟨d, hd, -⟩
    rw [judge?_eq_some s hsource hd]
    rfl
  rw [verdicts, List.map_filterMap, List.filterMap_congr hjudged]
  exact List.filterMap_some

/-- Every accepted verdict has a digipeater that sends the frame. -/
theorem outgoing_verdicts (h : s.Linked) (heardOn : InterfaceId) (frame : Frame) :
    Relay.outgoing s (s.verdicts heardOn frame) frame =
      ((s.verdicts heardOn frame).filter (·.accepted)).map fun v => ⟨v.digipeater, frame⟩ := by
  rw [Relay.outgoing, List.filterMap_eq_map_iff_forall_eq_some]
  intro v hv
  rcases List.mem_filterMap.1 (List.mem_filter.1 hv).1 with ⟨id, -, hjudged⟩
  rcases exists_of_judge? hjudged with ⟨source, d, -, hd, rfl⟩
  -- The digipeater of the source is found under its own number too.
  have hmem := ((h.digipeater?_eq_some_iff _ d).1 hd).1
  have hown := (h.digipeater?_eq_some_iff d.id d).2 ⟨hmem, rfl⟩
  simp only [Verdict.ofAccount, hown, Option.map_some]

end Station

/-! ## Requests -/

/-- A change of the station while it is at work. -/
def Relay.change (r : Relay) : Change → Relay
  | .addInterface callsign canTransmit => (r.addInterface callsign canTransmit).2
  | .load file => (r.load file).2
  | .commit plan => (r.commit plan).2

/-- A change is made to the station alone. -/
theorem Relay.change_eq (r : Relay) (c : Change) :
    r.change c = { r with station := r.station.change c } := by
  cases c with
  | addInterface callsign canTransmit => rfl
  | load file => rfl
  | commit plan =>
      simp only [change, commit, Station.change]
      cases r.station.commit? plan <;> rfl

/-- What can be asked of a relay at any time. -/
inductive Request where
  | receive (heardOn : InterfaceId) (frame : Frame)
  | drain
  | change (c : Change)

/-- A frame that was heard, on which interface, by which station, and the
    verdicts that were returned. -/
structure Hearing where
  station : Station
  heardOn : InterfaceId
  frame : Frame
  verdicts : List Verdict

/-- What the accepted verdicts of a hearing ask to send. -/
def Hearing.outgoing (h : Hearing) : List Outgoing :=
  (h.verdicts.filter (·.accepted)).map fun v => ⟨v.digipeater, h.frame⟩

/-- A relay, with all frames that were heard and all that was taken out of the
    queue so far. -/
structure Session where
  relay : Relay
  hearings : List Hearing
  drained : List Outgoing

namespace Session

/-- The start of a session: nothing has been heard, and nothing waits. -/
def start (s : Station) : Session :=
  ⟨.ofStation s, [], []⟩

/-- One request, and what it returns. -/
def step (s : Session) : Request → Session
  | .receive heardOn frame =>
    let (verdicts, relay) := s.relay.receive heardOn frame
    { s with relay, hearings := s.hearings ++ [⟨s.relay.station, heardOn, frame, verdicts⟩] }
  | .drain =>
    let (taken, relay) := s.relay.drain
    { s with relay, drained := s.drained ++ taken }
  | .change c => { s with relay := s.relay.change c }

/-- Several requests, one after the other. -/
def run (s : Session) (requests : List Request) : Session :=
  requests.foldl step s

/-- All verdicts that were returned, in order. -/
def verdicts (s : Session) : List Verdict :=
  s.hearings.flatMap (·.verdicts)

/-- All that the accepted verdicts ask to send, in order. -/
def outgoing (s : Session) : List Outgoing :=
  s.hearings.flatMap Hearing.outgoing

/-- The queue and the counters agree with what was returned, and no source was
    passed over. -/
structure Accounted (s : Session) : Prop where
  linked : s.relay.station.Linked
  sent : s.drained ++ s.relay.queue = s.outgoing
  tally : s.relay.tally = .ofVerdicts s.verdicts
  judged : ∀ h ∈ s.hearings, h.verdicts = h.station.verdicts h.heardOn h.frame ∧
    h.verdicts.map (·.source) = h.station.feeds h.heardOn

theorem accounted_start {s : Station} (h : s.Linked) : (start s).Accounted where
  linked := h
  sent := rfl
  tally := rfl
  judged := fun _ hmem => nomatch hmem

/-- One request keeps account. -/
theorem accounted_step {s : Session} (h : s.Accounted) (request : Request) :
    (s.step request).Accounted := by
  cases request with
  | receive heardOn frame =>
      refine ⟨h.linked, ?_, ?_, ?_⟩
      · -- What the new verdicts ask for is put behind all that waits.
        simp only [step, Relay.receive, outgoing, List.flatMap_append, List.flatMap_singleton]
        rw [← List.append_assoc, h.sent, Station.outgoing_verdicts h.linked]
        rfl
      · simp only [step, Relay.receive, verdicts, List.flatMap_append, List.flatMap_singleton]
        rw [h.tally, Tally.foldl_countVerdict]
        rfl
      · intro hearing hmem
        rcases List.mem_append.1 hmem with hmem | hmem
        · exact h.judged hearing hmem
        · rcases List.mem_singleton.1 hmem with rfl
          exact ⟨rfl, Station.map_source_verdicts h.linked heardOn frame⟩
  | drain =>
      refine ⟨h.linked, ?_, h.tally, h.judged⟩
      simp only [step, Relay.drain, List.append_nil]
      exact h.sent
  | change c =>
      simp only [step, Relay.change_eq]
      exact ⟨Station.linked_grow h.linked [c], h.sent, h.tally, h.judged⟩

/-- So does a whole session, request by request. -/
theorem accounted_run {s : Session} (h : s.Accounted) (requests : List Request) :
    (s.run requests).Accounted := by
  induction requests generalizing s with
  | nil => exact h
  | cons request requests ih => exact ih (accounted_step h request)

-- A frame is to be sent once for every accepted verdict on it.
theorem length_outgoing (s : Session) :
    s.outgoing.length = s.verdicts.countP (·.accepted) := by
  rw [outgoing, List.length_flatMap, verdicts, List.countP_flatMap]
  refine congrArg List.sum (List.map_congr_left fun h _ => ?_)
  rw [Hearing.outgoing, List.length_map, Function.comp_apply, List.countP_eq_length_filter]

end Session

/-- Whatever is asked of a relay and in whatever order, nothing is lost, sent
    twice or miscounted. What was taken out of the queue and what is still in
    it is, in order, what all accepted verdicts ask for. The counters say how
    many verdicts were for and against a frame, and how often each kind of
    fault was noted. Each frame that was heard got one verdict for every
    source that its interface fed at that moment, and these verdicts differ in
    what the fields of the via path mean, but not in what was read. -/
theorem session_accounted (mycall : String) (changes : List Change) (requests : List Request) :
    let s := (Session.start ((Station.empty mycall).grow changes)).run requests
    s.drained ++ s.relay.queue = s.outgoing ∧
      s.relay.tally.accepted = s.outgoing.length ∧
      s.relay.tally.accepted + s.relay.tally.dropped = s.verdicts.length ∧
      s.verdicts.length = (s.hearings.map fun h => (h.station.feeds h.heardOn).length).sum ∧
      s.relay.tally.emptyFields =
        (s.verdicts.flatMap (·.faults)).countP (·.label = "empty_field") ∧
      s.relay.tally.longFields =
        (s.verdicts.flatMap (·.faults)).countP (·.label = "field_too_long") ∧
      ∀ h ∈ s.hearings, h.verdicts.map (·.source) = h.station.feeds h.heardOn ∧
        ∀ v ∈ h.verdicts, ∀ w ∈ h.verdicts,
          v.fields = w.fields ∧ v.provenance = w.provenance ∧ v.faults = w.faults := by
  intro s
  have hlinked := Station.linked_grow (Station.linked_empty mycall) changes
  have h : s.Accounted := Session.accounted_run (Session.accounted_start hlinked) requests
  refine ⟨h.sent, ?_, ?_, ?_, ?_, ?_, ?_⟩
  · rw [h.tally, Session.length_outgoing]
    rfl
  · rw [h.tally]
    exact Tally.accepted_add_dropped s.verdicts
  · rw [Session.verdicts, List.length_flatMap]
    refine congrArg List.sum (List.map_congr_left fun hearing hmem => ?_)
    rw [← (h.judged hearing hmem).2, List.length_map]
  · rw [h.tally]
    rfl
  · rw [h.tally]
    rfl
  · intro hearing hmem
    rcases h.judged hearing hmem with ⟨hverdicts, hsources⟩
    refine ⟨hsources, fun v hv w hw => ?_⟩
    rw [hverdicts] at hv hw
    rcases Station.read_of_mem_verdicts hv with ⟨hfields, hprovenance, hfaults⟩
    rcases Station.read_of_mem_verdicts hw with ⟨hfields', hprovenance', hfaults'⟩
    exact ⟨hfields.trans hfields'.symm, hprovenance.trans hprovenance'.symm,
      hfaults.trans hfaults'.symm⟩

end AprsRelay
