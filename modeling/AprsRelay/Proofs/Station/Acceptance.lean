import AprsRelay.Proofs.Frame.Parts
import AprsRelay.Proofs.Plan.Declared
import AprsRelay.Proofs.Station.Links
import AprsRelay.Proofs.Via.Unspent

/-!
# What is Sent On

The decision on a frame, told by the pieces of its via path. `Unspent` has the
decision for any keyword sets without an empty keyword; here this is known of
the sets of a station. A keyword set gets into a station with a plan, a plan
that was built from a block has its sets from clean keyword blocks, and those
list no empty keyword. The standard sets have none either.

## Main definitions

* `SourcePlan.KeysSound`, `DigipeaterPlan.KeysSound`, `Station.KeysSound`:
  No keyword set has an empty keyword.

## Theorems

* `keysSound_of_isBuilt`: The sets of a plan that was built.
* `keysSound_of_grows`: The sets of a station that grew by such plans.
* `judge?_accepted_iff`: When a source has a frame sent on.
-/

namespace AprsRelay

/-- No keyword set of a source to be has an empty keyword. -/
def SourcePlan.KeysSound (plan : SourcePlan) : Prop :=
  ∀ set, plan.trace = some set ∨ plan.wide = some set → set.Sound

/-- The same for a digipeater to be and its sources. -/
def DigipeaterPlan.KeysSound (plan : DigipeaterPlan) : Prop :=
  (∀ set, plan.trace = some set ∨ plan.wide = some set → set.Sound) ∧
    ∀ source ∈ plan.sources, source.KeysSound

-- A set that a block declares has no empty keyword, since the reader drops
-- these.
theorem sound_of_declaredSet? (kind : KeywordKind) (b : Block) (set : KeywordSet)
    (h : b.declaredSet? kind = some set) : set.Sound := by
  rcases Option.bind_eq_some_iff.1 h with ⟨kb, -, hset⟩
  rcases Option.map_eq_some_iff.1 hset with ⟨made, hmade, rfl⟩
  exact KeywordSet.ne_empty_of_ofKeys? kind _ made hmade

-- A source to be has the sets that its block declares.
theorem keysSound_of_cleanSource (station : Station) (b : Block) (plan : SourcePlan)
    (h : CleanSource station b plan) : plan.KeysSound := by
  rcases declared_of_cleanSource station b plan h with ⟨-, htrace, hwide⟩
  intro set hset
  rw [htrace, hwide] at hset
  rcases hset with hset | hset
  · exact sound_of_declaredSet? .trace b set hset
  · exact sound_of_declaredSet? .wide b set hset

/-- A plan that was built has no set with an empty keyword. -/
theorem keysSound_of_isBuilt (plan : DigipeaterPlan) (h : plan.IsBuilt) : plan.KeysSound := by
  rcases h with ⟨station, file, b, hbuilt⟩
  rcases declared_of_ofBlock station file b plan hbuilt with ⟨htrace, hwide, -⟩
  constructor
  · intro set hset
    rw [htrace, hwide] at hset
    rcases hset with hset | hset
    · exact sound_of_declaredSet? .trace b set hset
    · exact sound_of_declaredSet? .wide b set hset
  · intro source hsource
    rcases exists_cleanSource_of_mem station file b plan hbuilt source hsource with ⟨sub, hsub⟩
    exact keysSound_of_cleanSource station sub source hsub

theorem sound_standard (kind : KeywordKind) : (KeywordSet.standard kind).Sound := by
  cases kind <;> simp [KeywordSet.standard, KeywordSet.Sound]

theorem sound_getD_standard (set : Option KeywordSet) (kind : KeywordKind)
    (h : ∀ s, set = some s → s.Sound) : (set.getD (.standard kind)).Sound := by
  cases set with
  | none => exact sound_standard kind
  | some set => exact h set rfl

namespace Station

/-- No keyword set of a station has an empty keyword. -/
def KeysSound (s : Station) : Prop :=
  (∀ source ∈ s.sources, ∀ set, source.trace = some set ∨ source.wide = some set → set.Sound) ∧
    ∀ d ∈ s.digipeaters, d.trace.Sound ∧ d.wide.Sound

-- The sets that apply to a source of such a station have no empty keyword.
theorem sound_scopeSet (s : Station) (h : s.KeysSound) (source : Source)
    (hsource : source ∈ s.sources) (d : Digipeater) (hd : d ∈ s.digipeaters) :
    (scopeSet source d).Sound := by
  intro scope set hset
  cases scope with
  | sourceTrace => exact h.1 source hsource set (Or.inl hset)
  | digipeaterTrace =>
      rcases Option.some.inj hset with rfl
      exact (h.2 d hd).1
  | sourceWide => exact h.1 source hsource set (Or.inr hset)
  | digipeaterWide =>
      rcases Option.some.inj hset with rfl
      exact (h.2 d hd).2

theorem keysSound_install (s : Station) (h : s.KeysSound) (plan : DigipeaterPlan)
    (hplan : plan.KeysSound) : (s.install plan).KeysSound := by
  constructor
  · intro source hsource set hset
    simp only [install, List.mem_append] at hsource
    rcases hsource with hsource | hsource
    · exact h.1 source hsource set hset
    · -- A new source has the sets of the plan that it comes from.
      rcases SourcePlan.exists_of_mem_enlistAll _ _ _ source hsource with ⟨planned, hmem, id, rfl⟩
      exact hplan.2 planned hmem set hset
  · intro d hd
    simp only [install, List.mem_append, List.mem_singleton] at hd
    rcases hd with hd | rfl
    · exact h.2 d hd
    · exact ⟨sound_getD_standard _ _ (fun set hset => hplan.1 set (Or.inl hset)),
        sound_getD_standard _ _ (fun set hset => hplan.1 set (Or.inr hset))⟩

/-- A station that grows by plans without an empty keyword gets none. -/
theorem keysSound_of_grows_keysSound (s t : Station) (hs : s.KeysSound)
    (h : Grows DigipeaterPlan.KeysSound s t) : t.KeysSound := by
  induction h with
  | refl => exact hs
  | addInterface t callsign canTransmit _ ih => exact ih
  | install t plan _ hplan _ ih => exact keysSound_install t ih plan hplan

-- Plans that were built have none.
theorem keysSound_of_grows (s t : Station) (hs : s.KeysSound)
    (h : Grows DigipeaterPlan.IsBuilt s t) : t.KeysSound :=
  keysSound_of_grows_keysSound s t hs (grows_mono keysSound_of_isBuilt h)

theorem keysSound_empty (mycall : String) : (empty mycall).KeysSound := by
  simp [KeysSound, empty]

/-- A source has a frame sent on exactly when some piece of the via path has a
    hop left, whatever the other pieces are. The station may have come about in
    any way, as long as its plans were built from blocks. So the totals that
    the decision compares say the same as the fields one by one. -/
theorem judge?_accepted_iff (mycall : String) (changes : List Change)
    (hbuilt : ∀ plan, .commit plan ∈ changes → plan.IsBuilt) (line : String) (f : Frame)
    (hparse : Frame.parse line = .ok f) :
    let s := (empty mycall).grow changes
    ∀ source ∈ s.sources, ∃ d v, s.digipeater? source.parent = some d ∧
      s.judge? source.id f = some v ∧
      (v.accepted = true ↔ ∃ j, UnspentAt (scopeSet source d) f.viaPieces j) ∧
      (v.accepted = true ↔ ∃ field ∈ (ViaPath.ofSegment f.viaSegment).fields,
        (fieldHops (scopeSet source d) field).remaining = true) := by
  intro s source hsource
  have hgrows : Grows DigipeaterPlan.IsBuilt (empty mycall) s :=
    grows_grow (fun _ h => h) _ _ hbuilt
  have hlinked : s.Linked := linked_grow (linked_empty mycall) changes
  have hkeys : s.KeysSound := keysSound_of_grows _ s (keysSound_empty mycall) hgrows
  rcases hlinked.exists_parent source hsource with ⟨d, hd, -⟩
  have hsets : (scopeSet source d).Sound :=
    sound_scopeSet s hkeys source hsource d (List.mem_of_getElem? hd)
  have hid := (hlinked.source?_eq_some_iff source.id source).2 ⟨hsource, rfl⟩
  refine ⟨d, _, hd, judge?_eq_some s hid hd f, ?_, ?_⟩
  · rw [← Frame.pieces_viaSegment f (Frame.parse_wellFormed line f hparse)]
    exact accepted_accountIn_iff_unspentAt _ hsets _
  · exact accepted_accountIn_iff _ _

/-- A plain digipeater block: it sends and listens on the interface that has
    the callsign of the station. -/
def plainBlock : Block where
  line := 1
  tag := "digipeater"
  closed := true
  body := [.statement ⟨2, "transmit", ["$mycall"]⟩,
    .block ⟨3, "source", true⟩ [.statement ⟨4, "source", ["n0call"]⟩]]

/-- What the plain block asks for, where the first interface has the callsign
    of the station. -/
def plainPlan : DigipeaterPlan where
  transmitter := ⟨0⟩
  rateLimit := 300
  viscousDelay := 0
  trace := none
  wide := none
  sources := [⟨⟨0⟩, .unset, [], none, none⟩]

theorem isBuilt_plainPlan : plainPlan.IsBuilt :=
  ⟨(empty "N0CALL").addInterface "N0CALL" true, "digi.conf", plainBlock, by decide⟩

/-- The source of a plain digipeater sends on a frame that asks for a hop. The
    field before it, which is used up, is not in the way. -/
theorem judge?_accepted_iff_plain :
    (∀ plan, .commit plan ∈ [Change.addInterface "N0CALL" true, .commit plainPlan] →
      plan.IsBuilt) ∧
    Frame.parse "OH7LZB>APRS,WIDE1,WIDE2-2:x" =
      .ok ⟨"OH7LZB", "APRS", some "WIDE1,WIDE2-2", "x"⟩ ∧
    ∃ d v, v.accepted = true ∧
      ((empty "N0CALL").grow [.addInterface "N0CALL" true, .commit plainPlan]).judge? ⟨0⟩
        ⟨"OH7LZB", "APRS", some "WIDE1,WIDE2-2", "x"⟩ = some v ∧
      ∃ j, UnspentAt (scopeSet ⟨⟨0⟩, ⟨0⟩, ⟨0⟩, .unset, [], none, none⟩ d)
        (Frame.viaPieces ⟨"OH7LZB", "APRS", some "WIDE1,WIDE2-2", "x"⟩) j := by
  have hbuilt : ∀ plan, .commit plan ∈ [Change.addInterface "N0CALL" true, .commit plainPlan] →
      plan.IsBuilt := by
    intro plan hplan
    simp only [List.mem_cons, reduceCtorEq, Change.commit.injEq, List.not_mem_nil, or_false,
      false_or] at hplan
    rw [hplan]
    exact isBuilt_plainPlan
  have hparse : Frame.parse "OH7LZB>APRS,WIDE1,WIDE2-2:x" =
      .ok ⟨"OH7LZB", "APRS", some "WIDE1,WIDE2-2", "x"⟩ := by decide +kernel
  refine ⟨hbuilt, hparse, ?_⟩
  rcases judge?_accepted_iff "N0CALL" _ hbuilt _ _ hparse
    ⟨⟨0⟩, ⟨0⟩, ⟨0⟩, .unset, [], none, none⟩ (by decide) with ⟨d, v, -, hv, hunspent, -⟩
  have haccepted : (((empty "N0CALL").grow [.addInterface "N0CALL" true, .commit plainPlan]).judge?
      ⟨0⟩ ⟨"OH7LZB", "APRS", some "WIDE1,WIDE2-2", "x"⟩).map (·.accepted) = some true := by
    decide +kernel
  have hv' := congrArg (Option.map (·.accepted)) hv
  rw [haccepted] at hv'
  have hacc : v.accepted = true := (Option.some.inj hv').symm
  exact ⟨d, v, hacc, hv, hunspent.1 hacc⟩

end Station

end AprsRelay
