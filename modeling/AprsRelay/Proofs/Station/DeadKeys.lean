import AprsRelay.Proofs.Station.Acceptance
import AprsRelay.Proofs.Station.Future
import AprsRelay.Proofs.Via.Shadow

/-!
# Keywords That Nothing Depends On

A source classifies fields by one scan over the keywords of four sets. Where
no keyword begins a field the length that is counted with is zero, and an empty
keyword would give the same length and hide all keywords behind it. A station
has no empty keyword, because no way to make a keyword set lets one in.

Some keywords of the scan start with an earlier one. A set that loses such a
keyword is as good as it was: the source classifies every field as before and
gives the same verdict on every frame. A set of a digipeater is consulted by
several sources, and the keyword may be dead for one of them and alive for
another. If it is dead for all of them, no verdict of the station changes.

A station whose set lost a keyword is again one that can come about: by the
same changes, with the keyword left out of the plan that brought it.

## Main definitions

* `KeywordSet.IsMade`: The ways to make a keyword set.
* `DigipeaterPlan.SetsMade`: Plans whose sets were made in one of them.
* `HeldSet`: The keyword sets of a station, told by who holds them.
* `Source.heldSet`: The set that a source consults at a scope.
* `Station.without`: The station with a keyword less in one set.
* `Station.DeadFor`: The keyword is dead for a source, if it is compared at all.

## Theorems

* `isMade_iff`: Sets that are made have keywords, and no empty one.
* `setsMade_of_isBuilt`: So have the sets of a plan that was built.
* `scopeSet_without`: The sets that apply, after one lost a keyword.
* `judge?_without`, `verdicts_without`: Verdicts without a dead keyword.
* `install_without`, `grows_without`: Such a station can come about.
* `classify_grow`: One scan, in which dead keywords do not matter.
-/

namespace AprsRelay

/-! ## How keyword sets are made -/

/-- The ways to make a keyword set: from keywords, of which the empty ones are
    dropped, as a standard set, and from another set with other hop caps. -/
inductive KeywordSet.IsMade : KeywordSet → Prop
  | ofKeys (kind : KeywordKind) (keys : List String) (set : KeywordSet)
      (h : ofKeys? kind keys = some set) : IsMade set
  | standard (kind : KeywordKind) : IsMade (.standard kind)
  | withCaps (set : KeywordSet) (maxRequested maxDone : Nat) (h : IsMade set) :
      IsMade (set.withCaps maxRequested maxDone)

namespace KeywordSet

theorem keys_ne_nil_of_ofKeys? (kind : KeywordKind) (keys : List String) (set : KeywordSet)
    (h : ofKeys? kind keys = some set) : set.keys ≠ [] := by
  unfold ofKeys? at h
  split at h
  · exact nomatch h
  · rename_i hkept
    rw [← Option.some.inj h]
    exact hkept

/-- A set that was made has a keyword, and none that is empty. Every such set
    can be made. -/
theorem isMade_iff (set : KeywordSet) : set.IsMade ↔ set.keys ≠ [] ∧ set.Sound := by
  constructor
  · intro h
    induction h with
    | ofKeys kind keys set h =>
        exact ⟨keys_ne_nil_of_ofKeys? kind keys set h, ne_empty_of_ofKeys? kind keys set h⟩
    | standard kind => exact ⟨(wellFormed_standard kind).keys_ne_nil, sound_standard kind⟩
    | withCaps set maxRequested maxDone _ ih => exact ih
  · rintro ⟨hne, hsound⟩
    have hmade : IsMade ⟨set.kind, set.keys, defaultCap, defaultCap⟩ :=
      .ofKeys set.kind set.keys _ (ofKeys?_of_ne_empty _ _ hne hsound)
    exact .withCaps ⟨set.kind, set.keys, defaultCap, defaultCap⟩ set.maxRequested set.maxDone hmade

theorem isMade_without (set : KeywordSet) (place : Nat) (h : set.IsMade) :
    (set.without place).IsMade := by
  rw [isMade_iff] at h ⊢
  refine ⟨?_, sound_without place set h.2⟩
  unfold without
  split
  · exact h.1
  · rename_i hkept
    exact hkept

end KeywordSet

/-- All sets of a plan were made in one of the ways there are. -/
structure DigipeaterPlan.SetsMade (plan : DigipeaterPlan) : Prop where
  own : ∀ set, plan.trace = some set ∨ plan.wide = some set → set.IsMade
  sources : ∀ source ∈ plan.sources, ∀ set,
    source.trace = some set ∨ source.wide = some set → set.IsMade

theorem keysSound_of_setsMade (plan : DigipeaterPlan) (h : plan.SetsMade) : plan.KeysSound :=
  ⟨fun set hset => ((KeywordSet.isMade_iff set).1 (h.own set hset)).2,
    fun source hsource set hset =>
      ((KeywordSet.isMade_iff set).1 (h.sources source hsource set hset)).2⟩

/-- The sets of a plan that was built were made. -/
theorem setsMade_of_isBuilt (plan : DigipeaterPlan) (h : plan.IsBuilt) : plan.SetsMade := by
  rcases h with ⟨s, file, b, hbuilt⟩
  have hplan := wellFormed_of_ofBlock s file b plan hbuilt
  have hmade : ∀ set : KeywordSet, set.WellFormed → set.IsMade := fun set hset =>
    (KeywordSet.isMade_iff set).2 ⟨hset.keys_ne_nil, hset.keys_sound⟩
  exact ⟨fun set hset => hmade set (hplan.sets set hset),
    fun source hsource set hset => hmade set (hplan.sourceSets source hsource set hset)⟩

/-! ## Sets that lost a keyword -/

/-- A keyword set of a station, told by who holds it and of which kind it is. -/
inductive HeldSet where
  | ofSource (id : SourceId) (kind : KeywordKind)
  | ofDigipeater (id : DigipeaterId) (kind : KeywordKind)
  deriving DecidableEq, Repr

/-- The set that a source consults at a scope, if there is one. -/
def Source.heldSet (source : Source) : MatchScope → HeldSet
  | .sourceTrace => .ofSource source.id .trace
  | .digipeaterTrace => .ofDigipeater source.parent .trace
  | .sourceWide => .ofSource source.id .wide
  | .digipeaterWide => .ofDigipeater source.parent .wide

theorem Source.heldSet_inj (source : Source) (scope other : MatchScope) :
    source.heldSet scope = source.heldSet other ↔ scope = other := by
  cases scope <;> cases other <;> simp [heldSet]

/-- A set that is held as `own`, after the set that is held as `held` lost the
    keyword at a place. -/
def KeywordSet.withoutIn (set : KeywordSet) (own held : HeldSet) (place : Nat) : KeywordSet :=
  if own = held then set.without place else set

theorem KeywordSet.isMade_withoutIn (set : KeywordSet) (own held : HeldSet) (place : Nat)
    (h : set.IsMade) : (set.withoutIn own held place).IsMade := by
  unfold withoutIn
  split
  · exact isMade_without set place h
  · exact h

section

variable (held : HeldSet) (place : Nat)

/-- A source after a set lost a keyword, which may be one of its own. -/
def Source.without (source : Source) : Source :=
  { source with
    trace := source.trace.map fun set => set.withoutIn (.ofSource source.id .trace) held place
    wide := source.wide.map fun set => set.withoutIn (.ofSource source.id .wide) held place }

/-- A digipeater after a set lost a keyword. -/
def Digipeater.without (d : Digipeater) : Digipeater :=
  { d with
    trace := d.trace.withoutIn (.ofDigipeater d.id .trace) held place
    wide := d.wide.withoutIn (.ofDigipeater d.id .wide) held place }

/-- A station after a set lost a keyword. -/
def Station.without (s : Station) : Station :=
  { s with
    sources := s.sources.map (Source.without held place)
    digipeaters := s.digipeaters.map (Digipeater.without held place) }

/-- The sets that apply to a source, after a set lost a keyword. -/
theorem scopeSet_without (source : Source) (d : Digipeater) (hparent : d.id = source.parent)
    (scope : MatchScope) :
    scopeSet (source.without held place) (d.without held place) scope =
      (scopeSet source d scope).map fun set =>
        set.withoutIn (source.heldSet scope) held place := by
  cases scope <;> simp [scopeSet, Source.without, Digipeater.without, Source.heldSet, hparent]

-- If it is one of those that the source consults, the cascade lost the keyword
-- at this scope.
theorem scopeSet_without_heldSet (source : Source) (d : Digipeater)
    (hparent : d.id = source.parent) (scope : MatchScope) :
    scopeSet (source.without (source.heldSet scope) place)
        (d.without (source.heldSet scope) place) =
      (scopeSet source d).without scope place := by
  funext other
  simp only [scopeSet_without _ _ source d hparent, KeywordSet.withoutIn, source.heldSet_inj,
    KeywordScopes.without]
  split
  · rfl
  · exact Option.map_id'

-- If it is none of them, nothing is lost.
theorem scopeSet_without_of_ne (source : Source) (d : Digipeater) (hparent : d.id = source.parent)
    (hne : ∀ scope, source.heldSet scope ≠ held) :
    scopeSet (source.without held place) (d.without held place) = scopeSet source d := by
  funext scope
  simp only [scopeSet_without _ _ source d hparent, KeywordSet.withoutIn, if_neg (hne scope)]
  exact Option.map_id'

/-- A source classifies fields as before, if the keyword is dead wherever it is
    compared. -/
theorem classify_without (source : Source) (d : Digipeater) (hparent : d.id = source.parent)
    (hsets : (scopeSet source d).Sound)
    (hdead : ∀ scope, source.heldSet scope = held → DeadKey (scopeSet source d) scope place)
    (field : Bytes) :
    classify (source.without held place) (d.without held place) field =
      classify source d field := by
  by_cases hused : ∃ scope, source.heldSet scope = held
  · rcases hused with ⟨scope, rfl⟩
    rw [classify, scopeSet_without_heldSet place source d hparent,
      classifyIn_without _ scope place (hdead scope rfl) hsets, classify]
  · have hne : ∀ scope, source.heldSet scope ≠ held := fun scope heq => hused ⟨scope, heq⟩
    rw [classify, scopeSet_without_of_ne held place source d hparent hne, classify]

end

namespace Station

section

variable (held : HeldSet) (place : Nat) (s : Station)

theorem source?_without (id : SourceId) :
    (s.without held place).source? id = (s.source? id).map (Source.without held place) := by
  simp only [source?, without, List.getElem?_map]

theorem digipeater?_without (id : DigipeaterId) :
    (s.without held place).digipeater? id =
      (s.digipeater? id).map (Digipeater.without held place) := by
  simp only [digipeater?, without, List.getElem?_map]

/-- A source does not need the keyword at a place of a set: it is dead for the
    source, or the source does not consult the set. -/
def DeadFor (source : Source) : Prop :=
  ∀ d, s.digipeater? source.parent = some d → ∀ scope, source.heldSet scope = held →
    DeadKey (scopeSet source d) scope place

end

section

variable {held : HeldSet} {place : Nat} {s : Station} (hlinked : s.Linked) (hkeys : s.KeysSound)
include hlinked hkeys

/-- The verdicts of a source do not depend on a keyword that is dead for it. -/
theorem judge?_without (source : Source) (hsource : source ∈ s.sources)
    (hdead : s.DeadFor held place source) (f : Frame) :
    (s.without held place).judge? source.id f = s.judge? source.id f := by
  have hid := (hlinked.source?_eq_some_iff source.id source).2 ⟨hsource, rfl⟩
  rcases hlinked.exists_parent source hsource with ⟨d, hd, -⟩
  have hparent := ((hlinked.digipeater?_eq_some_iff source.parent d).1 hd).2
  have hsets := sound_scopeSet s hkeys source hsource d (List.mem_of_getElem? hd)
  have hlengths : keyLength (scopeSet (source.without held place) (d.without held place)) =
      keyLength (scopeSet source d) := by
    funext field
    have hclassify := classify_without held place source d hparent hsets (hdead d hd)
      (Text.utf8 field.toList)
    rw [classify, classify] at hclassify
    rw [keyLength, hclassify, keyLength]
  have hid' : (s.without held place).source? source.id = some (source.without held place) := by
    rw [source?_without, hid, Option.map_some]
  have hd' : (s.without held place).digipeater? (source.without held place).parent =
      some (d.without held place) := by
    rw [digipeater?_without]
    exact congrArg _ hd
  rw [judge?_eq_some _ hid' hd', judge?_eq_some s hid hd, accountIn_congr _ _ hlengths]
  rfl

/-- No verdict depends on a keyword that is dead for all sources. -/
theorem verdicts_without (hdead : ∀ source ∈ s.sources, s.DeadFor held place source)
    (heardOn : InterfaceId) (f : Frame) :
    (s.without held place).verdicts heardOn f = s.verdicts heardOn f := by
  refine List.filterMap_congr fun id hid => ?_
  rcases (hlinked.mem_feeds_iff heardOn id).1 hid with ⟨source, hsource, -⟩
  rcases (hlinked.source?_eq_some_iff id source).1 hsource with ⟨hmem, rfl⟩
  exact judge?_without hlinked hkeys source hmem (hdead source hmem) f

end

end Station

/-! ## How such stations come about -/

section

variable (held : HeldSet) (place : Nat)

/-- A source to be, after a set lost a keyword, which may be the one that the
    source will have under the given number. -/
def SourcePlan.without (id : SourceId) (plan : SourcePlan) : SourcePlan :=
  { plan with
    trace := plan.trace.map fun set => set.withoutIn (.ofSource id .trace) held place
    wide := plan.wide.map fun set => set.withoutIn (.ofSource id .wide) held place }

/-- The same for a digipeater to be, whose sources will be numbered from
    `first` on. -/
def DigipeaterPlan.without (id : DigipeaterId) (first : Nat) (plan : DigipeaterPlan) :
    DigipeaterPlan :=
  { plan with
    trace := some ((plan.trace.getD (.standard .trace)).withoutIn (.ofDigipeater id .trace)
      held place)
    wide := some ((plan.wide.getD (.standard .wide)).withoutIn (.ofDigipeater id .wide)
      held place)
    sources := (plan.sources.zipIdx first).map fun (source, index) =>
      source.without held place ⟨index⟩ }

theorem setsMade_without (id : DigipeaterId) (first : Nat) (plan : DigipeaterPlan)
    (h : plan.SetsMade) : (plan.without held place id first).SetsMade where
  own := by
    have hmade : ∀ (set : Option KeywordSet) (kind : KeywordKind),
        (∀ own, set = some own → own.IsMade) →
        ((set.getD (.standard kind)).withoutIn (.ofDigipeater id kind) held place).IsMade := by
      intro set kind hset
      refine KeywordSet.isMade_withoutIn _ _ held place ?_
      cases set with
      | none => exact .standard kind
      | some own => exact hset own rfl
    rintro set (hset | hset)
    · rw [← Option.some.inj hset]
      exact hmade plan.trace .trace fun own hown => h.own own (.inl hown)
    · rw [← Option.some.inj hset]
      exact hmade plan.wide .wide fun own hown => h.own own (.inr hown)
  sources := by
    intro source hsource set hset
    rcases List.mem_map.1 hsource with ⟨⟨planned, index⟩, hmem, rfl⟩
    have hplanned := h.sources planned (List.fst_mem_of_mem_zipIdx hmem)
    rcases hset with hset | hset
    · rcases Option.map_eq_some_iff.1 hset with ⟨own, hown, rfl⟩
      exact KeywordSet.isMade_withoutIn own _ held place (hplanned own (.inl hown))
    · rcases Option.map_eq_some_iff.1 hset with ⟨own, hown, rfl⟩
      exact KeywordSet.isMade_withoutIn own _ held place (hplanned own (.inr hown))

-- No plan refers to other interfaces because of keywords.
theorem interfaces_without (id : DigipeaterId) (first : Nat) (plan : DigipeaterPlan) :
    (plan.without held place id first).interfaces = plan.interfaces := by
  have hsources : (plan.without held place id first).sources.map (·.interface) =
      ((plan.sources.zipIdx first).map Prod.fst).map (·.interface) := by
    simp only [DigipeaterPlan.without, List.map_map]
    rfl
  rw [DigipeaterPlan.interfaces, hsources, List.zipIdx_map_fst]
  rfl

namespace Station

theorem nextDigipeater_without (s : Station) :
    (s.without held place).nextDigipeater = s.nextDigipeater := by
  rw [nextDigipeater, without, List.length_map, nextDigipeater]

-- The sources that such a plan adds lost what the sources of the plan lost.
theorem newSources_without (s : Station) (plan : DigipeaterPlan) :
    (s.without held place).newSources
        (plan.without held place s.nextDigipeater s.sources.length) =
      (s.newSources plan).map (Source.without held place) := by
  apply List.ext_getElem?
  intro k
  simp only [newSources, SourcePlan.enlistAll_getElem?, List.getElem?_map,
    nextDigipeater_without, DigipeaterPlan.without, List.getElem?_zipIdx, Option.map_map]
  rw [without, List.length_map]
  rfl

-- Interfaces are linked to sources by numbers alone.
theorem linkSources_without (interfaces : List Interface) (added : List Source) :
    linkSources interfaces (added.map (Source.without held place)) =
      linkSources interfaces added := by
  simp only [linkSources, List.filter_map, List.map_map]
  rfl

/-- A keyword can be left out of a plan before it is carried out as well as
    taken out of the station afterwards. -/
theorem install_without (s : Station) (plan : DigipeaterPlan) :
    (s.install plan).without held place =
      (s.without held place).install
        (plan.without held place s.nextDigipeater s.sources.length) := by
  have hlisted : ((s.newSources plan).map (Source.without held place)).map (·.id) =
      (s.newSources plan).map (·.id) := by
    rw [List.map_map]
    rfl
  simp only [install, newSources_without, nextDigipeater_without, linkSources_without, hlisted]
  simp only [without, List.map_append, List.map_cons, List.map_nil]
  rfl

/-- What grew with the keyword can grow without it. -/
theorem grows_without {s t : Station} (h : Grows DigipeaterPlan.SetsMade s t) :
    Grows DigipeaterPlan.SetsMade (s.without held place) (t.without held place) := by
  induction h with
  | refl => exact .refl
  | addInterface t callsign canTransmit _ ih => exact .addInterface _ callsign canTransmit ih
  | install t plan _ hplan hheld ih =>
      rw [install_without]
      refine .install _ _ ih (setsMade_without held place _ _ plan hplan) ?_
      rw [interfaces_without]
      exact hheld

end Station

end

/-! ## Stations with a keyword less -/

namespace Station

/-- Every station that can come about classifies fields by one scan, and dead
    keywords do not matter in it. The station with a keyword less can come about
    too, and its cascades lost this keyword and nothing else. Each source for
    which the keyword is dead classifies all fields and judges all frames as it
    did. If it is dead for all of them, no interface gets another verdict. -/
theorem classify_grow (mycall : String) (changes : List Change)
    (hmade : ∀ plan, .commit plan ∈ changes → plan.SetsMade) :
    let s := (empty mycall).grow changes
    (∀ source ∈ s.sources, ∃ d, s.digipeater? source.parent = some d ∧ OneScan source d) ∧
    ∀ held place, let t := s.without held place
      (∃ others, (∀ plan, .commit plan ∈ others → plan.SetsMade) ∧
        t = (empty mycall).grow others) ∧
      (∀ source ∈ s.sources, ∀ d, s.digipeater? source.parent = some d →
        t.source? source.id = some (source.without held place) ∧
        t.digipeater? source.parent = some (d.without held place) ∧
        (∀ scope, source.heldSet scope = held →
          (declaredKeys (scopeSet source d scope)).eraseIdx place ≠ [] →
          cascadeKeys (scopeSet (source.without held place) (d.without held place)) =
            keysBefore (scopeSet source d) scope place ++
              keysAfter (scopeSet source d) scope place) ∧
        (s.DeadFor held place source →
          (∀ field, classify (source.without held place) (d.without held place) field =
            classify source d field) ∧
          ∀ f, t.judge? source.id f = s.judge? source.id f)) ∧
      ((∀ source ∈ s.sources, s.DeadFor held place source) →
        ∀ heardOn f, t.verdicts heardOn f = s.verdicts heardOn f) := by
  intro s
  have hgrows : Grows DigipeaterPlan.SetsMade (empty mycall) s :=
    grows_grow setsMade_of_isBuilt _ _ hmade
  have hlinked : s.Linked := linked_grow (linked_empty mycall) changes
  have hkeys : s.KeysSound := keysSound_of_grows_keysSound _ s (keysSound_empty mycall)
    (grows_mono keysSound_of_setsMade hgrows)
  have hsets : ∀ source ∈ s.sources, ∀ d, s.digipeater? source.parent = some d →
      (scopeSet source d).Sound := fun source hsource d hd =>
    sound_scopeSet s hkeys source hsource d (List.mem_of_getElem? hd)
  refine ⟨fun source hsource => ?_, fun held place => ⟨?_, ?_, ?_⟩⟩
  · rcases hlinked.exists_parent source hsource with ⟨d, hd, -⟩
    exact ⟨d, hd, oneScan source d (hsets source hsource d hd)⟩
  · exact exists_grow_of_grows (grows_without held place hgrows)
  · intro source hsource d hd
    have hid := (hlinked.source?_eq_some_iff source.id source).2 ⟨hsource, rfl⟩
    have hparent := ((hlinked.digipeater?_eq_some_iff source.parent d).1 hd).2
    refine ⟨?_, ?_, ?_, fun hdead => ⟨?_, ?_⟩⟩
    · rw [source?_without, hid, Option.map_some]
    · rw [digipeater?_without, hd, Option.map_some]
    · rintro scope rfl hkept
      rw [scopeSet_without_heldSet place source d hparent]
      exact cascadeKeys_without _ scope place hkept
    · exact classify_without held place source d hparent (hsets source hsource d hd) (hdead d hd)
    · exact judge?_without hlinked hkeys source hsource hdead
  · exact verdicts_without hlinked hkeys

/-- A plan with two plain keywords, the first of which is a traced keyword by
    default. -/
def hopPlan : DigipeaterPlan :=
  { plainPlan with wide := some ⟨.wide, ["WIDE", "HOP"], 4, 4⟩ }

theorem setsMade_hopPlan : hopPlan.SetsMade := by
  constructor
  · rintro set (hset | hset)
    · cases hset
    · rw [← Option.some.inj hset, KeywordSet.isMade_iff]
      exact ⟨by decide, by simp [KeywordSet.Sound]⟩
  · intro source hsource set hset
    rcases List.mem_singleton.1 hsource with rfl
    rcases hset with hset | hset <;> cases hset

/-- The plain keyword `WIDE` is behind the traced one and can be left out. -/
theorem classify_grow_hop :
    (∀ plan, .commit plan ∈ [Change.addInterface "N0CALL" true, .commit hopPlan] →
      plan.SetsMade) ∧
    let s := (empty "N0CALL").grow [.addInterface "N0CALL" true, .commit hopPlan]
    let t := s.without (.ofDigipeater ⟨0⟩ .wide) 0
    (∀ source ∈ s.sources, s.DeadFor (.ofDigipeater ⟨0⟩ .wide) 0 source) ∧
      s.digipeaters.map (·.wide.keys) = [["WIDE", "HOP"]] ∧
      t.digipeaters.map (·.wide.keys) = [["HOP"]] ∧
      ∀ heardOn f, t.verdicts heardOn f = s.verdicts heardOn f := by
  have hmade : ∀ plan, .commit plan ∈ [Change.addInterface "N0CALL" true, .commit hopPlan] →
      plan.SetsMade := by
    intro plan hplan
    simp only [List.mem_cons, reduceCtorEq, Change.commit.injEq, List.not_mem_nil, or_false,
      false_or] at hplan
    rw [hplan]
    exact setsMade_hopPlan
  refine ⟨hmade, ?_⟩
  intro s t
  have hdead : ∀ source ∈ s.sources, s.DeadFor (.ofDigipeater ⟨0⟩ .wide) 0 source := by
    intro source hsource d hd scope hscope
    -- There is one source, and it consults the set at one scope.
    rcases List.mem_singleton.1 hsource with rfl
    rcases Option.some.inj hd with rfl
    cases scope <;>
      simp only [Source.heldSet, reduceCtorEq, HeldSet.ofDigipeater.injEq, and_false] at hscope
    exact ⟨"WIDE", rfl, (.digipeaterTrace, "WIDE"), by decide, List.prefix_rfl⟩
  exact ⟨hdead, rfl, rfl, (classify_grow "N0CALL" _ hmade).2 _ _ |>.2.2 hdead⟩

end Station

end AprsRelay
