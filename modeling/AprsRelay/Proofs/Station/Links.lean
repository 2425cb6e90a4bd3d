import AprsRelay.Proofs.Station.Growth
import AprsRelay.Verdict
import Mathlib.Data.List.Nodup

/-!
# Links between Entities

The three kinds of entity refer to each other by number, in both directions:
an interface lists the sources that listen to it, a digipeater lists its
sources, and a source names its interface and its parent. `Linked` says that
these references agree with each other, and that every number is the place of
its entity.

The link from interfaces to sources is stated as an equation: what an
interface feeds is the list of all sources cut down to those that name it.
This form survives a step of growth by the law for cutting down a
concatenation, and order and uniqueness follow from it at the end.

## Main definitions

* `Numbered`: Entities that stand at their numbers.
* `Station.Linked`: All references agree.

## Theorems

* `numbered_append`: Entities can be added at the end.
* `feeds_install`, `feeds_addInterface`: What a step does to the feeds.
* `linked_install`, `linked_addInterface`: A step keeps the links.
* `linked_of_grows`: So does growth.
* `Linked.exists_parent`, `Linked.mem_feeds_iff`, `Linked.feeds_ascending`,
  `Linked.judge?_isSome`: What follows for a linked station.
* `linked_grow_empty`: Every station that can come about is linked.
-/

namespace AprsRelay

-- An entry keeps its place when more entries follow.
theorem getElem?_of_prefix {α : Type} {old new : List α} (h : old <+: new) {k : Nat} {x : α}
    (hx : old[k]? = some x) : new[k]? = some x := by
  rcases List.getElem?_eq_some_iff.1 hx with ⟨hlt, rfl⟩
  exact List.prefix_iff_getElem?.1 h k hlt

/-- Every entry of a list stands at its own number. -/
def Numbered {α : Type} (number : α → Nat) (entries : List α) : Prop :=
  ∀ (k : Nat) (x : α), entries[k]? = some x → number x = k

-- Entries can be added at the end, if their numbers go on from there.
theorem numbered_append {α : Type} (number : α → Nat) (old new : List α)
    (hold : Numbered number old)
    (hnew : ∀ (j : Nat) (x : α), new[j]? = some x → number x = old.length + j) :
    Numbered number (old ++ new) := by
  intro k x hk
  rcases Nat.lt_or_ge k old.length with hlt | hge
  · rw [List.getElem?_append_left hlt] at hk
    exact hold k x hk
  · rw [List.getElem?_append_right hge] at hk
    rw [hnew _ x hk]
    omega

theorem numbered_concat {α : Type} (number : α → Nat) (old : List α) (x : α)
    (hold : Numbered number old) (hx : number x = old.length) :
    Numbered number (old ++ [x]) := by
  refine numbered_append number old [x] hold (fun j y hj => ?_)
  rcases List.mem_singleton.1 (List.mem_of_getElem? hj) with rfl
  have hlt := (List.getElem?_eq_some_iff.1 hj).1
  simp only [List.length_singleton] at hlt
  omega

-- An entry that stands at its number is found there.
theorem getElem?_of_numbered {α : Type} (number : α → Nat) (entries : List α)
    (h : Numbered number entries) (x : α) (hx : x ∈ entries) : entries[number x]? = some x := by
  rcases List.getElem?_of_mem hx with ⟨k, hk⟩
  rw [h k x hk]
  exact hk

-- Entries that stand at their numbers are numbered by their places.
theorem map_of_numbered {α : Type} (number : α → Nat) (entries : List α)
    (h : Numbered number entries) : entries.map number = List.range entries.length := by
  apply List.ext_getElem
  · rw [List.length_map, List.length_range]
  · intro k hk _
    rw [List.length_map] at hk
    rw [List.getElem_map, List.getElem_range]
    exact h k _ (List.getElem?_eq_getElem hk)

namespace Station

variable (s : Station)

theorem holds_iff (id : InterfaceId) : s.holds id = true ↔ id.index < s.interfaces.length := by
  simp only [holds, decide_eq_true_eq]

theorem holds_install (plan : DigipeaterPlan) (id : InterfaceId) :
    (s.install plan).holds id = s.holds id := by
  simp only [holds, install, linkSources, List.length_mapIdx]

theorem holds_addInterface (callsign : String) (canTransmit : Bool) (id : InterfaceId)
    (h : s.holds id = true) : (s.addInterface callsign canTransmit).holds id = true := by
  rw [holds_iff] at h ⊢
  simp only [addInterface, List.length_append, List.length_singleton]
  omega

/-- A plan leaves interfaces as they are, but for the sources that listen to
    them. -/
theorem interface?_install (plan : DigipeaterPlan) (id : InterfaceId) :
    (s.install plan).interface? id = (s.interface? id).map fun i =>
      { i with
        feeds := i.feeds ++
          ((s.newSources plan).filter fun source => source.interface = id).map (·.id) } := by
  rcases id with ⟨k⟩
  have hid : ∀ source : Source, source.interface.index = k ↔ source.interface = ⟨k⟩ := by
    intro source
    cases source.interface
    simp only [InterfaceId.mk.injEq]
  simp only [interface?, install, linkSources, List.getElem?_mapIdx, hid]

-- A new interface feeds nothing, and the others feed what they did.
theorem feeds_addInterface (callsign : String) (canTransmit : Bool) (id : InterfaceId) :
    (s.addInterface callsign canTransmit).feeds id = s.feeds id := by
  simp only [feeds, interface?, addInterface]
  rcases Nat.lt_trichotomy id.index s.interfaces.length with h | h | h
  · rw [List.getElem?_append_left h]
  · rw [h, List.getElem?_concat_length, List.getElem?_eq_none (Nat.le_refl _)]
  · rw [List.getElem?_eq_none (Nat.le_of_lt h), List.getElem?_eq_none]
    simp only [List.length_append, List.length_singleton]
    omega

-- The sources that a plan adds listen to interfaces of the plan.
theorem interface_of_mem_newSources (plan : DigipeaterPlan) (source : Source)
    (h : source ∈ s.newSources plan) : source.interface ∈ plan.interfaces := by
  apply List.mem_cons_of_mem
  rw [← SourcePlan.map_interface_enlistAll s.nextDigipeater s.sources.length]
  exact List.mem_map_of_mem h

/-- The sources of a plan are added to what their interfaces feed. All of them
    are, since the interfaces of the plan are known. -/
theorem feeds_install (plan : DigipeaterPlan)
    (hheld : ∀ i ∈ plan.interfaces, s.holds i = true) (id : InterfaceId) :
    (s.install plan).feeds id = s.feeds id ++
      ((s.newSources plan).filter fun source => source.interface = id).map (·.id) := by
  simp only [feeds, interface?_install]
  cases hi : s.interface? id with
  | some i => rfl
  | none =>
      -- No source of the plan can listen to an interface that does not exist.
      have hnone : (s.newSources plan).filter (fun source => source.interface = id) = [] := by
        rw [List.filter_eq_nil_iff]
        intro source hsource hid
        have hlt := (s.holds_iff _).1 (hheld _ (s.interface_of_mem_newSources plan source hsource))
        rw [of_decide_eq_true hid] at hlt
        have hge := List.getElem?_eq_none_iff.1 hi
        omega
      rw [hnone]
      rfl

/-- The references between entities agree: every number is the place of its
    entity, the digipeaters share out the sources in order, every source names
    the digipeater that lists it, an interface feeds the sources that name it,
    and interfaces that are referred to exist. -/
structure Linked : Prop where
  interface_id : Numbered (fun i : Interface => i.id.index) s.interfaces
  source_id : Numbered (fun source : Source => source.id.index) s.sources
  digipeater_id : Numbered (fun d : Digipeater => d.id.index) s.digipeaters
  sources_listed :
    s.digipeaters.flatMap (·.sources) = (List.range s.sources.length).map SourceId.mk
  source_parent : ∀ d ∈ s.digipeaters, ∀ id ∈ d.sources,
    ∃ source, s.source? id = some source ∧ source.parent = d.id
  feeds_eq : ∀ id : InterfaceId,
    s.feeds id = (s.sources.filter fun source => source.interface = id).map (·.id)
  transmitter_held : ∀ d ∈ s.digipeaters, s.holds d.transmitter = true
  source_interface_held : ∀ source ∈ s.sources, s.holds source.interface = true

theorem linked_empty (mycall : String) : (empty mycall).Linked where
  interface_id := by simp [Numbered, empty]
  source_id := by simp [Numbered, empty]
  digipeater_id := by simp [Numbered, empty]
  sources_listed := rfl
  source_parent := by simp [empty]
  feeds_eq := fun _ => rfl
  transmitter_held := by simp [empty]
  source_interface_held := by simp [empty]

variable {s}

/-- A new interface gets the next number and feeds nothing, so all references
    stay as they are. -/
theorem linked_addInterface (h : s.Linked) (callsign : String) (canTransmit : Bool) :
    (s.addInterface callsign canTransmit).Linked where
  interface_id := numbered_concat _ _ _ h.interface_id rfl
  source_id := h.source_id
  digipeater_id := h.digipeater_id
  sources_listed := h.sources_listed
  source_parent := h.source_parent
  feeds_eq := fun id => by
    rw [feeds_addInterface]
    exact h.feeds_eq id
  transmitter_held := fun d hd =>
    s.holds_addInterface callsign canTransmit d.transmitter (h.transmitter_held d hd)
  source_interface_held := fun source hsource =>
    s.holds_addInterface callsign canTransmit source.interface
      (h.source_interface_held source hsource)

-- The sources that a plan adds have the numbers that follow those given out
-- before.
theorem map_id_newSources (plan : DigipeaterPlan) :
    (s.newSources plan).map (·.id) =
      (List.range' s.sources.length plan.sources.length).map SourceId.mk :=
  SourcePlan.map_id_enlistAll _ _ _

-- A source or a digipeater that was there before a plan keeps its number.
theorem source?_install_of_some (plan : DigipeaterPlan) (id : SourceId) (source : Source)
    (h : s.source? id = some source) : (s.install plan).source? id = some source :=
  getElem?_of_prefix (List.prefix_append _ _) h

theorem digipeater?_install_of_some (plan : DigipeaterPlan) (id : DigipeaterId) (d : Digipeater)
    (h : s.digipeater? id = some d) : (s.install plan).digipeater? id = some d :=
  getElem?_of_prefix (List.prefix_append _ _) h

-- A source that a plan adds is found under its number.
theorem source?_install_newSources (plan : DigipeaterPlan) (source : Source)
    (h : source ∈ s.newSources plan) : (s.install plan).source? source.id = some source := by
  rcases List.getElem?_of_mem h with ⟨j, hj⟩
  have hid : source.id = ⟨s.sources.length + j⟩ := by
    rw [newSources, SourcePlan.enlistAll_getElem?] at hj
    rcases Option.map_eq_some_iff.1 hj with ⟨plan', -, rfl⟩
    rfl
  rw [hid]
  simp only [source?, install]
  rw [List.getElem?_append_right (Nat.le_add_right _ _), Nat.add_sub_cancel_left]
  exact hj

/-- Carrying out a plan keeps all references in agreement, if its interfaces
    are known. -/
theorem linked_install (h : s.Linked) (plan : DigipeaterPlan)
    (hheld : ∀ id ∈ plan.interfaces, s.holds id = true) : (s.install plan).Linked where
  interface_id := by
    intro k i hk
    have hmap := s.interface?_install plan ⟨k⟩
    rw [interface?, hk] at hmap
    rcases Option.map_eq_some_iff.1 hmap.symm with ⟨j, hj, rfl⟩
    exact h.interface_id k j hj
  source_id := by
    refine numbered_append _ _ _ h.source_id (fun j source hj => ?_)
    rw [newSources, SourcePlan.enlistAll_getElem?] at hj
    rcases Option.map_eq_some_iff.1 hj with ⟨plan', -, rfl⟩
    rfl
  digipeater_id := numbered_concat _ _ _ h.digipeater_id rfl
  sources_listed := by
    have hnew : (s.newSources plan).length = plan.sources.length :=
      SourcePlan.enlistAll_length _ _ _
    simp only [install, List.flatMap_append, List.flatMap_singleton, DigipeaterPlan.enlist,
      List.length_append, hnew]
    -- The new numbers go on where the old ones end.
    rw [h.sources_listed, map_id_newSources, ← List.map_append, List.range_eq_range',
      List.range_eq_range', ← List.range'_append_1, Nat.zero_add]
  source_parent := by
    intro d hd id hid
    simp only [install, List.mem_append, List.mem_singleton] at hd
    rcases hd with hd | rfl
    · rcases h.source_parent d hd id hid with ⟨source, hsource, hparent⟩
      exact ⟨source, source?_install_of_some plan id source hsource, hparent⟩
    · rcases List.mem_map.1 hid with ⟨source, hsource, rfl⟩
      refine ⟨source, source?_install_newSources plan source hsource, ?_⟩
      rcases SourcePlan.exists_of_mem_enlistAll _ _ _ source hsource with ⟨planned, -, id, rfl⟩
      rfl
  feeds_eq := by
    intro id
    rw [feeds_install s plan hheld, h.feeds_eq, ← List.map_append, ← List.filter_append]
    rfl
  transmitter_held := by
    intro d hd
    rw [holds_install]
    simp only [install, List.mem_append, List.mem_singleton] at hd
    rcases hd with hd | rfl
    · exact h.transmitter_held d hd
    · exact hheld _ List.mem_cons_self
  source_interface_held := by
    intro source hsource
    rw [holds_install]
    simp only [install, List.mem_append] at hsource
    rcases hsource with hsource | hsource
    · exact h.source_interface_held source hsource
    · exact hheld _ (s.interface_of_mem_newSources plan source hsource)

/-- Growth keeps the links, step by step. -/
theorem linked_of_grows {P : DigipeaterPlan → Prop} {t : Station} (hs : s.Linked)
    (h : Grows P s t) : t.Linked := by
  induction h with
  | refl => exact hs
  | addInterface t callsign canTransmit _ ih => exact linked_addInterface ih callsign canTransmit
  | install t plan _ _ hheld ih => exact linked_install ih plan hheld

-- Whatever is asked of a linked station, it stays linked.
theorem linked_grow (h : s.Linked) (changes : List Change) : (s.grow changes).Linked :=
  linked_of_grows h (grows_grow_any s changes)

-- The verdict of a source that is found together with its digipeater.
theorem judge?_eq_some (s : Station) {id : SourceId} {source : Source} {d : Digipeater}
    (hid : s.source? id = some source) (hd : s.digipeater? source.parent = some d)
    (frame : Frame) :
    s.judge? id frame =
      some (.ofAccount d.id id (accountIn (scopeSet source d) frame.viaSegment)) := by
  simp only [judge?, hid, hd, Option.bind_eq_bind, Option.bind_some, Option.pure_def]
  rfl

-- Every verdict comes from a source and its digipeater in this way.
theorem exists_of_judge? {id : SourceId} {frame : Frame} {v : Verdict}
    (hv : s.judge? id frame = some v) :
    ∃ source d, s.source? id = some source ∧ s.digipeater? source.parent = some d ∧
      v = .ofAccount d.id id (accountIn (scopeSet source d) frame.viaSegment) := by
  simp only [judge?, Option.bind_eq_bind, Option.bind_eq_some_iff] at hv
  rcases hv with ⟨source, hsource, d, hd, hv⟩
  exact ⟨source, d, hsource, hd, (Option.some.inj hv).symm⟩

namespace Linked

variable (h : s.Linked)
include h

/-- A source is found under its number, and nothing else is. -/
theorem source?_eq_some_iff (id : SourceId) (source : Source) :
    s.source? id = some source ↔ source ∈ s.sources ∧ source.id = id := by
  constructor
  · intro hid
    refine ⟨List.mem_of_getElem? hid, ?_⟩
    rw [SourceId.mk.injEq]
    exact h.source_id _ _ hid
  · intro hgiven
    rcases hgiven with ⟨hmem, rfl⟩
    exact getElem?_of_numbered _ _ h.source_id source hmem

theorem digipeater?_eq_some_iff (id : DigipeaterId) (d : Digipeater) :
    s.digipeater? id = some d ↔ d ∈ s.digipeaters ∧ d.id = id := by
  constructor
  · intro hid
    refine ⟨List.mem_of_getElem? hid, ?_⟩
    rw [DigipeaterId.mk.injEq]
    exact h.digipeater_id _ _ hid
  · intro hgiven
    rcases hgiven with ⟨hmem, rfl⟩
    exact getElem?_of_numbered _ _ h.digipeater_id d hmem

-- Every source has a parent that lists it.
theorem exists_parent (source : Source) (hsource : source ∈ s.sources) :
    ∃ d, s.digipeater? source.parent = some d ∧ source.id ∈ d.sources := by
  have hid := (h.source?_eq_some_iff source.id source).2 ⟨hsource, rfl⟩
  -- The number of the source is below their count, so some digipeater has it.
  have hlisted : source.id ∈ s.digipeaters.flatMap (·.sources) := by
    rw [h.sources_listed]
    exact List.mem_map.2 ⟨source.id.index,
      List.mem_range.2 (List.getElem?_eq_some_iff.1 hid).1, rfl⟩
  rcases List.mem_flatMap.1 hlisted with ⟨d, hd, hmem⟩
  rcases h.source_parent d hd source.id hmem with ⟨source', hsource', hparent⟩
  rw [hid] at hsource'
  rcases Option.some.inj hsource' with rfl
  exact ⟨d, (h.digipeater?_eq_some_iff _ d).2 ⟨hd, hparent.symm⟩, hmem⟩

-- No source is listed twice, neither by two digipeaters nor by one.
theorem sources_nodup : (s.digipeaters.flatMap (·.sources)).Nodup := by
  rw [h.sources_listed]
  exact List.Nodup.map (fun a b hab => SourceId.mk.inj hab) List.nodup_range

/-- A digipeater lists a source once if it is the parent, and else not. -/
theorem count_sources (source : Source) (hsource : source ∈ s.sources) (d : Digipeater)
    (hd : d ∈ s.digipeaters) :
    d.sources.count source.id = if d.id = source.parent then 1 else 0 := by
  split
  · rename_i hparent
    -- The parent that lists the source has the number of `d`, so it is `d`.
    rcases h.exists_parent source hsource with ⟨d', hd', hmem⟩
    rw [← hparent, (h.digipeater?_eq_some_iff d.id d).2 ⟨hd, rfl⟩] at hd'
    rcases Option.some.inj hd' with rfl
    exact List.count_eq_one_of_mem ((List.nodup_flatMap.1 h.sources_nodup).1 d hd) hmem
  · rename_i hparent
    rw [List.count_eq_zero]
    intro hmem
    rcases h.source_parent d hd source.id hmem with ⟨source', hsource', hp⟩
    rw [(h.source?_eq_some_iff source.id source).2 ⟨hsource, rfl⟩] at hsource'
    rcases Option.some.inj hsource' with rfl
    exact hparent hp.symm

theorem sources_ascending : s.sources.Pairwise (fun a b => a.id.index < b.id.index) := by
  have hmap := map_of_numbered _ _ h.source_id
  have hpair : (s.sources.map fun source => source.id.index).Pairwise (· < ·) := by
    rw [hmap]
    exact List.pairwise_lt_range
  exact List.pairwise_map.1 hpair

theorem feeds_ascending (id : InterfaceId) :
    (s.feeds id).Pairwise (fun a b => a.index < b.index) := by
  rw [h.feeds_eq]
  exact List.pairwise_map.2 (h.sources_ascending.filter _)

/-- An interface feeds the sources that name it, and no others. -/
theorem mem_feeds_iff (interface : InterfaceId) (id : SourceId) :
    id ∈ s.feeds interface ↔ ∃ source, s.source? id = some source ∧ source.interface = interface := by
  rw [h.feeds_eq, List.mem_map]
  constructor
  · intro hgiven
    rcases hgiven with ⟨source, hsource, rfl⟩
    rcases List.mem_filter.1 hsource with ⟨hmem, hinterface⟩
    exact ⟨source, (h.source?_eq_some_iff _ _).2 ⟨hmem, rfl⟩, of_decide_eq_true hinterface⟩
  · intro hgiven
    rcases hgiven with ⟨source, hsource, rfl⟩
    rcases (h.source?_eq_some_iff _ _).1 hsource with ⟨hmem, hid⟩
    exact ⟨source, List.mem_filter.2 ⟨hmem, decide_eq_true rfl⟩, hid⟩

/-- An interface feeds a source once if the source names it, and else not. -/
theorem count_feeds (source : Source) (hsource : source ∈ s.sources) (interface : InterfaceId) :
    (s.feeds interface).count source.id = if interface = source.interface then 1 else 0 := by
  have hid := (h.source?_eq_some_iff source.id source).2 ⟨hsource, rfl⟩
  split
  · rename_i heq
    have hnodup : (s.feeds interface).Nodup :=
      (h.feeds_ascending interface).imp (fun hlt hab => by rw [hab] at hlt; omega)
    exact List.count_eq_one_of_mem hnodup
      ((h.mem_feeds_iff interface source.id).2 ⟨source, hid, heq.symm⟩)
  · rename_i hne
    rw [List.count_eq_zero]
    intro hmem
    rcases (h.mem_feeds_iff interface source.id).1 hmem with ⟨source', hsource', heq⟩
    rw [hid] at hsource'
    rcases Option.some.inj hsource' with rfl
    exact hne heq.symm

/-- Every source gives a verdict. -/
theorem judge?_isSome (id : SourceId) (source : Source) (hid : s.source? id = some source)
    (frame : Frame) : (s.judge? id frame).isSome := by
  rcases h.exists_parent source (List.mem_of_getElem? hid) with ⟨d, hd, -⟩
  rw [judge?_eq_some s hid hd]
  rfl

end Linked

/-- Every station that can come about is linked, whatever is asked of it and
    in whatever order. So each source has one parent that lists it once, and
    one interface that feeds it once, in the order of the numbers; and each
    source that is fed gives a verdict. -/
theorem linked_grow_empty (mycall : String) (changes : List Change) :
    let s := (empty mycall).grow changes
    s.Linked ∧
      (∀ source ∈ s.sources, (∃ d, s.digipeater? source.parent = some d) ∧
        ∀ d ∈ s.digipeaters,
          d.sources.count source.id = if d.id = source.parent then 1 else 0) ∧
      (∀ interface, (s.feeds interface).Pairwise (fun a b => a.index < b.index) ∧
        ∀ id, id ∈ s.feeds interface ↔
          ∃ source, s.source? id = some source ∧ source.interface = interface) ∧
      (∀ source ∈ s.sources, ∀ interface,
        (s.feeds interface).count source.id = if interface = source.interface then 1 else 0) ∧
      ∀ interface frame, ∀ id ∈ s.feeds interface, (s.judge? id frame).isSome := by
  intro s
  have h : s.Linked := linked_grow (linked_empty mycall) changes
  refine ⟨h, ?_, ?_, h.count_feeds, ?_⟩
  · intro source hsource
    rcases h.exists_parent source hsource with ⟨d, hd, -⟩
    exact ⟨⟨d, hd⟩, h.count_sources source hsource⟩
  · exact fun interface => ⟨h.feeds_ascending interface, h.mem_feeds_iff interface⟩
  · intro interface frame id hid
    rcases (h.mem_feeds_iff interface id).1 hid with ⟨source, hsource, -⟩
    exact h.judge?_isSome id source hsource frame

end Station

end AprsRelay
