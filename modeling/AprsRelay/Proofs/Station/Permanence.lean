import AprsRelay.Proofs.Plan.Interfaces
import AprsRelay.Relay

/-!
# What Stays

A station that grows keeps what it has. `Extends` says so list by list: the
interfaces, the sources and the digipeaters of the station are the first ones
of the station that it grew into, and so are the sources that each interface
feeds. Everything that can be asked of a station by a number or a callsign is
looked up in one of these lists from the front, so the answer stays as well.

Interfaces are the one kind of entity that is changed after it was added,
because sources come to listen to it. They are therefore compared without
their listeners, and the listeners are compared on their own.

Verdicts need more than that. An interface could feed a source that has no
digipeater yet; such a source would give no verdict at first and one later,
which would then stand between the others. In a linked station there is no
such source.

## Main definitions

* `Interface.unlinked`: An interface without its listeners.
* `Station.Extends`: One station holds all that another one holds.

## Theorems

* `extends_addInterface`, `extends_install`: A step adds at the end only.
* `extends_of_grows`: So does growth.
* `Extends.source?`, `Extends.digipeater?`, `Extends.exists_interface?`,
  `Extends.findInterface?`, `Extends.judge?`: Answers stay.
* `Extends.verdicts_prefix`: Later verdicts on a frame come behind the earlier
  ones.
* `extends_grow`: What stays in every station that can come about.
-/

namespace AprsRelay

/-- An interface as it was before any source listened to it. -/
def Interface.unlinked (i : Interface) : Interface :=
  { i with feeds := [] }

theorem Interface.unlinked_eq_iff (i j : Interface) :
    i.unlinked = j.unlinked ↔
      i.id = j.id ∧ i.callsign = j.callsign ∧ i.canTransmit = j.canTransmit := by
  simp only [unlinked, Interface.mk.injEq, and_true]

namespace Station

/-- A station holds all that another one holds, under the same numbers, and
    what else it holds comes later. -/
structure Extends (t s : Station) : Prop where
  mycall : t.mycall = s.mycall
  interfaces : s.interfaces.map Interface.unlinked <+: t.interfaces.map Interface.unlinked
  sources : s.sources <+: t.sources
  digipeaters : s.digipeaters <+: t.digipeaters
  feeds : ∀ id, s.feeds id <+: t.feeds id

variable {s t u : Station}

theorem extends_refl (s : Station) : s.Extends s :=
  ⟨rfl, List.prefix_rfl, List.prefix_rfl, List.prefix_rfl, fun _ => List.prefix_rfl⟩

theorem extends_trans (hst : t.Extends s) (htu : u.Extends t) : u.Extends s where
  mycall := htu.mycall.trans hst.mycall
  interfaces := hst.interfaces.trans htu.interfaces
  sources := hst.sources.trans htu.sources
  digipeaters := hst.digipeaters.trans htu.digipeaters
  feeds := fun id => (hst.feeds id).trans (htu.feeds id)

/-! ## Growth -/

theorem extends_addInterface (s : Station) (callsign : String) (canTransmit : Bool) :
    (s.addInterface callsign canTransmit).Extends s where
  mycall := rfl
  interfaces := (List.prefix_append _ _).map Interface.unlinked
  sources := List.prefix_rfl
  digipeaters := List.prefix_rfl
  feeds := fun id => by simp only [feeds_addInterface, List.prefix_rfl]

/-- Carrying out a plan adds entities at the end, and listeners at the end of
    what their interfaces feed. -/
theorem extends_install (s : Station) (plan : DigipeaterPlan)
    (hheld : ∀ id ∈ plan.interfaces, s.holds id = true) : (s.install plan).Extends s where
  mycall := rfl
  interfaces := by
    simp only [install, map_linkSources _ _ Interface.unlinked fun _ _ => rfl, List.prefix_rfl]
  sources := List.prefix_append _ _
  digipeaters := List.prefix_append _ _
  feeds := fun id => by
    rw [feeds_install s plan hheld]
    exact List.prefix_append _ _

/-- Growth only ever adds at the end, step by step. -/
theorem extends_of_grows {P : DigipeaterPlan → Prop} (h : Grows P s t) : t.Extends s := by
  induction h with
  | refl => exact extends_refl s
  | addInterface t callsign canTransmit _ ih =>
      exact extends_trans ih (extends_addInterface t callsign canTransmit)
  | install t plan _ _ hheld ih => exact extends_trans ih (extends_install t plan hheld)

/-! ## Answers -/

namespace Extends

variable (h : t.Extends s)
include h

theorem source? {id : SourceId} {source : Source} (hid : s.source? id = some source) :
    t.source? id = some source :=
  getElem?_of_prefix h.sources hid

theorem digipeater? {id : DigipeaterId} {d : Digipeater} (hid : s.digipeater? id = some d) :
    t.digipeater? id = some d :=
  getElem?_of_prefix h.digipeaters hid

/-- An interface stays what it is, and at most gains listeners. -/
theorem exists_interface? {id : InterfaceId} {i : Interface} (hid : s.interface? id = some i) :
    ∃ j, t.interface? id = some j ∧ j.unlinked = i.unlinked ∧ i.feeds <+: j.feeds := by
  have hs : (s.interfaces.map Interface.unlinked)[id.index]? = some i.unlinked := by
    rw [List.getElem?_map]
    exact congrArg _ hid
  have ht := getElem?_of_prefix h.interfaces hs
  rw [List.getElem?_map, Option.map_eq_some_iff] at ht
  rcases ht with ⟨j, hj, hunlinked⟩
  have hlisten := h.feeds id
  simp only [Station.feeds, Station.interface?] at hid hlisten
  rw [hid, hj] at hlisten
  exact ⟨j, hj, hunlinked, hlisten⟩

-- The first interface with a callsign is still the first, whatever callsigns
-- the later ones have.
theorem findInterface? {callsign : String} {id : InterfaceId}
    (hid : s.findInterface? callsign = some id) : t.findInterface? callsign = some id := by
  have hfind : ∀ u : Station, u.findInterface? callsign =
      ((u.interfaces.map Interface.unlinked).find? fun i =>
        Text.sameLetters i.callsign callsign).map (·.id) := by
    intro u
    rw [List.find?_map, Option.map_map]
    rfl
  rw [hfind, Option.map_eq_some_iff] at hid ⊢
  rcases hid with ⟨i, hi, hnumber⟩
  exact ⟨i, h.interfaces.find?_eq_some hi, hnumber⟩

/-- A verdict that was given once is given again. -/
theorem judge? {id : SourceId} {frame : Frame} {v : Verdict} (hv : s.judge? id frame = some v) :
    t.judge? id frame = some v := by
  rcases exists_of_judge? hv with ⟨source, d, hsource, hd, rfl⟩
  exact judge?_eq_some t (h.source? hsource) (h.digipeater? hd) frame

/-- The verdicts on a frame come first among those that are given later, if
    every source gives one from the start. -/
theorem verdicts_prefix (hlinked : s.Linked) (heardOn : InterfaceId) (frame : Frame) :
    s.verdicts heardOn frame <+: t.verdicts heardOn frame := by
  rcases h.feeds heardOn with ⟨added, hadded⟩
  have hsame : ∀ id ∈ s.feeds heardOn, s.judge? id frame = t.judge? id frame := by
    intro id hid
    rcases (hlinked.mem_feeds_iff heardOn id).1 hid with ⟨source, hsource, -⟩
    rcases Option.isSome_iff_exists.1 (hlinked.judge?_isSome id source hsource frame) with ⟨v, hv⟩
    rw [hv, h.judge? hv]
  rw [verdicts, verdicts, ← hadded, List.filterMap_append, List.filterMap_congr hsame]
  exact List.prefix_append _ _

end Extends

/-- Every station that can come about keeps what it has, whatever is asked of
    it afterwards and in whatever order: its callsign, its sources and
    digipeaters under their numbers, its interfaces but for the listeners that
    they gain at the end, the interface that each callsign stands for, and the
    verdict of each source on each frame. So a frame that is heard later gets
    the verdicts that it would have got before, and others behind them. -/
theorem extends_grow (mycall : String) (earlier later : List Change) :
    let s := (empty mycall).grow earlier
    let t := s.grow later
    t.mycall = s.mycall ∧
      (∀ id source, s.source? id = some source → t.source? id = some source) ∧
      (∀ id d, s.digipeater? id = some d → t.digipeater? id = some d) ∧
      (∀ id i, s.interface? id = some i → ∃ j, t.interface? id = some j ∧ j.id = i.id ∧
        j.callsign = i.callsign ∧ j.canTransmit = i.canTransmit) ∧
      (∀ callsign id, s.findInterface? callsign = some id → t.findInterface? callsign = some id) ∧
      (∀ id, s.feeds id <+: t.feeds id) ∧
      (∀ id source frame, s.source? id = some source →
        ∃ v, s.judge? id frame = some v ∧ t.judge? id frame = some v) ∧
      ∀ queue queue' tally tally' heardOn frame,
        (Relay.receive ⟨s, queue, tally⟩ heardOn frame).1 <+:
          (Relay.receive ⟨t, queue', tally'⟩ heardOn frame).1 := by
  intro s t
  have hlinked : s.Linked := linked_grow (linked_empty mycall) earlier
  have h : t.Extends s := extends_of_grows (grows_grow_any s later)
  refine ⟨h.mycall, fun _ _ => h.source?, fun _ _ => h.digipeater?, ?_,
    fun _ _ => h.findInterface?, h.feeds, ?_,
    fun _ _ _ _ heardOn frame => h.verdicts_prefix hlinked heardOn frame⟩
  · intro id i hi
    rcases h.exists_interface? hi with ⟨j, hj, hunlinked, -⟩
    exact ⟨j, hj, (Interface.unlinked_eq_iff j i).1 hunlinked⟩
  · intro id source frame hsource
    rcases Option.isSome_iff_exists.1 (hlinked.judge?_isSome id source hsource frame) with ⟨v, hv⟩
    exact ⟨v, hv, h.judge? hv⟩

end Station

end AprsRelay
