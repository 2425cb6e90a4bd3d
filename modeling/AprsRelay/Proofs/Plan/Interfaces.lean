import AprsRelay.Proofs.Station.Links
import AprsRelay.StationFile.Settings

/-!
# What a Plan Depends On

Building a plan asks three things of a station: its own callsign, the number
of the interface with a callsign, and whether an interface may be sent on.
Sources and digipeaters are not looked at, so a block yields the same plan, or
the same faults, before and after other plans are carried out. For a station
that was just set up, the answers can be read off the settings.

## Main definitions

* `Station.SameInterfaces`: Stations that answer alike.
* `Settings.interface?`: The interface that an argument stands for.

## Theorems

* `ofBlock_congr`: Stations that answer alike have the same plans built.
* `sameInterfaces_install`: Carrying out a plan changes no answer.
* `findInterface?_ofSettings`: The interface with a callsign, by settings.
-/

namespace AprsRelay

/-- Stations that give the same answers about callsigns and interfaces. -/
structure Station.SameInterfaces (s t : Station) : Prop where
  mycall : s.mycall = t.mycall
  find : ∀ callsign, s.findInterface? callsign = t.findInterface? callsign
  transmit : ∀ id, s.canTransmit id = t.canTransmit id

section

variable {s t : Station}

theorem sameInterfaces_refl (s : Station) : s.SameInterfaces s :=
  ⟨rfl, fun _ => rfl, fun _ => rfl⟩

theorem sameInterfaces_trans {u : Station} (hst : s.SameInterfaces t)
    (htu : t.SameInterfaces u) : s.SameInterfaces u where
  mycall := hst.mycall.trans htu.mycall
  find := fun callsign => (hst.find callsign).trans (htu.find callsign)
  transmit := fun id => (hst.transmit id).trans (htu.transmit id)

-- Nothing but callsigns and interfaces is asked for.
theorem sameInterfaces_of_eq (hmycall : s.mycall = t.mycall)
    (hinterfaces : s.interfaces = t.interfaces) : s.SameInterfaces t where
  mycall := hmycall
  find := fun callsign => by rw [Station.findInterface?, hinterfaces, Station.findInterface?]
  transmit := fun id => by
    rw [Station.canTransmit, Station.interface?, hinterfaces, Station.canTransmit,
      Station.interface?]

variable (h : s.SameInterfaces t)
include h

theorem readInterface_congr {ι : Type} (stmt : Statement)
    (use : InterfaceId → String → Readout ι) :
    readInterface s stmt use = readInterface t stmt use := by
  simp only [readInterface, Station.callsignOf, h.mycall, h.find]

theorem readSourceNode_congr : readSourceNode s = readSourceNode t := by
  funext node
  cases node with
  | statement stmt => simp only [readSourceNode, readInterface_congr h]
  | block heading body => rfl

theorem readSource_congr {ι : Type} (b : Block) (use : SourcePlan → ι) :
    readSource s b use = readSource t b use := by
  simp only [readSource, sourceFindings, sourcePlan?, sourceBody, readSourceNode_congr h]

theorem readDigipeaterNode_congr : readDigipeaterNode s = readDigipeaterNode t := by
  funext node
  cases node with
  | statement stmt =>
      simp only [readDigipeaterNode, readTransmit, readInterface_congr h, h.transmit]
  | block heading body => simp only [readDigipeaterNode, readSource_congr h]

/-- A block yields the same plan or the same faults for stations that answer
    alike. -/
theorem ofBlock_congr (file : String) (b : Block) :
    DigipeaterPlan.ofBlock s file b = DigipeaterPlan.ofBlock t file b := by
  simp only [DigipeaterPlan.ofBlock, digipeaterFindings, digipeaterPlan?, digipeaterBody,
    readDigipeaterNode_congr h]

end

namespace Station

-- Only what interfaces feed is changed when sources listen to them.
theorem map_linkSources {α : Type} (interfaces : List Interface) (added : List Source)
    (f : Interface → α) (hf : ∀ i feeds, f { i with feeds } = f i) :
    (linkSources interfaces added).map f = interfaces.map f := by
  apply List.ext_getElem?
  intro k
  simp only [linkSources, List.getElem?_map, List.getElem?_mapIdx, Option.map_map]
  cases interfaces[k]? with
  | none => rfl
  | some i => exact congrArg some (hf i _)

-- The first interface with a callsign depends on callsigns and numbers
-- only.
theorem findInterface?_eq (s : Station) (callsign : String) :
    s.findInterface? callsign =
      ((s.interfaces.map fun i => (i.callsign, i.id)).find? fun entry =>
        Text.sameLetters entry.1 callsign).map Prod.snd := by
  rw [List.find?_map, Option.map_map]
  rfl

/-- Carrying out a plan changes none of the answers that other plans depend
    on. -/
theorem sameInterfaces_install (s : Station) (plan : DigipeaterPlan) :
    (s.install plan).SameInterfaces s where
  mycall := rfl
  find := by
    intro callsign
    rw [findInterface?_eq, findInterface?_eq]
    simp only [install]
    rw [map_linkSources _ _ _ fun _ _ => rfl]
  transmit := by
    intro id
    rw [canTransmit, interface?_install, canTransmit, Option.any_map]

end Station

/-! ## Stations as they are set up -/

/-- The callsign that an argument stands for. -/
def Settings.callsignOf (settings : Settings) (arg : String) : String :=
  if Text.sameLetters arg "$mycall" then settings.mycall else arg

/-- The interface that an argument stands for: the first one that settings
    declare with this callsign, in capitals or not. -/
def Settings.interface? (settings : Settings) (arg : String) : Option InterfaceId :=
  (settings.interfaces.findIdx? fun i =>
    Text.sameLetters i.callsign (settings.callsignOf arg)).map InterfaceId.mk

namespace Station

-- Interfaces that are added one after the other get consecutive numbers;
-- nothing else is touched.
theorem foldl_addInterface (declared : List InterfaceSettings) (s : Station) :
    declared.foldl (fun s i => s.addInterface i.callsign i.canTransmit) s =
      { s with
        interfaces := s.interfaces ++ (declared.zipIdx s.interfaces.length).map fun (i, k) =>
          ⟨⟨k⟩, i.callsign, i.canTransmit, []⟩ } := by
  induction declared generalizing s with
  | nil => simp
  | cons i declared ih =>
      rw [List.foldl_cons, ih, List.zipIdx_cons, List.map_cons]
      simp only [addInterface, nextInterface, List.length_append, List.length_singleton,
        List.append_assoc, List.singleton_append]

theorem ofSettings_eq (settings : Settings) :
    ofSettings settings =
      ⟨settings.mycall, settings.interfaces.zipIdx.map fun (i, k) =>
        ⟨⟨k⟩, i.callsign, i.canTransmit, []⟩, [], []⟩ := by
  rw [ofSettings, foldl_addInterface]
  rfl

-- The first entry that fits, found among numbered entries.
theorem findIdx?_eq_find?_zipIdx {α : Type} (p : α → Bool) (entries : List α) (first : Nat) :
    ((entries.zipIdx first).find? fun entry => p entry.1).map Prod.snd =
      (entries.findIdx? p).map (first + ·) := by
  induction entries generalizing first with
  | nil => rfl
  | cons x entries ih =>
      rw [List.zipIdx_cons, List.find?_cons, List.findIdx?_cons]
      cases hx : p x with
      | true => rfl
      | false =>
          simp only [Bool.false_eq_true, if_false]
          rw [ih, Option.map_map]
          congr 1
          funext k
          simp only [Function.comp_apply]
          omega

/-- The interface with a callsign is the first one that was declared with
    it. -/
theorem findInterface?_declared (settings : Settings) (callsign : String) :
    (ofSettings settings).findInterface? callsign =
      (settings.interfaces.findIdx? fun i => Text.sameLetters i.callsign callsign).map
        InterfaceId.mk := by
  have hfind := findIdx?_eq_find?_zipIdx (fun i : InterfaceSettings =>
    Text.sameLetters i.callsign callsign) settings.interfaces 0
  simp only [Nat.zero_add, Option.map_id'] at hfind
  rw [ofSettings_eq, ← hfind, findInterface?, List.find?_map, Option.map_map, Option.map_map]
  rfl

-- The station's own call may be written for it.
theorem findInterface?_ofSettings (settings : Settings) (arg : String) :
    (ofSettings settings).findInterface? ((ofSettings settings).callsignOf arg) =
      settings.interface? arg := by
  rw [findInterface?_declared, ofSettings_eq]
  rfl

end Station

end AprsRelay
