import AprsRelay.Proofs.Station.Continued
import Mathlib

/-!
# Callsigns Identify Interfaces

Whether two interfaces have the same callsign is decided in two places. The
settings are looked through before there is a station: the callsigns are
written in capitals, kept, and each is looked up among those kept before it.
The station compares callsigns letter by letter and takes the first interface
that fits. Both places mean the same, because capitals can be compared as well
as small letters, and because a callsign that is skipped for being blank is
the same as no other. So in a station whose settings have no fault every
interface is found under its own callsign, and no other is.

## Main definitions

* `Text.raised`: A text with its small letters replaced by capitals.
* `Settings.scan`: The faults of settings, found in one pass.
* `Settings.Sensible`: Settings without a fault, told without the faults.
* `CallsignReport`: What is reported on an interface, and why.

## Theorems

* `sameLetters_iff_raised`, `trim_eq_nil_iff`: Both ways to compare, and to
  tell blanks.
* `scanCallsigns_eq`, `scan_eq_faults`: The pass finds the faults.
* `faults_eq_nil_iff`: Settings without a fault.
* `callsignReport_interfaceFaults`: The faults of an interface.
* `findInterface?_build_iff`: Interfaces are found under their callsigns.
* `callsigns_identify`: Both places agree.
-/

namespace AprsRelay

namespace Text

/-- A text with its small ASCII letters replaced by capitals. -/
def raised (s : String) : String :=
  String.ofList (s.toList.map Char.toUpper)

-- Capitals tell of a text what small letters tell of it.
theorem raised_lowered (s : String) : raised (lowered s) = raised s := by
  simp only [raised, lowered, String.toList_ofList, List.map_map]
  congr 2
  funext c
  exact Char.toUpper_toLower_eq_toUpper c

theorem lowered_raised (s : String) : lowered (raised s) = lowered s := by
  simp only [raised, lowered, String.toList_ofList, List.map_map]
  congr 2
  funext c
  exact Char.toLower_toUpper_eq_toLower c

/-- Texts have the same letters when they are equal in capitals. -/
theorem sameLetters_iff_raised (a b : String) :
    sameLetters a b = true ↔ raised a = raised b := by
  rw [sameLetters_iff]
  constructor
  · intro h
    rw [← raised_lowered a, h, raised_lowered]
  · intro h
    rw [← lowered_raised a, h, lowered_raised]

-- Nothing is left of a text without its blanks when it holds nothing else.
theorem trim_eq_nil_iff (s : String) : trim s.toList = [] ↔ isBlankText s = true := by
  rw [isBlankText, List.all_eq_true, ← List.dropWhile_eq_nil_iff, trim]
  cases hcs : s.toList.dropWhile isBlank with
  | nil => simp [trimEnd]
  | cons c rest =>
      have hc : isBlank c = false := by
        have hhead := List.head?_dropWhile_not isBlank s.toList
        rw [hcs] at hhead
        simpa using hhead
      rw [trimEnd_cons_of_not_blank c rest hc]
      simp

theorem isBlank_toLower (c : Char) : isBlank c.toLower = isBlank c := by
  by_cases hc : c.isUpper = true
  · -- A capital is no blank, and neither is a small letter.
    have hrange : 65 ≤ c.toNat ∧ c.toNat ≤ 90 := by
      simpa [Char.isUpper, UInt32.le_iff_toNat_le] using hc
    have hlower : c.toLower.toNat = c.toNat + 32 := by
      rw [Char.toLower_eq_of_isUpper hc, Char.toNat_ofNat, if_pos (by left; omega)]
    simp only [isBlank, hlower]
    grind
  · rw [Char.toLower_eq_of_not_isUpper hc]

/-- Texts with the same letters have blanks in the same places. -/
theorem map_isBlank_of_sameLetters (a b : String) (h : sameLetters a b = true) :
    a.toList.map isBlank = b.toList.map isBlank := by
  have hlowered : ∀ s, (lowered s).toList.map isBlank = s.toList.map isBlank := by
    intro s
    rw [lowered, String.toList_ofList, List.map_map]
    exact List.map_congr_left fun c _ => isBlank_toLower c
  rw [sameLetters_iff] at h
  rw [← hlowered a, h, hlowered]

-- So a blank text has the same letters as blank texts only.
theorem isBlankText_eq_of_sameLetters (a b : String) (h : sameLetters a b = true) :
    isBlankText a = isBlankText b := by
  have hall : ∀ s, isBlankText s = (s.toList.map isBlank).all id := by
    intro s
    rw [isBlankText, List.all_map]
    rfl
  rw [hall, map_isBlank_of_sameLetters a b h, hall]

end Text

namespace Settings

/-- The faults of interfaces, found in one pass. The callsigns that were seen
    are kept in capitals, and blank ones are not kept. -/
def scanCallsigns (seen : List String) (index : Nat) :
    List InterfaceSettings → List SettingsFault
  | [] => []
  | i :: rest =>
    if Text.trim i.callsign.toList = [] then
      .emptyCallsign index :: scanCallsigns seen (index + 1) rest
    else if Text.raised i.callsign ∈ seen then
      .duplicateCallsign i.callsign :: scanCallsigns seen (index + 1) rest
    else scanCallsigns (Text.raised i.callsign :: seen) (index + 1) rest

/-- Everything that is wrong with settings, found in one pass. -/
def scan (s : Settings) : List SettingsFault :=
  (if Text.trim s.mycall.toList = [] then [.emptyMycall] else []) ++
    scanCallsigns [] 0 s.interfaces ++
    if s.logFormat = "pretty" ∨ s.logFormat = "json" then [] else [.unknownLogFormat s.logFormat]

/-- Among callsigns that are not blank, those that were seen are those that
    were declared. -/
def Seen (seen : List String) (declared : List InterfaceSettings) : Prop :=
  ∀ callsign, Text.isBlankText callsign = false →
    (Text.raised callsign ∈ seen ↔ ∃ e ∈ declared, Text.sameLetters e.callsign callsign = true)

section

variable {seen : List String} {earlier : List InterfaceSettings} (h : Seen seen earlier)
  (i : InterfaceSettings)
include h

-- A blank callsign need not be kept, since it is the same as blank ones only.
theorem seen_of_blank (hi : Text.isBlankText i.callsign = true) : Seen seen (earlier ++ [i]) := by
  intro callsign hcallsign
  rw [h callsign hcallsign]
  simp only [List.mem_append, List.mem_singleton, or_and_right, exists_or, exists_eq_left]
  refine (or_iff_left fun hsame => ?_).symm
  rw [Text.isBlankText_eq_of_sameLetters _ _ hsame, hcallsign] at hi
  exact Bool.false_ne_true hi

-- A callsign that is known need not be kept again.
theorem seen_of_mem (hi : Text.raised i.callsign ∈ seen) : Seen seen (earlier ++ [i]) := by
  intro callsign hcallsign
  have hknown : Text.sameLetters i.callsign callsign = true → Text.raised callsign ∈ seen := by
    intro hsame
    rwa [← (Text.sameLetters_iff_raised _ _).1 hsame]
  rw [h callsign hcallsign] at hknown ⊢
  simp only [List.mem_append, List.mem_singleton, or_and_right, exists_or, exists_eq_left]
  exact (or_iff_left_of_imp hknown).symm

theorem seen_cons : Seen (Text.raised i.callsign :: seen) (earlier ++ [i]) := by
  intro callsign hcallsign
  rw [List.mem_cons, h callsign hcallsign, eq_comm, ← Text.sameLetters_iff_raised, or_comm]
  simp only [List.mem_append, List.mem_singleton, or_and_right, exists_or, exists_eq_left]

end

section

variable (earlier : List InterfaceSettings) (index : Nat) (i : InterfaceSettings)

theorem interfaceFaults_of_blank (hi : Text.isBlankText i.callsign = true) :
    interfaceFaults earlier index i = [.emptyCallsign index] := by
  rw [interfaceFaults, if_pos hi]

variable (hi : ¬ Text.isBlankText i.callsign = true)
include hi

theorem interfaceFaults_of_repeated
    (hearlier : ∃ e ∈ earlier, Text.sameLetters e.callsign i.callsign = true) :
    interfaceFaults earlier index i = [.duplicateCallsign i.callsign] := by
  rw [interfaceFaults, if_neg hi, if_pos (List.any_eq_true.2 hearlier)]

theorem interfaceFaults_of_fresh
    (hearlier : ¬ ∃ e ∈ earlier, Text.sameLetters e.callsign i.callsign = true) :
    interfaceFaults earlier index i = [] := by
  rw [interfaceFaults, if_neg hi, if_neg fun hany => hearlier (List.any_eq_true.1 hany)]

end

/-- The pass finds the faults of the interfaces that are left, if it knows the
    callsigns of the earlier ones. -/
theorem scanCallsigns_eq (rest : List InterfaceSettings) (seen : List String)
    (earlier : List InterfaceSettings) (h : Seen seen earlier) :
    scanCallsigns seen earlier.length rest =
      (rest.zipIdx earlier.length).flatMap fun (i, index) =>
        interfaceFaults ((earlier ++ rest).take index) index i := by
  induction rest generalizing seen earlier with
  | nil => rfl
  | cons i rest ih =>
      have hrest : ∀ seen', Seen seen' (earlier ++ [i]) →
          scanCallsigns seen' (earlier.length + 1) rest =
            (rest.zipIdx (earlier.length + 1)).flatMap fun (j, index) =>
              interfaceFaults ((earlier ++ i :: rest).take index) index j := by
        intro seen' hseen'
        have hnext := ih seen' (earlier ++ [i]) hseen'
        rwa [List.length_append, List.length_singleton, List.append_assoc,
          List.singleton_append] at hnext
      rw [List.zipIdx_cons, List.flatMap_cons, scanCallsigns]
      simp only [List.take_left, Text.trim_eq_nil_iff]
      by_cases hblank : Text.isBlankText i.callsign = true
      · rw [if_pos hblank, hrest seen (seen_of_blank h i hblank),
          interfaceFaults_of_blank earlier _ i hblank]
        rfl
      · rw [if_neg hblank]
        have hseen := h i.callsign (Bool.eq_false_iff.2 hblank)
        by_cases hmem : Text.raised i.callsign ∈ seen
        · rw [if_pos hmem, hrest seen (seen_of_mem h i hmem),
            interfaceFaults_of_repeated earlier _ i hblank (hseen.1 hmem)]
          rfl
        · rw [if_neg hmem, hrest _ (seen_cons h i),
            interfaceFaults_of_fresh earlier _ i hblank fun hany => hmem (hseen.2 hany)]
          rfl

theorem contains_logFormats_iff (format : String) :
    logFormats.contains format = true ↔ format = "pretty" ∨ format = "json" := by
  simp [logFormats]

/-- The pass finds everything that is wrong. -/
theorem scan_eq_faults (s : Settings) : s.scan = s.faults := by
  have hcallsigns := scanCallsigns_eq s.interfaces [] [] fun callsign _ => by simp
  rw [List.length_nil, List.nil_append] at hcallsigns
  rw [scan, hcallsigns, faults]
  simp only [Text.trim_eq_nil_iff, contains_logFormats_iff]

/-! ## What the faults say -/

/-- Settings that describe a station: callsigns that are not blank, no two
    interfaces with the same one, and a log format that is known. -/
structure Sensible (s : Settings) : Prop where
  mycall : Text.isBlankText s.mycall = false
  callsigns : ∀ i ∈ s.interfaces, Text.isBlankText i.callsign = false
  distinct : s.interfaces.Pairwise fun i j => Text.sameLetters i.callsign j.callsign = false
  logFormat : s.logFormat = "pretty" ∨ s.logFormat = "json"

end Settings

/-- What is reported on the interface at a place: that its callsign is blank,
    else that an earlier interface has the same one, else nothing. -/
inductive CallsignReport (declared : List InterfaceSettings) (index : Nat)
    (i : InterfaceSettings) : List SettingsFault → Prop
  | blank (h : ∀ c ∈ i.callsign.toList, Text.isBlank c = true) :
      CallsignReport declared index i [.emptyCallsign index]
  | repeated (h : ∃ c ∈ i.callsign.toList, Text.isBlank c = false)
      (hearlier : ∃ k < index, ∃ e, declared[k]? = some e ∧
        Text.sameLetters e.callsign i.callsign = true) :
      CallsignReport declared index i [.duplicateCallsign i.callsign]
  | fresh (h : ∃ c ∈ i.callsign.toList, Text.isBlank c = false)
      (hearlier : ∀ k < index, ∀ e, declared[k]? = some e →
        Text.sameLetters e.callsign i.callsign = false) :
      CallsignReport declared index i []

namespace Settings

-- The entries before a place are those with a lower number.
theorem mem_take_iff_getElem? {α : Type} (l : List α) (n : Nat) (x : α) :
    x ∈ l.take n ↔ ∃ k < n, l[k]? = some x := by
  rw [List.mem_iff_getElem?]
  constructor
  · rintro ⟨k, hk⟩
    rw [List.getElem?_take] at hk
    split at hk
    · exact ⟨k, by assumption, hk⟩
    · exact nomatch hk
  · rintro ⟨k, hlt, hk⟩
    exact ⟨k, by rw [List.getElem?_take_of_lt hlt, hk]⟩

-- A relation holds between an entry and those before it.
theorem pairwise_iff_forall_take {α : Type} (R : α → α → Prop) (l : List α) :
    l.Pairwise R ↔ ∀ x k, l[k]? = some x → ∀ e ∈ l.take k, R e x := by
  rw [List.pairwise_iff_getElem]
  constructor
  · intro h x k hk e he
    rcases (mem_take_iff_getElem? l k e).1 he with ⟨j, hlt, hj⟩
    rcases List.getElem?_eq_some_iff.1 hk with ⟨hklt, rfl⟩
    rcases List.getElem?_eq_some_iff.1 hj with ⟨hjlt, rfl⟩
    exact h j k hjlt hklt hlt
  · intro h j k hj hk hlt
    exact h l[k] k (List.getElem?_eq_getElem hk) l[j]
      ((mem_take_iff_getElem? l k l[j]).2 ⟨j, hlt, List.getElem?_eq_getElem hj⟩)

theorem callsignReport_interfaceFaults (declared : List InterfaceSettings) (index : Nat)
    (i : InterfaceSettings) :
    CallsignReport declared index i (interfaceFaults (declared.take index) index i) := by
  by_cases hblank : Text.isBlankText i.callsign = true
  · rw [interfaceFaults_of_blank _ _ i hblank]
    exact .blank ((Text.isBlankText_iff _).1 hblank)
  · have hsome : ∃ c ∈ i.callsign.toList, Text.isBlank c = false := by
      rw [Text.isBlankText_iff] at hblank
      push Not at hblank
      simpa using hblank
    by_cases hearlier : ∃ e ∈ declared.take index, Text.sameLetters e.callsign i.callsign = true
    · rw [interfaceFaults_of_repeated _ _ i hblank hearlier]
      rcases hearlier with ⟨e, he, hsame⟩
      rcases (mem_take_iff_getElem? declared index e).1 he with ⟨k, hk, hke⟩
      exact .repeated hsome ⟨k, hk, e, hke, hsame⟩
    · rw [interfaceFaults_of_fresh _ _ i hblank hearlier]
      refine .fresh hsome fun k hk e he => Bool.eq_false_iff.2 fun hsame => hearlier ?_
      exact ⟨e, (mem_take_iff_getElem? declared index e).2 ⟨k, hk, he⟩, hsame⟩

/-- An interface has no fault if its callsign is not blank and no earlier
    interface has it. -/
theorem interfaceFaults_eq_nil_iff (earlier : List InterfaceSettings) (index : Nat)
    (i : InterfaceSettings) :
    interfaceFaults earlier index i = [] ↔ Text.isBlankText i.callsign = false ∧
      ∀ e ∈ earlier, Text.sameLetters e.callsign i.callsign = false := by
  unfold interfaceFaults
  split
  · simp_all
  · split <;> simp_all

/-- Settings are without fault exactly when they describe a station. -/
theorem faults_eq_nil_iff (s : Settings) : s.faults = [] ↔ s.Sensible := by
  have hinterfaces : (s.interfaces.zipIdx.flatMap fun (i, index) =>
      interfaceFaults (s.interfaces.take index) index i) = [] ↔
      (∀ i ∈ s.interfaces, Text.isBlankText i.callsign = false) ∧
        s.interfaces.Pairwise fun i j => Text.sameLetters i.callsign j.callsign = false := by
    have hall : (∀ i ∈ s.interfaces, Text.isBlankText i.callsign = false) ↔
        ∀ (i : InterfaceSettings) (k : Nat), s.interfaces[k]? = some i →
          Text.isBlankText i.callsign = false := by
      simp only [List.mem_iff_getElem?, forall_exists_index]
    rw [hall, pairwise_iff_forall_take]
    simp only [List.flatMap_eq_nil_iff, Prod.forall, List.mk_mem_zipIdx_iff_getElem?,
      interfaceFaults_eq_nil_iff, forall_and]
  rw [faults, List.append_eq_nil_iff, List.append_eq_nil_iff, hinterfaces]
  constructor
  · rintro ⟨⟨hmycall, hcallsigns, hdistinct⟩, hformat⟩
    refine ⟨?_, hcallsigns, hdistinct, ?_⟩
    · simpa using hmycall
    · rw [← contains_logFormats_iff]
      simpa using hformat
  · intro h
    rw [h.mycall, (contains_logFormats_iff _).2 h.logFormat]
    exact ⟨⟨rfl, h.callsigns, h.distinct⟩, rfl⟩

end Settings

/-! ## Lookup -/

-- Among interfaces with different callsigns the first one with a callsign is
-- the only one.
theorem findIdx?_callsign_eq_some_iff (declared : List InterfaceSettings)
    (hdistinct : declared.Pairwise fun i j => Text.sameLetters i.callsign j.callsign = false)
    (callsign : String) (k : Nat) :
    (declared.findIdx? fun i => Text.sameLetters i.callsign callsign) = some k ↔
      ∃ i, declared[k]? = some i ∧ Text.sameLetters callsign i.callsign = true := by
  rw [List.findIdx?_eq_some_iff_getElem]
  constructor
  · rintro ⟨hk, hsame, -⟩
    exact ⟨declared[k], List.getElem?_eq_getElem hk, Text.sameLetters_symm _ _ hsame⟩
  · rintro ⟨i, hi, hsame⟩
    rcases List.getElem?_eq_some_iff.1 hi with ⟨hk, rfl⟩
    refine ⟨hk, Text.sameLetters_symm _ _ hsame, fun j hlt hearlier => ?_⟩
    have hother := List.pairwise_iff_getElem.1 hdistinct j k (by omega) hk hlt
    rw [Text.sameLetters_trans _ _ _ hearlier hsame] at hother
    exact nomatch hother

/-- In a station that was built from settings without a fault an interface is
    found under its own callsign, in capitals or not, and under no other. -/
theorem findInterface?_build_iff (settings : Settings) (h : settings.Sensible) (file : BlockFile)
    (callsign : String) (k : Nat) :
    (LoadedStation.build settings file).station.findInterface? callsign = some ⟨k⟩ ↔
      ∃ i, settings.interfaces[k]? = some i ∧ Text.sameLetters callsign i.callsign = true := by
  rw [findInterface?_build, Option.map_eq_some_iff,
    ← findIdx?_callsign_eq_some_iff settings.interfaces h.distinct]
  simp only [InterfaceId.mk.injEq, exists_eq_right]

/-- Validation and lookup agree on what makes two callsigns the same. Settings
    have no fault exactly when they are sensible, and otherwise every fault is
    reported in the order of the settings, be it found interface by interface
    or in one pass that keeps callsigns in capitals. If there is no fault, each
    interface of the station is found under the callsigns that are the same as
    its own, whatever the block file holds. -/
theorem callsigns_identify (settings : Settings) :
    (settings.faults = [] ↔ settings.Sensible) ∧
    settings.faults = settings.scan ∧
    (∃ reports : List (List SettingsFault),
      List.Forall₂ (fun (i, index) => CallsignReport settings.interfaces index i)
        settings.interfaces.zipIdx reports ∧
      settings.faults =
        (if ∀ c ∈ settings.mycall.toList, Text.isBlank c = true then [.emptyMycall] else []) ++
          reports.flatten ++
          if settings.logFormat = "pretty" ∨ settings.logFormat = "json" then []
          else [.unknownLogFormat settings.logFormat]) ∧
    (settings.faults = [] → ∀ file callsign k,
      (LoadedStation.build settings file).station.findInterface? callsign = some ⟨k⟩ ↔
        ∃ i, settings.interfaces[k]? = some i ∧
          Text.sameLetters callsign i.callsign = true) := by
  refine ⟨settings.faults_eq_nil_iff, settings.scan_eq_faults.symm, ?_, fun h => ?_⟩
  · refine ⟨settings.interfaces.zipIdx.map fun (i, index) =>
      Settings.interfaceFaults (settings.interfaces.take index) index i, ?_, ?_⟩
    · rw [List.forall₂_map_right_iff, List.forall₂_same]
      exact fun entry _ => Settings.callsignReport_interfaceFaults _ _ _
    · rw [Settings.faults, List.flatMap_def]
      simp only [Text.isBlankText_iff, Settings.contains_logFormats_iff]
  · exact findInterface?_build_iff settings (settings.faults_eq_nil_iff.1 h)

/-- Two callsigns of which one begins the other, in a station that holds a
    digipeater. -/
theorem callsigns_identify_second :
    let settings := { Settings.standard with
      interfaces := [⟨"OH2MQK-1", true⟩, ⟨"oh2mqk", false⟩] }
    let file := BlockFile.read "digi.conf"
      "<digipeater>\ntransmit oh2mqk-1\n<source>\nsource oh2mqk\n</source>\n</digipeater>\n"
    settings.faults = [] ∧
      (LoadedStation.build settings file).station.digipeaters ≠ [] ∧
      (LoadedStation.build settings file).station.findInterface? "OH2mqk" = some ⟨1⟩ ∧
      (LoadedStation.build settings file).station.findInterface? "oh2mqk-1" = some ⟨0⟩ := by
  intro settings file
  have hfaults : settings.faults = [] := by decide +kernel
  have hfind := (callsigns_identify settings).2.2.2 hfaults file
  exact ⟨hfaults, by decide +kernel, (hfind "OH2mqk" 1).2 ⟨_, rfl, by decide⟩,
    (hfind "oh2mqk-1" 0).2 ⟨_, rfl, by decide⟩⟩

end AprsRelay
