import AprsRelay.Proofs.Station.Links

/-!
# Listeners

What a station does with a frame depends on little: which interface each
source listens to, which digipeater it belongs to, and which keyword sets
apply to it. A list of such listeners can stand for a station, and also for a
block file before there is a station. The numbers of sources are the places in
the list, so carrying out a plan adds the listeners of the plan at the end and
leaves all verdicts of the others alone.

## Main definitions

* `Listener`: A source as far as it matters to frames.
* `Listener.verdicts`: The verdicts of listeners on a frame.
* `KeywordScopes.declared`: The keyword sets that apply where some are declared.
* `Station.listeners`: The sources of a station, seen as listeners.

## Theorems

* `verdicts_eq`: The verdicts of a station are those of its listeners.
* `listeners_install`: A plan adds its listeners at the end.
-/

namespace AprsRelay

/-- A source as far as it matters to frames. It may listen to no interface at
    all. -/
structure Listener where
  digipeater : DigipeaterId
  interface : Option InterfaceId
  sets : KeywordScopes

namespace Listener

/-- The verdict of a listener that has the given number. -/
def verdict (l : Listener) (id : SourceId) (frame : Frame) : Verdict :=
  .ofAccount l.digipeater id (accountIn l.sets frame.viaSegment)

/-- The verdicts on a frame that an interface has heard, one for each listener
    there. The number of a listener is its place among all of them. -/
def verdicts (listeners : List Listener) (heardOn : InterfaceId) (frame : Frame) :
    List Verdict :=
  (listeners.zipIdx.filter fun (l, _) => l.interface = some heardOn).map fun (l, k) =>
    l.verdict ⟨k⟩ frame

end Listener

/-- The keyword sets that apply where a source and its digipeater declare some
    of each kind. The standard sets take the place of those that the
    digipeater leaves out. -/
def KeywordScopes.declared (source digipeater : KeywordKind → Option KeywordSet) : KeywordScopes
  | .sourceTrace => source .trace
  | .digipeaterTrace => some ((digipeater .trace).getD (.standard .trace))
  | .sourceWide => source .wide
  | .digipeaterWide => some ((digipeater .wide).getD (.standard .wide))

/-- The keyword set of a kind that a plan holds. -/
def SourcePlan.set? (plan : SourcePlan) : KeywordKind → Option KeywordSet
  | .trace => plan.trace
  | .wide => plan.wide

/-- The same for a digipeater. -/
def DigipeaterPlan.set? (plan : DigipeaterPlan) : KeywordKind → Option KeywordSet
  | .trace => plan.trace
  | .wide => plan.wide

/-- A planned source as a listener of the digipeater with the given number. -/
def DigipeaterPlan.listener (plan : DigipeaterPlan) (id : DigipeaterId) (source : SourcePlan) :
    Listener :=
  ⟨id, some source.interface, .declared source.set? plan.set?⟩

theorem scopeSet_enlist (plan : DigipeaterPlan) (source : SourcePlan) (id parent : DigipeaterId)
    (sourceId : SourceId) (sources : List SourceId) :
    scopeSet (source.enlist parent sourceId) (plan.enlist id sources) =
      .declared source.set? plan.set? := by
  funext scope
  cases scope <;> rfl

-- Entries that stand at their numbers can be numbered without counting.
theorem zipIdx_of_numbered {α : Type} (number : α → Nat) (entries : List α)
    (h : Numbered number entries) : entries.zipIdx = entries.map fun x => (x, number x) := by
  apply List.ext_getElem?
  intro k
  rw [List.getElem?_zipIdx, List.getElem?_map, Nat.zero_add]
  cases hk : entries[k]? with
  | none => rfl
  | some x => rw [Option.map_some, Option.map_some, h k x hk]

namespace Station

/-- The keyword sets that apply to a source; none without its digipeater. -/
def setsOf (s : Station) (source : Source) : KeywordScopes := fun scope =>
  (s.digipeater? source.parent).bind fun d => scopeSet source d scope

/-- The sources of a station, seen as listeners. -/
def listeners (s : Station) : List Listener :=
  s.sources.map fun source => ⟨source.parent, some source.interface, s.setsOf source⟩

theorem setsOf_eq (s : Station) (source : Source) (d : Digipeater)
    (hd : s.digipeater? source.parent = some d) : s.setsOf source = scopeSet source d := by
  funext scope
  rw [setsOf, hd, Option.bind_some]

variable {s : Station}

/-- The verdicts of a station are those of its listeners. -/
theorem verdicts_eq (h : s.Linked) (heardOn : InterfaceId) (frame : Frame) :
    s.verdicts heardOn frame = Listener.verdicts s.listeners heardOn frame := by
  have hjudge : ∀ source ∈ s.sources, s.judge? source.id frame =
      some (.ofAccount source.parent source.id
        (accountIn (s.setsOf source) frame.viaSegment)) := by
    intro source hsource
    rcases h.exists_parent source hsource with ⟨d, hd, -⟩
    have hid := (h.source?_eq_some_iff source.id source).2 ⟨hsource, rfl⟩
    rw [judge?_eq_some s hid hd, setsOf_eq s source d hd,
      ((h.digipeater?_eq_some_iff source.parent d).1 hd).2]
  -- An interface feeds the sources that listen to it, so both sides go through these.
  have hfed : (s.feeds heardOn).filterMap (fun id => s.judge? id frame) =
      (s.sources.filter fun source => source.interface = heardOn).map fun source =>
        Verdict.ofAccount source.parent source.id
          (accountIn (s.setsOf source) frame.viaSegment) := by
    rw [h.feeds_eq, List.filterMap_map, ← List.filterMap_eq_map]
    apply List.filterMap_congr
    intro source hsource
    exact hjudge source (List.mem_filter.1 hsource).1
  rw [verdicts, hfed, Listener.verdicts, listeners, List.zipIdx_map,
    zipIdx_of_numbered _ _ h.source_id, List.map_map, List.filter_map, List.map_map]
  congr 1
  refine List.filter_congr fun source _ => ?_
  simp only [Function.comp_apply, Prod.map_apply, Option.some.injEq]

theorem listeners_newSources (s : Station) (plan : DigipeaterPlan) :
    ((s.newSources plan).map fun source =>
      (⟨source.parent, some source.interface, (s.install plan).setsOf source⟩ : Listener)) =
      plan.sources.map (plan.listener s.nextDigipeater) := by
  have hnew : (s.install plan).digipeater? s.nextDigipeater =
      some (plan.enlist s.nextDigipeater ((s.newSources plan).map (·.id))) :=
    List.getElem?_concat_length
  have hnumbered : plan.sources.map (plan.listener s.nextDigipeater) =
      (plan.sources.zipIdx s.sources.length).map
        (plan.listener s.nextDigipeater ∘ Prod.fst) := by
    rw [← List.map_map, List.zipIdx_map_fst]
  rw [hnumbered, newSources, SourcePlan.enlistAll, List.map_map]
  apply List.map_congr_left
  intro entry _
  simp only [Function.comp_apply]
  rw [setsOf_eq _ _ _ hnew, scopeSet_enlist]
  rfl

/-- Carrying out a plan adds its listeners at the end. -/
theorem listeners_install (h : s.Linked) (plan : DigipeaterPlan) :
    (s.install plan).listeners =
      s.listeners ++ plan.sources.map (plan.listener s.nextDigipeater) := by
  rw [← listeners_newSources, listeners, listeners, install, List.map_append]
  congr 1
  -- The digipeaters of the sources that were there are found as before.
  apply List.map_congr_left
  intro source hsource
  rcases h.exists_parent source hsource with ⟨d, hd, -⟩
  have hkept := digipeater?_install_of_some plan source.parent d hd
  rw [setsOf_eq s source d hd]
  exact congrArg _ (setsOf_eq (s.install plan) source d hkept)

end Station

end AprsRelay
