import AprsRelay.Station.Entity

/-!
# Plans

What a block of a block file asks for, once it was found to be without fault.
A plan refers to interfaces by number and knows nothing of other digipeaters,
so it can be carried out at any time, and more than once.

## Main definitions

* `SourcePlan`, `DigipeaterPlan`: A source or a digipeater to be.
* `DigipeaterPlan.interfaces`: The interfaces that a plan refers to.
* `SourcePlan.enlist`, `enlistAll`: Planned sources with their numbers.
* `DigipeaterPlan.enlist`: A planned digipeater with its number.

## Theorems

* `enlistAll_length`, `enlistAll_getElem?`: A planned source keeps its place
  and gets the number that belongs to it.
* `map_id_enlistAll`: The numbers are consecutive.
* `exists_of_mem_enlistAll`: All sources of a plan have the same parent.
-/

namespace AprsRelay

/-- A source to be. -/
structure SourcePlan where
  interface : InterfaceId
  relayFormat : RelayFormat
  filters : List String
  trace : Option KeywordSet
  wide : Option KeywordSet
  deriving DecidableEq, Repr

/-- A digipeater to be. -/
structure DigipeaterPlan where
  transmitter : InterfaceId
  rateLimit : Nat
  viscousDelay : Nat
  trace : Option KeywordSet
  wide : Option KeywordSet
  sources : List SourcePlan
  deriving DecidableEq, Repr

namespace SourcePlan

/-- A planned source under the given number. -/
def enlist (plan : SourcePlan) (parent : DigipeaterId) (id : SourceId) : Source where
  id := id
  interface := plan.interface
  parent := parent
  relayFormat := plan.relayFormat
  filters := plan.filters
  trace := plan.trace
  wide := plan.wide

/-- Planned sources, numbered in order from `first` on. -/
def enlistAll (parent : DigipeaterId) (first : Nat) (plans : List SourcePlan) : List Source :=
  (plans.zipIdx first).map fun (plan, index) => plan.enlist parent ⟨index⟩

section

variable (parent : DigipeaterId) (first : Nat) (plans : List SourcePlan)

@[simp]
theorem enlistAll_length : (enlistAll parent first plans).length = plans.length := by
  simp [enlistAll]

-- A planned source is enlisted at its own place.
theorem enlistAll_getElem? (k : Nat) :
    (enlistAll parent first plans)[k]? =
      plans[k]?.map fun plan => plan.enlist parent ⟨first + k⟩ := by
  simp [enlistAll, List.getElem?_map, List.getElem?_zipIdx, Option.map_map, Function.comp_def]

theorem map_id_enlistAll :
    (enlistAll parent first plans).map (·.id) =
      (List.range' first plans.length).map SourceId.mk := by
  rw [← List.zipIdx_map_snd first plans, List.map_map, enlistAll, List.map_map]
  rfl

-- An enlisted source is a planned one under some number.
theorem exists_of_mem_enlistAll (source : Source) (h : source ∈ enlistAll parent first plans) :
    ∃ plan ∈ plans, ∃ id, source = plan.enlist parent id := by
  simp only [enlistAll, List.mem_map] at h
  rcases h with ⟨⟨plan, index⟩, hmem, rfl⟩
  exact ⟨plan, List.fst_mem_of_mem_zipIdx hmem, ⟨index⟩, rfl⟩

-- The interfaces of enlisted sources are those that the plans name.
theorem map_interface_enlistAll :
    (enlistAll parent first plans).map (·.interface) = plans.map (·.interface) := by
  apply List.ext_getElem?
  intro k
  rw [List.getElem?_map, enlistAll_getElem?, List.getElem?_map, Option.map_map]
  rfl

end

end SourcePlan

namespace DigipeaterPlan

/-- The interfaces that a plan refers to. -/
def interfaces (plan : DigipeaterPlan) : List InterfaceId :=
  plan.transmitter :: plan.sources.map (·.interface)

/-- A planned digipeater under the given number, with the standard keyword
    sets where the plan declares none. -/
def enlist (plan : DigipeaterPlan) (id : DigipeaterId) (sources : List SourceId) :
    Digipeater where
  id := id
  transmitter := plan.transmitter
  rateLimit := plan.rateLimit
  viscousDelay := plan.viscousDelay
  trace := plan.trace.getD (.standard .trace)
  wide := plan.wide.getD (.standard .wide)
  sources := sources

end DigipeaterPlan

end AprsRelay
