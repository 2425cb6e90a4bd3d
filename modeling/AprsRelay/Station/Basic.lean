import AprsRelay.Station.Plan

/-!
# Stations

A station holds its interfaces, sources and digipeaters, each in the order of
their numbers. Entities are only ever added, so a number never changes its
meaning.

## Main definitions

* `Station`: Everything that a station holds.
* `Station.empty`: A station without interfaces.
* `Station.addInterface`: One more interface.
* `Station.findInterface?`: The interface with a callsign.
* `Station.interface?`, `source?`, `digipeater?`: The entity with a number.
* `Station.feeds`: The sources that listen to an interface.
* `Station.install`: One more digipeater, with its sources.
* `Station.commit?`: The same, if the plan refers to known interfaces only.

## Theorems

* `commit?_eq_none_iff`, `commit?_eq_some_iff`: When a plan is carried out, and
  what is left then.
-/

namespace AprsRelay

/-- A station: its own callsign, and its entities in the order of their
    numbers. -/
structure Station where
  mycall : String
  interfaces : List Interface
  sources : List Source
  digipeaters : List Digipeater
  deriving DecidableEq, Repr

namespace Station

/-- A station without interfaces. -/
def empty (mycall : String) : Station :=
  ⟨mycall, [], [], []⟩

/-- The number that the next interface gets. -/
def nextInterface (s : Station) : InterfaceId :=
  ⟨s.interfaces.length⟩

/-- The number that the next digipeater gets. -/
def nextDigipeater (s : Station) : DigipeaterId :=
  ⟨s.digipeaters.length⟩

/-- One more interface, to which no source listens yet. -/
def addInterface (s : Station) (callsign : String) (canTransmit : Bool) : Station :=
  { s with interfaces := s.interfaces ++ [⟨s.nextInterface, callsign, canTransmit, []⟩] }

/-- The first interface with the given callsign, in capitals or not. -/
def findInterface? (s : Station) (callsign : String) : Option InterfaceId :=
  (s.interfaces.find? fun i => Text.sameLetters i.callsign callsign).map (·.id)

/-- The interface with the given number. -/
def interface? (s : Station) (id : InterfaceId) : Option Interface :=
  s.interfaces[id.index]?

/-- The source with the given number. -/
def source? (s : Station) (id : SourceId) : Option Source :=
  s.sources[id.index]?

/-- The digipeater with the given number. -/
def digipeater? (s : Station) (id : DigipeaterId) : Option Digipeater :=
  s.digipeaters[id.index]?

/-- The sources that listen to an interface, in the order of their numbers;
    none for an unknown interface. -/
def feeds (s : Station) (id : InterfaceId) : List SourceId :=
  match s.interface? id with
  | none => []
  | some i => i.feeds

/-- Whether a digipeater may send on an interface. -/
def canTransmit (s : Station) (id : InterfaceId) : Bool :=
  (s.interface? id).any (·.canTransmit)

/-- Whether a number is that of an interface. -/
def holds (s : Station) (id : InterfaceId) : Bool :=
  id.index < s.interfaces.length

/-- The sources that a plan adds to a station. -/
def newSources (s : Station) (plan : DigipeaterPlan) : List Source :=
  SourcePlan.enlistAll s.nextDigipeater s.sources.length plan.sources

/-- The interfaces of a station, when the given sources listen to them too. -/
def linkSources (interfaces : List Interface) (added : List Source) : List Interface :=
  interfaces.mapIdx fun index i =>
    { i with
      feeds := i.feeds ++ (added.filter fun source => source.interface.index = index).map (·.id) }

/-- One more digipeater, with its sources. -/
def install (s : Station) (plan : DigipeaterPlan) : Station :=
  -- Both directions are recorded: interfaces know their sources, digipeaters theirs.
  let added := s.newSources plan
  { s with
    interfaces := linkSources s.interfaces added
    sources := s.sources ++ added
    digipeaters := s.digipeaters ++ [plan.enlist s.nextDigipeater (added.map (·.id))] }

/-- Carry out a plan: the number of the new digipeater and the station that
    has it. A plan that refers to an unknown interface is refused. -/
def commit? (s : Station) (plan : DigipeaterPlan) : Option (DigipeaterId × Station) :=
  if plan.interfaces.all s.holds then some (s.nextDigipeater, s.install plan) else none

/-- A plan is refused when it refers to an unknown interface, and only then. -/
theorem commit?_eq_none_iff (s : Station) (plan : DigipeaterPlan) :
    s.commit? plan = none ↔ ∃ id ∈ plan.interfaces, s.holds id = false := by
  unfold commit?
  split <;> simp_all

/-- A plan that is carried out gets the next number, and the station is the one
    with the plan installed. -/
theorem commit?_eq_some_iff (s t : Station) (plan : DigipeaterPlan) (id : DigipeaterId) :
    s.commit? plan = some (id, t) ↔
      (∀ i ∈ plan.interfaces, s.holds i = true) ∧ id = s.nextDigipeater ∧
        t = s.install plan := by
  unfold commit?
  by_cases h : plan.interfaces.all s.holds = true
  · rw [if_pos h]
    rw [List.all_eq_true] at h
    constructor
    · intro heq
      obtain ⟨rfl, rfl⟩ := Prod.mk.inj (Option.some.inj heq)
      exact ⟨h, rfl, rfl⟩
    · rintro ⟨-, rfl, rfl⟩
      rfl
  · rw [if_neg h]
    rw [List.all_eq_true] at h
    -- The plan was refused, so some interface is unknown.
    simp only [reduceCtorEq, false_iff]
    rintro ⟨hall, -⟩
    exact h hall

end Station

end AprsRelay
