import AprsRelay.Station.Load

/-!
# Growing Stations

A station changes in three ways: it gets an interface, the digipeaters of a
block file, or a digipeater that was planned before, perhaps against another
station. What holds of every station that can come about is proved once for
all three, because each of them comes down to the same two steps. `Grows`
names these steps: one more interface, or one plan carried out whose
interfaces are all known. A refused plan and a refused block are no step.

The plans that are carried out may be restricted by a property. Every plan
that was built from a block has the properties that building guarantees,
whichever station it was built against.

## Main definitions

* `DigipeaterPlan.IsBuilt`: Plans that come from a block.
* `Change`: The three ways in which a station changes.
* `Station.change`, `Station.grow`: The effect of one change, and of several.
* `Station.Grows`: Growth by single steps.

## Theorems

* `grows_trans`: Growth can be continued.
* `exists_grow_of_grows`: Growth comes about by changes.
* `grows_load`: Loading a block file is growth.
* `grows_change`, `grows_grow`: So is every change, and every sequence of
  changes.
-/

namespace AprsRelay

/-- A plan that comes from a block, of any file and read against any
    station. -/
def DigipeaterPlan.IsBuilt (plan : DigipeaterPlan) : Prop :=
  ∃ (s : Station) (file : String) (b : Block), DigipeaterPlan.ofBlock s file b = .ok plan

/-- A change that can be asked of a station at any time. -/
inductive Change where
  | addInterface (callsign : String) (canTransmit : Bool)
  | load (file : BlockFile)
  | commit (plan : DigipeaterPlan)

namespace Station

/-- The station after a change. A plan that is refused changes nothing. -/
def change (s : Station) : Change → Station
  | .addInterface callsign canTransmit => s.addInterface callsign canTransmit
  | .load file => (s.load file).1
  | .commit plan => ((s.commit? plan).map (·.2)).getD s

/-- The station after several changes, one after the other. -/
def grow (s : Station) (changes : List Change) : Station :=
  changes.foldl change s

/-- Growth by single steps: an interface more, or a plan carried out that
    has the property `P` and refers to known interfaces only. -/
inductive Grows (P : DigipeaterPlan → Prop) (s : Station) : Station → Prop
  | refl : Grows P s s
  | addInterface (t : Station) (callsign : String) (canTransmit : Bool) (h : Grows P s t) :
      Grows P s (t.addInterface callsign canTransmit)
  | install (t : Station) (plan : DigipeaterPlan) (h : Grows P s t) (hplan : P plan)
      (hheld : ∀ id ∈ plan.interfaces, t.holds id = true) : Grows P s (t.install plan)

variable {P : DigipeaterPlan → Prop}

theorem grows_trans {a b c : Station} (hab : Grows P a b) (hbc : Grows P b c) : Grows P a c := by
  induction hbc with
  | refl => exact hab
  | addInterface t callsign canTransmit _ ih => exact .addInterface t callsign canTransmit ih
  | install t plan _ hplan hheld ih => exact .install t plan ih hplan hheld

-- Fewer plans may be carried out under a stronger property.
theorem grows_mono {Q : DigipeaterPlan → Prop} (hPQ : ∀ plan, P plan → Q plan) {s t : Station}
    (h : Grows P s t) : Grows Q s t := by
  induction h with
  | refl => exact .refl
  | addInterface t callsign canTransmit _ ih => exact .addInterface t callsign canTransmit ih
  | install t plan _ hplan hheld ih => exact .install t plan ih (hPQ plan hplan) hheld

theorem grow_concat (s : Station) (changes : List Change) (c : Change) :
    s.grow (changes ++ [c]) = (s.grow changes).change c :=
  List.foldl_append

/-- Growth comes about by changes, and no plan is handed in without the
    property. -/
theorem exists_grow_of_grows {s t : Station} (h : Grows P s t) :
    ∃ changes, (∀ plan, .commit plan ∈ changes → P plan) ∧ t = s.grow changes := by
  induction h with
  | refl => exact ⟨[], fun plan hplan => absurd hplan List.not_mem_nil, rfl⟩
  | addInterface t callsign canTransmit _ ih =>
      rcases ih with ⟨changes, hchanges, rfl⟩
      refine ⟨changes ++ [.addInterface callsign canTransmit], fun plan hplan => ?_, ?_⟩
      · exact hchanges plan (by simpa using hplan)
      · rw [grow_concat, change]
  | install t plan _ hplan hheld ih =>
      rcases ih with ⟨changes, hchanges, rfl⟩
      refine ⟨changes ++ [.commit plan], fun other hother => ?_, ?_⟩
      · rcases List.mem_append.1 hother with hother | hother
        · exact hchanges other hother
        · rw [Change.commit.inj (List.mem_singleton.1 hother)]
          exact hplan
      · have hcommit := (commit?_eq_some_iff (s.grow changes) _ plan _).2 ⟨hheld, rfl, rfl⟩
        rw [grow_concat, change, hcommit]
        rfl

/-- A block that is carried out is a step of growth, and a block that is
    refused is none. -/
theorem grows_loadBlock (hbuilt : ∀ plan : DigipeaterPlan, plan.IsBuilt → P plan)
    (file : String) (s t : Station) (report : LoadReport) (b : Block) (h : Grows P s t) :
    Grows P s (loadBlock file (t, report) b).1 := by
  simp only [loadBlock]
  cases hplan : DigipeaterPlan.ofBlock t file b with
  | error rejection => exact h
  | ok plan =>
      simp only
      cases hcommit : t.commit? plan with
      | none => exact h
      | some result =>
          rcases result with ⟨id, u⟩
          rcases (commit?_eq_some_iff t u plan id).1 hcommit with ⟨hheld, -, rfl⟩
          exact .install t plan h (hbuilt plan ⟨t, file, b, hplan⟩) hheld

/-- Loading a block file is growth, block by block. -/
theorem grows_load (hbuilt : ∀ plan : DigipeaterPlan, plan.IsBuilt → P plan)
    (s : Station) (file : BlockFile) : Grows P s (s.load file).1 := by
  have hfold : ∀ (blocks : List Block) (t : Station) (report : LoadReport), Grows P s t →
      Grows P s (blocks.foldl (loadBlock file.name) (t, report)).1 := by
    intro blocks
    induction blocks with
    | nil => exact fun t report h => h
    | cons b blocks ih =>
        intro t report h
        exact ih _ _ (grows_loadBlock hbuilt file.name s t report b h)
  exact hfold _ s .empty .refl

/-- Every change is growth, as long as the plans that are handed in have the
    property that is asked for. -/
theorem grows_change (hbuilt : ∀ plan : DigipeaterPlan, plan.IsBuilt → P plan)
    (s : Station) (c : Change) (hc : ∀ plan, c = .commit plan → P plan) :
    Grows P s (s.change c) := by
  cases c with
  | addInterface callsign canTransmit => exact .addInterface s callsign canTransmit .refl
  | load file => exact grows_load hbuilt s file
  | commit plan =>
      simp only [change]
      cases hcommit : s.commit? plan with
      | none => exact .refl
      | some result =>
          rcases result with ⟨id, t⟩
          rcases (commit?_eq_some_iff s t plan id).1 hcommit with ⟨hheld, -, rfl⟩
          exact .install s plan .refl (hc plan rfl) hheld

/-- So is every sequence of changes. -/
theorem grows_grow (hbuilt : ∀ plan : DigipeaterPlan, plan.IsBuilt → P plan)
    (s : Station) (changes : List Change) (hc : ∀ plan, .commit plan ∈ changes → P plan) :
    Grows P s (s.grow changes) := by
  induction changes generalizing s with
  | nil => exact .refl
  | cons c changes ih =>
      have hfirst : Grows P s (s.change c) := by
        refine grows_change hbuilt s c (fun plan hplan => hc plan ?_)
        rw [hplan]
        exact List.mem_cons_self
      have hrest : Grows P (s.change c) ((s.change c).grow changes) :=
        ih (s.change c) (fun plan hplan => hc plan (List.mem_cons_of_mem _ hplan))
      exact grows_trans hfirst hrest

-- Without a restriction on the plans there is nothing to show.
theorem grows_grow_any (s : Station) (changes : List Change) :
    Grows (fun _ => True) s (s.grow changes) :=
  grows_grow (fun _ _ => trivial) s changes (fun _ _ => trivial)

end Station

end AprsRelay
