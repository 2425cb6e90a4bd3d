import AprsRelay.Proofs.Station.Acceptance
import AprsRelay.Proofs.Station.Loading

/-!
# Where Digipeaters Send

A plan may be handed to another station than the one it was built against.
Building asks whether an interface may be sent on, and the answer is that of
the station at hand. Carrying out a plan asks only whether the interfaces
exist, so the answer is taken on trust. A station keeps its digipeaters on
interfaces that may be sent on as long as it agrees with the stations where
its plans were built, and the first plan on which it does not agree puts a
digipeater on an interface that may not be sent on.

Agreement comes by itself when both stations are stages of one and the same
station, because an interface never changes. It does not matter which of the
two is the later one.

## Main definitions

* `Station.AgreesOn`: The answer that a plan relies on is right.
* `Station.Agreed`: The same for all plans that are carried out.
* `Station.AllTransmit`: Every digipeater may send where it sends.

## Theorems

* `canTransmit_of_ofBlock`: A plan sends where its own station allows it.
* `canTransmit_of_grows`: An interface never changes.
* `allTransmit_change_iff`, `allTransmit_grow_iff`: When one change, and
  several changes, keep all digipeaters where they may send.
* `agreesOn_grow`, `agreesOn_of_grow`: Stages of one station agree.
* `transmitters_grow_empty`: Where the digipeaters of a station send.
-/

namespace AprsRelay

-- The statements with a keyword are those nodes that are statements with it.
theorem mem_statements_iff (b : Block) (name : String) (s : Statement) :
    s ∈ b.statements name ↔ s.name = name ∧ Node.statement s ∈ b.body := by
  simp only [Block.statements, List.mem_filterMap]
  constructor
  · rintro ⟨node, hnode, hs⟩
    cases node with
    | block heading body => simp [Node.statementNamed?] at hs
    | statement stmt =>
        rw [Node.statementNamed?, Option.ite_none_right_eq_some] at hs
        rcases hs with ⟨hname, heq⟩
        rcases Option.some.inj heq with rfl
        exact ⟨hname, hnode⟩
  · rintro ⟨hname, hs⟩
    exact ⟨.statement s, hs, if_pos hname⟩

/-- A plan sends on an interface that may be sent on in the station that it
    was built against. -/
theorem canTransmit_of_ofBlock (s : Station) (file : String) (b : Block) (plan : DigipeaterPlan)
    (h : DigipeaterPlan.ofBlock s file b = .ok plan) : s.canTransmit plan.transmitter = true := by
  have hrule := (exists_ofBlock_iff s file b).1 ⟨plan, h⟩
  have hlast := (digipeaterStated_of_ofBlock s file b plan h).transmitter
  rcases Option.bind_eq_some_iff.1 hlast with ⟨stmt, hstmt, hid⟩
  rcases (mem_statements_iff b "transmit" stmt).1 (List.mem_of_getLast? hstmt) with ⟨hname, hnode⟩
  -- The statement follows the rule for its keyword.
  rcases hrule.nodes _ hnode with ⟨-, id, hnamed, hok⟩ | ⟨hother, -⟩ | ⟨hother, -⟩
  · rw [hid] at hnamed
    rcases Option.some.inj hnamed with rfl
    exact hok
  · exact absurd (hname.symm.trans hother) (by decide)
  · exact absurd (hname.symm.trans hother) (by decide)

namespace Station

/-- A plan was built where the interface that it sends on may be sent on just
    as it may here. -/
def AgreesOn (s : Station) (plan : DigipeaterPlan) : Prop :=
  ∃ (t : Station) (file : String) (b : Block), DigipeaterPlan.ofBlock t file b = .ok plan ∧
    s.canTransmit plan.transmitter = t.canTransmit plan.transmitter

/-- Every plan that is handed in and not refused was built where a station
    agrees with the one that it is handed to. -/
def Agreed : Station → List Change → Prop
  | _, [] => True
  | s, c :: changes =>
    (∀ plan, c = .commit plan → s.commit? plan ≠ none → s.AgreesOn plan) ∧
      Agreed (s.change c) changes

/-- Every digipeater of a station may send on the interface that it sends
    on. -/
def AllTransmit (s : Station) : Prop :=
  ∀ d ∈ s.digipeaters, s.canTransmit d.transmitter = true

variable {s : Station}

/-- To agree on a plan means to let it send, since the other station does. -/
theorem agreesOn_iff (plan : DigipeaterPlan) (hbuilt : plan.IsBuilt) :
    s.AgreesOn plan ↔ s.canTransmit plan.transmitter = true := by
  constructor
  · intro h
    rcases h with ⟨t, file, b, hplan, heq⟩
    rw [heq]
    exact canTransmit_of_ofBlock t file b plan hplan
  · intro h
    rcases hbuilt with ⟨t, file, b, hplan⟩
    refine ⟨t, file, b, hplan, ?_⟩
    rw [h, canTransmit_of_ofBlock t file b plan hplan]

/-! ## Single steps -/

theorem canTransmit_addInterface (callsign : String) (canTransmit : Bool) (id : InterfaceId)
    (h : s.holds id = true) :
    (s.addInterface callsign canTransmit).canTransmit id = s.canTransmit id := by
  have hlt := (s.holds_iff id).1 h
  simp only [Station.canTransmit, interface?, addInterface]
  rw [List.getElem?_append_left hlt]

theorem canTransmit_install (plan : DigipeaterPlan) (id : InterfaceId) :
    (s.install plan).canTransmit id = s.canTransmit id :=
  (sameInterfaces_install s plan).transmit id

/-- An interface that exists is never changed. -/
theorem canTransmit_of_grows {P : DigipeaterPlan → Prop} {t : Station} (h : Grows P s t)
    (id : InterfaceId) (hid : s.holds id = true) :
    t.holds id = true ∧ t.canTransmit id = s.canTransmit id := by
  induction h with
  | refl => exact ⟨hid, rfl⟩
  | addInterface t callsign canTransmit _ ih =>
      rw [canTransmit_addInterface callsign canTransmit id ih.1]
      exact ⟨t.holds_addInterface callsign canTransmit id ih.1, ih.2⟩
  | install t plan _ _ _ ih =>
      rw [holds_install, canTransmit_install]
      exact ih

theorem allTransmit_addInterface_iff (h : s.Linked) (callsign : String) (canTransmit : Bool) :
    (s.addInterface callsign canTransmit).AllTransmit ↔ s.AllTransmit :=
  forall₂_congr fun d hd => by
    rw [canTransmit_addInterface callsign canTransmit _ (h.transmitter_held d hd)]

theorem allTransmit_install_iff (plan : DigipeaterPlan) :
    (s.install plan).AllTransmit ↔ s.AllTransmit ∧ s.canTransmit plan.transmitter = true := by
  unfold AllTransmit
  simp only [canTransmit_install]
  exact List.forall_mem_append.trans (and_congr_right fun _ => List.forall_mem_singleton)

-- Plans that may all send where they send are carried out without harm.
theorem allTransmit_installAll_iff (plans : List DigipeaterPlan)
    (hplans : ∀ plan ∈ plans, s.canTransmit plan.transmitter = true) :
    (s.installAll plans).AllTransmit ↔ s.AllTransmit := by
  induction plans generalizing s with
  | nil => exact Iff.rfl
  | cons plan plans ih =>
      have hfirst := hplans plan List.mem_cons_self
      have hrest : ∀ other ∈ plans, (s.install plan).canTransmit other.transmitter = true := by
        intro other hother
        rw [canTransmit_install]
        exact hplans other (List.mem_cons_of_mem _ hother)
      exact (ih hrest).trans ((allTransmit_install_iff plan).trans (and_iff_left hfirst))

-- The blocks of a file are built against the station that loads them.
theorem allTransmit_load_iff (h : s.Linked) (file : BlockFile) :
    (s.load file).1.AllTransmit ↔ s.AllTransmit := by
  rw [load_eq h file]
  refine allTransmit_installAll_iff _ fun plan hplan => ?_
  rcases List.mem_filterMap.1 hplan with ⟨b, -, hb⟩
  exact canTransmit_of_ofBlock s file.name b plan ((plan?_eq_some_iff s file.name b plan).1 hb)

/-- A change keeps all digipeaters where they may send, unless a plan is
    carried out on which the station does not agree. -/
theorem allTransmit_change_iff (h : s.Linked) (c : Change)
    (hbuilt : ∀ plan, c = .commit plan → plan.IsBuilt) :
    (s.change c).AllTransmit ↔
      s.AllTransmit ∧ ∀ plan, c = .commit plan → s.commit? plan ≠ none → s.AgreesOn plan := by
  cases c with
  | addInterface callsign canTransmit =>
      simp only [reduceCtorEq, false_imp_iff, implies_true, and_true]
      exact allTransmit_addInterface_iff h callsign canTransmit
  | load file =>
      simp only [reduceCtorEq, false_imp_iff, implies_true, and_true]
      exact allTransmit_load_iff h file
  | commit plan =>
      simp only [Change.commit.injEq, forall_eq', change]
      cases hcommit : s.commit? plan with
      | none => simp
      | some result =>
          rcases result with ⟨id, t⟩
          rcases (commit?_eq_some_iff s t plan id).1 hcommit with ⟨-, -, rfl⟩
          simp only [Option.map_some, Option.getD_some, ne_eq, reduceCtorEq, not_false_eq_true,
            true_imp_iff, agreesOn_iff plan (hbuilt plan rfl)]
          exact allTransmit_install_iff plan

/-- So do several changes, if the station agrees on every plan at the time
    when it is carried out. -/
theorem allTransmit_grow_iff (h : s.Linked) (changes : List Change)
    (hbuilt : ∀ plan, .commit plan ∈ changes → plan.IsBuilt) :
    (s.grow changes).AllTransmit ↔ s.AllTransmit ∧ s.Agreed changes := by
  induction changes generalizing s with
  | nil => exact (and_iff_left trivial).symm
  | cons c changes ih =>
      have hfirst : ∀ plan, c = .commit plan → plan.IsBuilt := by
        intro plan hplan
        exact hbuilt plan (hplan ▸ List.mem_cons_self)
      have hrest : ∀ plan, .commit plan ∈ changes → plan.IsBuilt :=
        fun plan hplan => hbuilt plan (List.mem_cons_of_mem c hplan)
      have hstep := ih (linked_grow h [c]) hrest
      rw [Agreed, ← and_assoc, ← allTransmit_change_iff h c hfirst]
      exact hstep

/-! ## Stages of one station -/

/-- A station agrees on the plans that were built against it before. -/
theorem agreesOn_grow (h : s.Linked) (file : String) (b : Block) (plan : DigipeaterPlan)
    (hplan : DigipeaterPlan.ofBlock s file b = .ok plan) (more : List Change) :
    (s.grow more).AgreesOn plan := by
  have hheld := h.holds_of_ofBlock file b plan hplan plan.transmitter List.mem_cons_self
  exact ⟨s, file, b, hplan, (canTransmit_of_grows (grows_grow_any s more) _ hheld).2⟩

/-- It agrees on the plans that were built against a later stage of it, as far
    as it knows their interfaces. -/
theorem agreesOn_of_grow (file : String) (b : Block) (plan : DigipeaterPlan)
    (more : List Change) (hplan : DigipeaterPlan.ofBlock (s.grow more) file b = .ok plan)
    (hcommit : s.commit? plan ≠ none) : s.AgreesOn plan := by
  rcases Option.ne_none_iff_exists'.1 hcommit with ⟨⟨id, t⟩, hsome⟩
  have hheld := ((commit?_eq_some_iff s t plan id).1 hsome).1 plan.transmitter List.mem_cons_self
  exact ⟨s.grow more, file, b, hplan,
    (canTransmit_of_grows (grows_grow_any s more) _ hheld).2.symm⟩

/-- Every digipeater sends on an interface of its station, and all of them may
    send there exactly when the station agrees on every plan that it carried
    out with the station where the plan was built. This is so for the plans
    that were built against the station itself, at an earlier or later stage.
    A plan is refused when it names an interface that the station does not
    have, and only then, and nothing is changed. -/
theorem transmitters_grow_empty (mycall : String) (changes : List Change)
    (hbuilt : ∀ plan, .commit plan ∈ changes → plan.IsBuilt) :
    let s := (empty mycall).grow changes
    (∀ d ∈ s.digipeaters, ∃ i, s.interface? d.transmitter = some i) ∧
      ((∀ d ∈ s.digipeaters, s.canTransmit d.transmitter = true) ↔
        (empty mycall).Agreed changes) ∧
      (∀ plan, s.commit? plan = none ↔ ∃ id ∈ plan.interfaces, s.interface? id = none) ∧
      (∀ plan, s.commit? plan = none → s.change (.commit plan) = s) ∧
      (∀ file b plan more, DigipeaterPlan.ofBlock s file b = .ok plan →
        (s.grow more).AgreesOn plan) ∧
      ∀ file b plan more, DigipeaterPlan.ofBlock (s.grow more) file b = .ok plan →
        s.commit? plan ≠ none → s.AgreesOn plan := by
  intro s
  have hempty := linked_empty mycall
  have h : s.Linked := linked_grow hempty changes
  refine ⟨?_, ?_, ?_, ?_, fun file b plan more hplan => agreesOn_grow h file b plan hplan more,
    agreesOn_of_grow⟩
  · intro d hd
    have hlt := (s.holds_iff d.transmitter).1 (h.transmitter_held d hd)
    exact ⟨_, List.getElem?_eq_getElem hlt⟩
  · have hnone : (empty mycall).AllTransmit := by simp [AllTransmit, empty]
    exact (allTransmit_grow_iff hempty changes hbuilt).trans (and_iff_right hnone)
  · intro plan
    simp only [commit?_eq_none_iff, holds, interface?, decide_eq_false_iff_not, Nat.not_lt,
      List.getElem?_eq_none_iff]
  · intro plan hnone
    simp only [change, hnone]
    rfl

/-- A plain digipeater sends where it may, since it was built against a
    station that has the same first interface. -/
theorem transmitters_grow_empty_plain :
    (∀ plan, .commit plan ∈ [Change.addInterface "N0CALL" true, .commit plainPlan] →
      plan.IsBuilt) ∧
    ∀ d ∈ ((empty "N0CALL").grow [.addInterface "N0CALL" true, .commit plainPlan]).digipeaters,
      ((empty "N0CALL").grow [.addInterface "N0CALL" true, .commit plainPlan]).canTransmit
        d.transmitter = true := by
  have hbuilt : ∀ plan, .commit plan ∈ [Change.addInterface "N0CALL" true, .commit plainPlan] →
      plan.IsBuilt := by
    intro plan hplan
    simp only [List.mem_cons, reduceCtorEq, Change.commit.injEq, List.not_mem_nil, or_false,
      false_or] at hplan
    rw [hplan]
    exact isBuilt_plainPlan
  refine ⟨hbuilt, (transmitters_grow_empty "N0CALL" _ hbuilt).2.1.2 ?_⟩
  refine ⟨fun _ h => (nomatch h), fun plan hplan _ => ?_, trivial⟩
  rcases Change.commit.inj hplan with rfl
  exact ⟨(empty "N0CALL").addInterface "N0CALL" true, "digi.conf", plainBlock, by decide,
    by decide⟩

/-- The same plan puts a digipeater on an interface that may not be sent on,
    where the first interface is one of that kind. It is not refused there. -/
theorem not_canTransmit_plainPlan :
    let s := (empty "N0CALL").addInterface "N0CALL" false
    plainPlan.IsBuilt ∧ s.commit? plainPlan ≠ none ∧
      ∃ d ∈ (s.change (.commit plainPlan)).digipeaters,
        (s.change (.commit plainPlan)).canTransmit d.transmitter = false := by
  refine ⟨isBuilt_plainPlan, by decide, ?_⟩
  exact ⟨⟨⟨0⟩, ⟨0⟩, 300, 0, .standard .trace, .standard .wide, [⟨0⟩]⟩, by decide, by decide⟩

end Station

end AprsRelay
