import AprsRelay.Proofs.Station.Continued
import AprsRelay.Proofs.Station.Permanence
import AprsRelay.Proofs.Station.Transmitters

/-!
# Plans Stay Good

A plan may be built long before it is carried out, and it may be carried out
more than once. In between the station can change in every way that a station
changes. What a block asks of a station are answers about callsigns and
interfaces, and a station that grows gives the answers that it gave before. It
may have more of them: a block that was refused can be accepted later. So the
rules for blocks are only kept in one direction, from a station to those that
it grows into, and with the rules goes what the blocks state.

The numbers and keywords of a plan do not depend on a station at all. They are
in range because a block without faults has them in range, and where a block
says nothing the standard values are in range too.

## Main definitions

* `KeywordSet.WellFormed`: Keywords that can match, and hop caps in range.
* `DigipeaterPlan.WellFormed`: The same for all that a plan holds.
* `Station.WellFormedDigipeater`: The same for a digipeater of a station, with
  its sources and the interface that it sends on.

## Theorems

* `Extends.canTransmit`, `Extends.statementInterface?`: Answers that a later
  station still gives.
* `digipeaterRule_of_extends`, `digipeaterStated_of_extends`: What is kept of a
  block.
* `ofBlock_of_extends`: A later station has the same plan built.
* `wellFormed_of_ofBlock`: What a plan that was built holds.
* `wellFormedDigipeater_install`: So does the digipeater that it becomes.
* `ofBlock_grow`: Plans in the future of their station.
-/

namespace AprsRelay

/-! ## A later station -/

section

variable {s t : Station} (h : t.Extends s)
include h

/-- An interface that may be sent on may be sent on later. -/
theorem Station.Extends.canTransmit {id : InterfaceId} (hid : s.canTransmit id = true) :
    t.canTransmit id = true := by
  rcases (Option.any_eq_true_iff_get _ _).1 hid with ⟨hsome, hcan⟩
  rcases h.exists_interface? (Option.some_get hsome).symm with ⟨j, hj, hunlinked, -⟩
  have hsame := ((Interface.unlinked_eq_iff j _).1 hunlinked).2.2
  rw [Station.canTransmit, hj, Option.any_some, hsame]
  exact hcan

/-- The interface that a statement names is found later under the same
    number, since the callsign of the station does not change either. -/
theorem Station.Extends.statementInterface? {stmt : Statement} {id : InterfaceId}
    (hid : stmt.interface? s = some id) : stmt.interface? t = some id := by
  rcases Option.bind_eq_some_iff.1 hid with ⟨arg, harg, hnamed⟩
  have hcall : t.callsignOf arg = s.callsignOf arg := by
    rw [Station.callsignOf, h.mycall, Station.callsignOf]
  rw [Statement.interface?, harg, Option.bind_some, Station.named?, hcall]
  exact h.findInterface? hnamed

theorem lastInterface?_of_extends {b : Block} {name : String} {id : InterfaceId}
    (hid : b.lastInterface? s name = some id) : b.lastInterface? t name = some id := by
  rcases Option.bind_eq_some_iff.1 hid with ⟨stmt, hstmt, hnamed⟩
  exact Option.bind_eq_some_iff.2 ⟨stmt, hstmt, h.statementInterface? hnamed⟩

theorem sourceRule_of_extends {b : Block} (hrule : SourceRule s b) : SourceRule t b where
  closed := hrule.closed
  named := hrule.named
  nodes := by
    intro node hnode
    cases node with
    | block heading body => exact hrule.nodes _ hnode
    | statement stmt =>
        rcases hrule.nodes _ hnode with ⟨hname, id, hid⟩ | hother
        · exact .inl ⟨hname, id, h.statementInterface? hid⟩
        · exact .inr hother

/-- A block that follows the rule goes on following it. -/
theorem digipeaterRule_of_extends {b : Block} (hrule : DigipeaterRule s b) :
    DigipeaterRule t b where
  closed := hrule.closed
  named := hrule.named
  sources := hrule.sources
  nodes := by
    intro node hnode
    cases node with
    | block heading body =>
        rcases hrule.nodes _ hnode with hkeywords | ⟨htag, hsource⟩
        · exact .inl hkeywords
        · exact .inr ⟨htag, sourceRule_of_extends h hsource⟩
    | statement stmt =>
        rcases hrule.nodes _ hnode with ⟨hname, id, hid, hcan⟩ | hother
        · exact .inl ⟨hname, id, h.statementInterface? hid, h.canTransmit hcan⟩
        · exact .inr hother

theorem sourceStated_of_extends {b : Block} {plan : SourcePlan} (hstated : SourceStated s b plan) :
    SourceStated t b plan :=
  { hstated with interface := lastInterface?_of_extends h hstated.interface }

/-- What a block states stays the same. -/
theorem digipeaterStated_of_extends {b : Block} {plan : DigipeaterPlan}
    (hstated : DigipeaterStated s b plan) : DigipeaterStated t b plan :=
  { hstated with
    transmitter := lastInterface?_of_extends h hstated.transmitter
    sources := hstated.sources.imp fun _ _ => sourceStated_of_extends h }

/-- A later station has the same plan built. -/
theorem ofBlock_of_extends {file : String} {b : Block} {plan : DigipeaterPlan}
    (hplan : DigipeaterPlan.ofBlock s file b = .ok plan) :
    DigipeaterPlan.ofBlock t file b = .ok plan := by
  have hrule := digipeaterRule_of_extends h ((exists_ofBlock_iff s file b).1 ⟨plan, hplan⟩)
  have hstated := digipeaterStated_of_extends h (digipeaterStated_of_ofBlock s file b plan hplan)
  exact ofBlock_of_stated t file b plan hrule hstated

end

/-! ## What a plan holds -/

/-- A set can match something, has no empty keyword, and has hop caps from one
    to seven. -/
structure KeywordSet.WellFormed (set : KeywordSet) : Prop where
  keys_ne_nil : set.keys ≠ []
  keys_sound : ∀ key ∈ set.keys, key ≠ ""
  maxRequested : 1 ≤ set.maxRequested ∧ set.maxRequested ≤ 7
  maxDone : 1 ≤ set.maxDone ∧ set.maxDone ≤ 7

/-- The limits of a planned digipeater are in range, it has a source, and all
    keyword sets are well formed. -/
structure DigipeaterPlan.WellFormed (plan : DigipeaterPlan) : Prop where
  rateLimit : 10 ≤ plan.rateLimit ∧ plan.rateLimit ≤ 300
  viscousDelay : plan.viscousDelay ≤ 9
  sources_ne_nil : plan.sources ≠ []
  sets : ∀ set, plan.trace = some set ∨ plan.wide = some set → set.WellFormed
  sourceSets : ∀ source ∈ plan.sources, ∀ set,
    source.trace = some set ∨ source.wide = some set → set.WellFormed

-- The last number of a keyword is in range if all of them are, and if the
-- number that takes its place is.
theorem lastInteger?_getD_bounds (b : Block) (name : String) (low high standard : Int)
    (hstandard : low ≤ standard ∧ standard ≤ high)
    (hall : ∀ s ∈ b.statements name, ∃ v, s.integer? = some v ∧ low ≤ v ∧ v ≤ high) :
    low ≤ (b.lastInteger? name).getD standard ∧ (b.lastInteger? name).getD standard ≤ high := by
  unfold Block.lastInteger?
  cases hlast : (b.statements name).getLast? with
  | none => exact hstandard
  | some s =>
      rcases hall s (List.mem_of_getLast? hlast) with ⟨v, hv, hrange⟩
      rw [Option.bind_some, hv]
      exact hrange

theorem wellFormed_standard (kind : KeywordKind) : (KeywordSet.standard kind).WellFormed := by
  cases kind <;> exact ⟨by decide, by decide, by decide, by decide⟩

/-- A keyword block that follows the rule states a well-formed set. -/
theorem wellFormed_statedSet (kind : KeywordKind) (b : Block) (h : KeywordRule b) :
    (b.statedSet kind).WellFormed := by
  have hcap : ∀ name, name = "maxreq" ∨ name = "maxdone" →
      1 ≤ (b.lastInteger? name).getD 4 ∧ (b.lastInteger? name).getD 4 ≤ 7 := by
    intro name hname
    refine lastInteger?_getD_bounds b name 1 7 4 (by decide) fun s hs => ?_
    rcases (mem_statements_iff b name s).1 hs with ⟨rfl, hnode⟩
    rcases h.nodes _ hnode with hkeys | ⟨-, hrange⟩
    · rcases hname with heq | heq <;> exact absurd (hkeys.symm.trans heq) (by decide)
    · exact hrange
  have hreq := hcap "maxreq" (.inl rfl)
  have hdone := hcap "maxdone" (.inr rfl)
  refine ⟨?_, ?_, ?_, ?_⟩
  · rcases h.listed with ⟨s, hs, harg⟩
    have hne := (keysOf_ne_nil_iff s.args).2 harg
    exact fun hnil => hne (List.flatMap_eq_nil_iff.1 hnil s hs)
  · intro key hkey
    rcases List.mem_flatMap.1 hkey with ⟨s, -, hmem⟩
    exact ne_empty_of_mem_keysOf s.args key hmem
  · simp only [Block.statedSet]
    omega
  · simp only [Block.statedSet]
    omega

-- The set of the last keyword block is well formed, since all of them follow
-- the rule.
theorem wellFormed_of_getLast?_map (b : Block) (kind : KeywordKind)
    (h : ∀ sub ∈ b.children kind.tag, KeywordRule sub) (set : KeywordSet)
    (hset : (b.children kind.tag).getLast?.map (Block.statedSet kind) = some set) :
    set.WellFormed := by
  rcases Option.map_eq_some_iff.1 hset with ⟨sub, hsub, rfl⟩
  exact wellFormed_statedSet kind sub (h sub (List.mem_of_getLast? hsub))

/-- A plan that was built is well formed, whatever the station. -/
theorem wellFormed_of_ofBlock (s : Station) (file : String) (b : Block) (plan : DigipeaterPlan)
    (h : DigipeaterPlan.ofBlock s file b = .ok plan) : plan.WellFormed := by
  have hrule := (exists_ofBlock_iff s file b).1 ⟨plan, h⟩
  have hstated := digipeaterStated_of_ofBlock s file b plan h
  have hsubs := keywordRule_of_digipeaterRule s b hrule
  refine ⟨?_, ?_, ?_, ?_, ?_⟩
  · have hlimit := hstated.rateLimit
    cases hkept : (b.lastInteger? "ratelimit").filter fun v => 10 ≤ v ∧ v ≤ 300 with
    | none =>
        rw [hkept, Option.getD_none] at hlimit
        omega
    | some v =>
        have hrange := of_decide_eq_true (Option.filter_eq_some_iff.1 hkept).2
        rw [hkept, Option.getD_some] at hlimit
        omega
  · have hdelay := (lastInteger?_getD_bounds b "viscous-delay" 0 9 0 (by decide) fun stmt hstmt => by
      rcases (mem_statements_iff b "viscous-delay" stmt).1 hstmt with ⟨hname, hnode⟩
      rcases hrule.nodes _ hnode with ⟨hother, -⟩ | ⟨hother, -⟩ | ⟨-, hrange⟩
      · exact absurd (hname.symm.trans hother) (by decide)
      · exact absurd (hname.symm.trans hother) (by decide)
      · exact hrange).2
    rw [← hstated.viscousDelay] at hdelay
    omega
  · intro hnil
    have hpairs := hstated.sources
    rw [hnil, List.forall₂_nil_right_iff] at hpairs
    exact hrule.sources hpairs
  · intro set hset
    rw [hstated.trace, hstated.wide] at hset
    rcases hset with hset | hset
    · exact wellFormed_of_getLast?_map b .trace (hsubs .trace) set hset
    · exact wellFormed_of_getLast?_map b .wide (hsubs .wide) set hset
  · intro source hsource set hset
    rcases exists_cleanSource_of_mem s file b plan h source hsource with ⟨sub, hclean⟩
    have hsub := sourceStated_of_cleanSource s sub source hclean
    have hkeywords := keywordRule_of_sourceRule s sub
      ((sourceFindings_eq_nil_iff s sub).1 hclean.1)
    rw [hsub.trace, hsub.wide] at hset
    rcases hset with hset | hset
    · exact wellFormed_of_getLast?_map sub .trace (hkeywords .trace) set hset
    · exact wellFormed_of_getLast?_map sub .wide (hkeywords .wide) set hset

namespace Station

/-! ## What becomes of a plan -/

/-- A digipeater of a station may send where it sends, its limits are in range,
    it has a source, and all keyword sets that apply are well formed. -/
structure WellFormedDigipeater (s : Station) (d : Digipeater) : Prop where
  transmitter : s.canTransmit d.transmitter = true
  rateLimit : 10 ≤ d.rateLimit ∧ d.rateLimit ≤ 300
  viscousDelay : d.viscousDelay ≤ 9
  sources_ne_nil : d.sources ≠ []
  trace : d.trace.WellFormed
  wide : d.wide.WellFormed
  sourceSets : ∀ id ∈ d.sources, ∃ source, s.source? id = some source ∧ ∀ set,
    source.trace = some set ∨ source.wide = some set → set.WellFormed

theorem wellFormed_getD_standard (set : Option KeywordSet) (kind : KeywordKind)
    (h : ∀ s, set = some s → s.WellFormed) : (set.getD (.standard kind)).WellFormed := by
  cases set with
  | none => exact wellFormed_standard kind
  | some set => exact h set rfl

/-- Carrying out a well-formed plan adds a digipeater that is well formed, if
    the plan sends where it may. -/
theorem wellFormedDigipeater_install (s : Station) (plan : DigipeaterPlan)
    (hplan : plan.WellFormed) (hcan : s.canTransmit plan.transmitter = true) :
    ∃ d, (s.install plan).digipeater? s.nextDigipeater = some d ∧
      (s.install plan).WellFormedDigipeater d := by
  refine ⟨_, List.getElem?_concat_length, ?_, hplan.rateLimit, hplan.viscousDelay, ?_, ?_, ?_, ?_⟩
  · rw [canTransmit_install]
    exact hcan
  · intro hnil
    have hlength := congrArg List.length hnil
    simp only [DigipeaterPlan.enlist, newSources, List.length_map, SourcePlan.enlistAll_length,
      List.length_nil] at hlength
    exact hplan.sources_ne_nil (List.eq_nil_of_length_eq_zero hlength)
  · exact wellFormed_getD_standard _ _ fun set hset => hplan.sets set (.inl hset)
  · exact wellFormed_getD_standard _ _ fun set hset => hplan.sets set (.inr hset)
  · intro id hid
    rcases List.mem_map.1 hid with ⟨source, hsource, rfl⟩
    refine ⟨source, source?_install_newSources plan source hsource, ?_⟩
    -- A new source has the sets of the plan that it comes from.
    rcases SourcePlan.exists_of_mem_enlistAll _ _ _ source hsource with ⟨planned, hmem, id, rfl⟩
    exact hplan.sourceSets planned hmem

/-- A plan that can be built against a station is carried out there each time
    it is handed in. -/
theorem grow_replicate_commit {s : Station} (h : s.Linked) {file : String} {b : Block}
    {plan : DigipeaterPlan} (hplan : DigipeaterPlan.ofBlock s file b = .ok plan) (n : Nat) :
    s.grow (List.replicate n (.commit plan)) = s.installAll (List.replicate n plan) := by
  induction n generalizing s with
  | zero => rfl
  | succ n ih =>
      have hstep : s.change (.commit plan) = s.install plan := by
        rw [change, h.commit?_of_ofBlock file b plan hplan]
        rfl
      have hkept : DigipeaterPlan.ofBlock (s.install plan) file b = .ok plan :=
        (ofBlock_congr (sameInterfaces_install s plan) file b).trans hplan
      have hrest := ih (h.install_of_ofBlock file b plan hplan) hkept
      rw [List.replicate_succ, List.replicate_succ, grow, List.foldl_cons, hstep]
      exact hrest

/-- A plan that was built against a station stays good whatever is asked of the
    station afterwards. The same block still has the same plan built, and the
    plan is carried out each time that it is handed in. Each digipeater that
    it becomes gets the next number and sends where it may. Its limits are in
    range, it has a source, and all keyword sets that apply are well formed. -/
theorem ofBlock_grow (mycall : String) (earlier later : List Change) (file : String) (b : Block)
    (plan : DigipeaterPlan)
    (hplan : DigipeaterPlan.ofBlock ((empty mycall).grow earlier) file b = .ok plan) :
    let t := ((empty mycall).grow earlier).grow later
    DigipeaterPlan.ofBlock t file b = .ok plan ∧
      ∀ n, let u := t.grow (List.replicate n (.commit plan))
        u.nextDigipeater = ⟨t.digipeaters.length + n⟩ ∧
          u.commit? plan = some (u.nextDigipeater, u.install plan) ∧
          ∃ d, (u.install plan).digipeater? u.nextDigipeater = some d ∧
            (u.install plan).WellFormedDigipeater d := by
  intro t
  have hlinked : t.Linked := linked_grow (linked_grow (linked_empty mycall) earlier) later
  have hlater : DigipeaterPlan.ofBlock t file b = .ok plan :=
    ofBlock_of_extends (extends_of_grows (grows_grow_any _ later)) hplan
  refine ⟨hlater, fun n => ?_⟩
  intro u
  -- Carrying the plan out is growth too, so it is still built afterwards.
  have hkept : DigipeaterPlan.ofBlock u file b = .ok plan :=
    ofBlock_of_extends (extends_of_grows (grows_grow_any t _)) hlater
  have hnumber : u.digipeaters.length = t.digipeaters.length + n := by
    rw [show u = _ from grow_replicate_commit hlinked hlater n, length_digipeaters_installAll,
      List.length_replicate]
  refine ⟨congrArg DigipeaterId.mk hnumber, ?_, ?_⟩
  · exact (linked_grow hlinked _).commit?_of_ofBlock file b plan hkept
  · exact wellFormedDigipeater_install u plan (wellFormed_of_ofBlock u file b plan hkept)
      (canTransmit_of_ofBlock u file b plan hkept)

/-- A plain digipeater is planned, and only then come another interface with
    the same callsign, on which nothing may be sent, and the same digipeater
    from elsewhere. The plan is carried out twice. -/
theorem ofBlock_grow_plain :
    let s := (empty "N0CALL").grow [.addInterface "N0CALL" true]
    let t := s.grow [.addInterface "n0call" false, .commit plainPlan]
    let u := t.grow [.commit plainPlan]
    DigipeaterPlan.ofBlock s "digi.conf" plainBlock = .ok plainPlan ∧
      DigipeaterPlan.ofBlock t "digi.conf" plainBlock = .ok plainPlan ∧
      u.commit? plainPlan = some (⟨2⟩, u.install plainPlan) ∧
      ∃ d, (u.install plainPlan).digipeater? ⟨2⟩ = some d ∧
        (u.install plainPlan).WellFormedDigipeater d := by
  intro s t u
  have hplan : DigipeaterPlan.ofBlock s "digi.conf" plainBlock = .ok plainPlan := by decide
  have hall := ofBlock_grow "N0CALL" [.addInterface "N0CALL" true]
    [.addInterface "n0call" false, .commit plainPlan] "digi.conf" plainBlock plainPlan hplan
  rcases hall.2 1 with ⟨hnumber, hcommit, hformed⟩
  rw [hnumber] at hcommit hformed
  exact ⟨hplan, hall.1, hcommit, hformed⟩

end Station

end AprsRelay
