import AprsRelay.Proofs.Plan.Walk
import AprsRelay.Proofs.Station.Acceptance
import AprsRelay.Proofs.Text.Numerals

/-!
# Numbers at the End of a Block

A digipeater block may set a rate limit and a viscous delay, and whatever number
is written there, it is known what should become of the block. A rate limit out
of range is replaced without a word. A viscous delay out of range is the one
fault that the block is refused for.

To see this, a node is put at the end of a block without fault. Everything in
front of it is as before, so the findings of the longer block are those of the
node (`digipeaterFindings_extended`), and its plan is the one that there was,
changed by what the node states (`digipeaterPlan?_extended`). This holds for
every node. `ofBlock_extended` puts the two together, and a number is then only
a matter of reading one statement.

There the rules for ranges do not come first. An argument has to be a number of
64 bits before its range is looked at, and a longer one is refused as if it were
a word, for a rate limit as well. `takes_iff_fits` says that the numerals that
fit into 64 bits are treated as they should be, and no others.

## Main definitions

* `Block.extended`: A block with one more node at its end.
* `DigipeaterPlan.add`: A plan that is changed by one more item.
* `Text.Numeral.Fits`: Numerals of 64 bits.
* `TakesRateLimit`, `TakesViscousDelay`: What should become of a block.

## Theorems

* `ofBlock_extended`: What becomes of a block with one more node.
* `takesRateLimit_of_fits`, `takesViscousDelay_of_fits`: Numbers of 64 bits.
* `ofBlock_extended_of_not_fits`: Numbers beyond.
* `takes_iff_fits`: The numerals that are treated as they should be.
-/

namespace AprsRelay

/-! ## One node more -/

/-- A block with one more node at the end of its body. -/
def Block.extended (b : Block) (node : Node) : Block :=
  { b with body := b.body ++ [node] }

/-- A plan with one more item. A source is added to the others, and any other
    item takes the place of what was stated before. -/
def DigipeaterPlan.add (plan : DigipeaterPlan) : DigipeaterItem → DigipeaterPlan
  | .transmitter id => { plan with transmitter := id }
  | .rateLimit limit => { plan with rateLimit := limit }
  | .viscousDelay delay => { plan with viscousDelay := delay }
  | .source source => { plan with sources := plan.sources ++ [source] }
  | .keywords set =>
    match set.kind with
    | .trace => { plan with trace := some set }
    | .wide => { plan with wide := some set }

-- Fields that name a transmitter make a plan, and go on to do so.
theorem DigipeaterFields.plan_add (d : DigipeaterFields) (plan : DigipeaterPlan)
    (item : DigipeaterItem) (h : d.transmitter.map d.plan = some plan) :
    (d.add item).transmitter.map (d.add item).plan = some (plan.add item) := by
  rcases Option.map_eq_some_iff.1 h with ⟨id, hid, rfl⟩
  cases item with
  | keywords set =>
      simp only [add, withKeywords, DigipeaterPlan.add]
      cases set.kind <;> simp [hid, DigipeaterFields.plan]
  | transmitter id => rfl
  | _ => simp [add, hid, DigipeaterFields.plan, DigipeaterPlan.add]

theorem DigipeaterFields.plan_foldl_add (items : List DigipeaterItem) (d : DigipeaterFields)
    (plan : DigipeaterPlan) (h : d.transmitter.map d.plan = some plan) :
    (items.foldl add d).transmitter.map (items.foldl add d).plan =
      some (items.foldl DigipeaterPlan.add plan) := by
  induction items generalizing d plan with
  | nil => exact h
  | cons item items ih => exact ih (d.add item) (plan.add item) (d.plan_add plan item h)

section

variable (station : Station) (file : String) (b : Block) (node : Node)

/-- The plan of a block is changed by what one more node states. -/
theorem digipeaterPlan?_extended (plan : DigipeaterPlan)
    (h : digipeaterPlan? station b = some plan) :
    digipeaterPlan? station (b.extended node) =
      some ((readDigipeaterNode station node).items.foldl DigipeaterPlan.add plan) := by
  rw [digipeaterPlan?_eq station b _ rfl] at h
  rw [digipeaterPlan?_eq station (b.extended node) _ rfl]
  have hitems : (digipeaterBody station (b.extended node)).items =
      (digipeaterBody station b).items ++ (readDigipeaterNode station node).items :=
    items_ofBody_concat _ _ _
  rw [hitems, List.foldl_append]
  exact DigipeaterFields.plan_foldl_add _ _ plan h

/-- Behind a block without findings, those of one more node are all that is
    found. -/
theorem digipeaterFindings_extended (h : digipeaterFindings station b = []) :
    digipeaterFindings station (b.extended node) = (readDigipeaterNode station node).findings := by
  simp only [digipeaterFindings, List.append_eq_nil_iff, ite_any_eq_nil_iff] at h
  rcases h with ⟨⟨⟨hclosed, hbody⟩, hnamed⟩, hsources⟩
  have hfindings : (digipeaterBody station (b.extended node)).findings =
      (digipeaterBody station b).findings ++ (readDigipeaterNode station node).findings :=
    findings_ofBody_concat _ _ _
  -- What has to be in the block is there already.
  have hthere : ∀ {α : Type} (pick? : Node → Option α), b.body.filterMap pick? ≠ [] →
      ((b.extended node).body.any fun node => (pick? node).isSome) = true := by
    intro α pick? hpick
    have hany := (any_isSome_iff b.body pick?).2 hpick
    rw [Block.extended, List.any_append, hany, Bool.true_or]
  have hunclosed : (b.extended node).unclosedFindings = [] := hclosed
  rw [digipeaterFindings, hunclosed, hfindings, hbody, if_pos (hthere _ hnamed),
    if_pos (hthere _ hsources)]
  simp only [List.nil_append, List.append_nil]

/-- A block that has a plan is refused for what is found at one more node, and
    if nothing is, its plan is changed by what the node states. -/
theorem ofBlock_extended (plan : DigipeaterPlan)
    (h : DigipeaterPlan.ofBlock station file b = .ok plan) :
    DigipeaterPlan.ofBlock station file (b.extended node) =
      if (readDigipeaterNode station node).findings = [] then
        .ok ((readDigipeaterNode station node).items.foldl DigipeaterPlan.add plan)
      else .error (.ofFindings file b.line (readDigipeaterNode station node).findings) := by
  rcases (ofBlock_eq_ok_iff station file b plan).1 h with ⟨hnone, hplan⟩
  have hfindings := digipeaterFindings_extended station b node hnone
  split
  · rename_i hclean
    rw [ofBlock_eq_ok_iff, hfindings]
    exact ⟨hclean, digipeaterPlan?_extended station b node plan hplan⟩
  · rename_i hdirty
    rw [ofBlock_eq_error, hfindings]
    · rfl
    · rwa [hfindings]

end

/-! ## Numbers -/

/-- The value of a numeral fits into 64 bits with a sign. -/
def Text.Numeral.Fits (n : Text.Numeral) : Prop :=
  -2 ^ 63 ≤ n.value ∧ n.value < 2 ^ 63

instance (n : Text.Numeral) : Decidable n.Fits :=
  inferInstanceAs (Decidable (_ ∧ _))

-- A numeral that does not fit is a finding, just like a word.
theorem readInteger_numeral {ι : Type} (line : Nat) (name : String) (n : Text.Numeral)
    (use : Int → Readout ι) :
    readInteger ⟨line, name, [n.text]⟩ use =
      if n.Fits then use n.value else .finding line (.badValue name n.text) := by
  have hread : Text.integer? n.text = if n.Fits then some n.value else none := Text.integer?_text n
  simp only [readInteger, Statement.argument?, List.head?_cons, hread]
  by_cases hfits : n.Fits
  · simp only [if_pos hfits]
  · simp only [if_neg hfits]

section

variable (station : Station) (line : Nat) (n : Text.Numeral)

theorem readDigipeaterNode_rateLimit :
    readDigipeaterNode station (.statement ⟨line, "ratelimit", [n.text]⟩) =
      if n.Fits then .item (.rateLimit (rateLimit n.value))
      else .finding line (.badValue "ratelimit" n.text) := by
  simp only [readDigipeaterNode]
  exact readInteger_numeral line "ratelimit" n _

theorem readDigipeaterNode_viscousDelay :
    readDigipeaterNode station (.statement ⟨line, "viscous-delay", [n.text]⟩) =
      if n.Fits then
        if isViscousDelay n.value then .item (.viscousDelay (viscousDelay n.value))
        else .finding line (.badViscousDelay n.value)
      else .finding line (.badValue "viscous-delay" n.text) := by
  simp only [readDigipeaterNode]
  exact readInteger_numeral line "viscous-delay" n _

end

section

variable (station : Station) (file : String) (b : Block) (plan : DigipeaterPlan) (line : Nat)
  (n : Text.Numeral)

/-- With the given rate limit at its end, a block is taken. The rate limit is
    the number if this is from 10 to 300, and 300 if not. -/
def TakesRateLimit : Prop :=
  DigipeaterPlan.ofBlock station file (b.extended (.statement ⟨line, "ratelimit", [n.text]⟩)) =
    .ok { plan with rateLimit := if 10 ≤ n.value ∧ n.value ≤ 300 then n.value.toNat else 300 }

/-- With the given viscous delay at its end, a block is taken if the number is
    from 0 to 9. If not, it is refused, and that the delay is a bad one is all
    that is found. -/
def TakesViscousDelay : Prop :=
  DigipeaterPlan.ofBlock station file
      (b.extended (.statement ⟨line, "viscous-delay", [n.text]⟩)) =
    if 0 ≤ n.value ∧ n.value ≤ 9 then .ok { plan with viscousDelay := n.value.toNat }
    else .error ⟨file, b.line, [⟨⟨line, .badViscousDelay n.value⟩, file⟩]⟩

variable (h : DigipeaterPlan.ofBlock station file b = .ok plan)
include h

theorem takesRateLimit_of_fits (hfits : n.Fits) :
    TakesRateLimit station file b plan line n := by
  rw [TakesRateLimit, ofBlock_extended station file b _ plan h, readDigipeaterNode_rateLimit,
    if_pos hfits]
  rfl

theorem takesViscousDelay_of_fits (hfits : n.Fits) :
    TakesViscousDelay station file b plan line n := by
  rw [TakesViscousDelay, ofBlock_extended station file b _ plan h,
    readDigipeaterNode_viscousDelay, if_pos hfits]
  by_cases hrange : 0 ≤ n.value ∧ n.value ≤ 9
  · have his : isViscousDelay n.value = true := by simpa [isViscousDelay] using hrange
    have hdelay : viscousDelay n.value = n.value.toNat := by
      have heq := (viscousDelay_eq_iff n.value).2 his
      omega
    rw [if_pos his, if_pos hrange, hdelay]
    rfl
  · have hnot : ¬ isViscousDelay n.value = true := by simpa [isViscousDelay] using hrange
    rw [if_neg hnot, if_neg hrange]
    rfl

/-- A number beyond 64 bits is refused as a bad value, whichever of the two it
    is for. -/
theorem ofBlock_extended_of_not_fits (hfits : ¬ n.Fits) (keyword : String)
    (hkeyword : keyword ∈ ["ratelimit", "viscous-delay"]) :
    DigipeaterPlan.ofBlock station file (b.extended (.statement ⟨line, keyword, [n.text]⟩)) =
      .error ⟨file, b.line, [⟨⟨line, .badValue keyword n.text⟩, file⟩]⟩ := by
  rw [ofBlock_extended station file b _ plan h]
  simp only [List.mem_cons, List.not_mem_nil, or_false] at hkeyword
  rcases hkeyword with rfl | rfl
  · rw [readDigipeaterNode_rateLimit, if_neg hfits]
    rfl
  · rw [readDigipeaterNode_viscousDelay, if_neg hfits]
    rfl

theorem not_takesRateLimit (hfits : ¬ n.Fits) : ¬ TakesRateLimit station file b plan line n := by
  rw [TakesRateLimit, ofBlock_extended_of_not_fits station file b plan line n h hfits _ (by simp)]
  exact nofun

theorem not_takesViscousDelay (hfits : ¬ n.Fits) :
    ¬ TakesViscousDelay station file b plan line n := by
  rw [TakesViscousDelay,
    ofBlock_extended_of_not_fits station file b plan line n h hfits _ (by simp)]
  split <;> simp

/-- Of all numerals, those whose values fit into 64 bits are treated as the
    rules for ranges say, for both kinds of statement, and no others. Any other
    numeral is a bad value: the block is refused for it and for nothing else,
    even where it was to be a rate limit. -/
theorem takes_iff_fits :
    (TakesRateLimit station file b plan line n ↔ n.Fits) ∧
      (TakesViscousDelay station file b plan line n ↔ n.Fits) ∧
      (¬ n.Fits → ∀ keyword ∈ ["ratelimit", "viscous-delay"],
        DigipeaterPlan.ofBlock station file (b.extended (.statement ⟨line, keyword, [n.text]⟩)) =
          .error ⟨file, b.line, [⟨⟨line, .badValue keyword n.text⟩, file⟩]⟩) := by
  refine ⟨⟨fun htakes => ?_, takesRateLimit_of_fits station file b plan line n h⟩,
    ⟨fun htakes => ?_, takesViscousDelay_of_fits station file b plan line n h⟩,
    ofBlock_extended_of_not_fits station file b plan line n h⟩
  · by_contra hfits
    exact not_takesRateLimit station file b plan line n h hfits htakes
  · by_contra hfits
    exact not_takesViscousDelay station file b plan line n h hfits htakes

end

/-- Nine, with a plus sign and a long row of zeros in front. -/
def longNine : Text.Numeral where
  sign := some .plus
  digits := [0, 0, 0, 0, 0, 0, 0, 0, 0, 0, 0, 0, 0, 0, 0, 0, 0, 0, 0, 0, 0, 0, 0, 0, 0, 9]

/-- The first number above those of 64 bits. -/
def firstBeyond : Text.Numeral where
  sign := none
  digits := [9, 2, 2, 3, 3, 7, 2, 0, 3, 6, 8, 5, 4, 7, 7, 5, 8, 0, 8]

namespace Station

/-- Nine is a viscous delay and too small for a rate limit, however long it is
    written. -/
theorem takes_iff_fits_longNine :
    let s := (empty "N0CALL").addInterface "N0CALL" true
    DigipeaterPlan.ofBlock s "digi.conf" plainBlock = .ok plainPlan ∧
      TakesRateLimit s "digi.conf" plainBlock plainPlan 6 longNine ∧
      TakesViscousDelay s "digi.conf" plainBlock plainPlan 6 longNine := by
  intro s
  have hplan : DigipeaterPlan.ofBlock s "digi.conf" plainBlock = .ok plainPlan := by decide
  have htakes := takes_iff_fits s "digi.conf" plainBlock plainPlan 6 longNine hplan
  exact ⟨hplan, htakes.1.2 (by decide), htakes.2.1.2 (by decide)⟩

/-- The first number that is too large is taken neither for a rate limit nor for
    a viscous delay, although the block in front of it is clean. -/
theorem not_takes_firstBeyond :
    let s := (empty "N0CALL").addInterface "N0CALL" true
    firstBeyond.text = "9223372036854775808" ∧
      DigipeaterPlan.ofBlock s "digi.conf" plainBlock = .ok plainPlan ∧
      ¬ TakesRateLimit s "digi.conf" plainBlock plainPlan 6 firstBeyond ∧
      ¬ TakesViscousDelay s "digi.conf" plainBlock plainPlan 6 firstBeyond := by
  intro s
  have hplan : DigipeaterPlan.ofBlock s "digi.conf" plainBlock = .ok plainPlan := by decide
  have hfits : ¬ firstBeyond.Fits := by decide
  exact ⟨by decide, hplan, not_takesRateLimit s "digi.conf" plainBlock plainPlan 6 _ hplan hfits,
    not_takesViscousDelay s "digi.conf" plainBlock plainPlan 6 _ hplan hfits⟩

end Station

end AprsRelay
