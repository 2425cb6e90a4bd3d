import AprsRelay.Proofs.Via.Unspent
import AprsRelay.Via.Words

/-!
# The Table of Suffixes

What a field contributes is laid down by a table with one row for each way to
read the bytes behind the keyword. The rows of a table should not overlap, and
one of them should apply to every field: then the table is a function, and it
does not matter in which order it is read.

There is a second way to say the same. The rules for a field are also written
down as a list of numbered cases, tried one after the other, each of which
looks at three bytes at most and presumes that the cases before it did not
apply. Taken alone the later cases overlap with the earlier ones. What decides
is the order.

Reading a field agrees with both. `tableRow_iff` says that the table is the
function that reads fields, so exactly one row applies. `select_eq` says that
the first of the numbered cases that applies yields the same. A field that is
shorter than its keyword is said to be has nothing behind the keyword.

## Main definitions

* `TableRow`: The rows of the table, with what they add.
* `Probe`: The bytes that the numbered cases look at.
* `NumberedCase`, `numberedCases`: The list of cases in the order in which they
  are tried.
* `NumberedCase.select`: The first case that applies.

## Theorems

* `tableRow_iff`: A row applies to a field if the field is read so.
* `select_eq`: The first numbered case that applies.
* `count_eq_table`: A field adds to any counters what its only row says.
-/

namespace AprsRelay

/-- The number of marks that count: one if the mark of a relay stands anywhere
    in the field. -/
def markCount (field : Bytes) : Int :=
  if relayMark ∈ field then 1 else 0

/-- The rows of the table, with the case and what it adds. Where a row says
    that a suffix starts in a way, anything may follow unless another row is
    about it. -/
inductive TableRow (field : Bytes) (keyLength : Nat) : HopCase → Hops → Prop
  | noKeyword (hlength : keyLength = 0) :
      TableRow field keyLength .noKeyword ⟨0, 0, markCount field⟩
  | bare (hlength : keyLength ≠ 0) (ht : field.drop keyLength = []) :
      TableRow field keyLength .bare ⟨1, 0, 0⟩
  | executed (hlength : keyLength ≠ 0) (ht : field.drop keyLength = [relayMark]) :
      TableRow field keyLength .executed ⟨1, 1, 0⟩
  | exhausted (hlength : keyLength ≠ 0) (n : UInt8) (hn : IsHopDigit 1 n)
      (ht : field.drop keyLength = [n] ∨ field.drop keyLength = [n, relayMark]) :
      TableRow field keyLength (.exhausted (digitValue n)) ⟨digitValue n, digitValue n, 0⟩
  | remaining (hlength : keyLength ≠ 0) (n m : UInt8) (rest : Bytes) (hn : IsHopDigit 1 n)
      (hm : IsHopDigit 0 m) (ht : field.drop keyLength = n :: hopDash :: m :: rest) :
      TableRow field keyLength (.remaining (digitValue n) (digitValue m))
        ⟨digitValue n, digitValue n - digitValue m, 0⟩
  | badRemainder (hlength : keyLength ≠ 0) (n : UInt8) (rest : Bytes) (hn : IsHopDigit 1 n)
      (ht : field.drop keyLength = n :: hopDash :: rest)
      (hother : ¬ StartsCounted 0 (field.drop keyLength)) :
      TableRow field keyLength .badRemainder ⟨1, markCount field, 0⟩
  | noDash (hlength : keyLength ≠ 0) (n : UInt8) (rest : Bytes) (hn : IsHopDigit 1 n)
      (ht : field.drop keyLength = n :: rest)
      (hother : rest ≠ [] ∧ rest ≠ [relayMark] ∧ rest.head? ≠ some hopDash) :
      TableRow field keyLength .noDash ⟨1, markCount field, 0⟩
  | notDigit (hlength : keyLength ≠ 0)
      (ht : field.drop keyLength ≠ [] ∧ field.drop keyLength ≠ [relayMark])
      (hother : ∀ n ∈ (field.drop keyLength).head?, ¬ IsHopDigit 1 n) :
      TableRow field keyLength .notDigit ⟨1, markCount field, 0⟩

theorem natCast_isMarked (field : Bytes) : ((isMarked field).toNat : Int) = markCount field := by
  unfold isMarked markCount
  by_cases h : relayMark ∈ field <;> simp [h]

theorem not_isHopDigit_relayMark (low : Nat) : ¬ IsHopDigit low relayMark := by
  rintro ⟨hlow, -⟩
  have hmark : relayMark.toNat = 0x2A := rfl
  omega

theorem ne_relayMark_of_isHopDigit (low : Nat) (b : UInt8) (h : IsHopDigit low b) :
    b ≠ relayMark := by
  rintro rfl
  exact not_isHopDigit_relayMark low h

/-! ## The rows against the function -/

section

variable (field : Bytes) (keyLength : Nat)

-- With a keyword the suffix decides.
theorem ofField_of_ne_zero (hlength : keyLength ≠ 0) :
    HopCase.ofField field keyLength = HopCase.ofSuffix (field.drop keyLength) :=
  if_neg hlength

theorem ofSuffix_of_digit (n : UInt8) (rest : Bytes) (hn : IsHopDigit 1 n) :
    HopCase.ofSuffix (n :: rest) = HopCase.afterDigit (digitValue n) rest := by
  have hmark : ¬ (n = relayMark ∧ rest = []) := by
    rintro ⟨rfl, -⟩
    exact not_isHopDigit_relayMark 1 hn
  rw [HopCase.ofSuffix, if_neg hmark, hopDigit?_of_isHopDigit 1 n hn]

/-- A field is read as the row that applies to it says. -/
theorem eq_of_tableRow (case : HopCase) (added : Hops) (h : TableRow field keyLength case added) :
    case = HopCase.ofField field keyLength ∧ added = Hops.ofField field keyLength := by
  -- It is enough to know the case: what it adds is then looked up.
  have hcase : case = HopCase.ofField field keyLength := by
    cases h with
    | noKeyword hlength => exact (if_pos hlength).symm
    | bare hlength ht => rw [ofField_of_ne_zero _ _ hlength, ht]; rfl
    | executed hlength ht => rw [ofField_of_ne_zero _ _ hlength, ht]; rfl
    | exhausted hlength n hn ht =>
        rw [ofField_of_ne_zero _ _ hlength]
        rcases ht with ht | ht
        · rw [ht, ofSuffix_of_digit n _ hn]
          rfl
        · rw [ht, ofSuffix_of_digit n _ hn]
          rfl
    | remaining hlength n m rest hn hm ht =>
        rw [ofField_of_ne_zero _ _ hlength, ht, ofSuffix_of_digit n _ hn, HopCase.afterDigit,
          if_pos rfl, List.head?_cons, Option.bind_some, hopDigit?_of_isHopDigit 0 m hm]
    | badRemainder hlength n rest hn ht hother =>
        rw [ofField_of_ne_zero _ _ hlength, ht, ofSuffix_of_digit n _ hn, HopCase.afterDigit,
          if_pos rfl]
        cases rest with
        | nil => rfl
        | cons m rest =>
            have hm : ¬ IsHopDigit 0 m := fun hm => hother ⟨n, m, rest, ht, hn, hm⟩
            rw [List.head?_cons, Option.bind_some, hopDigit?_of_not_isHopDigit 0 m hm]
    | noDash hlength n rest hn ht hother =>
        rcases hother with ⟨hnil, hmark, hdash⟩
        rw [ofField_of_ne_zero _ _ hlength, ht, ofSuffix_of_digit n _ hn]
        cases rest with
        | nil => exact absurd rfl hnil
        | cons c rest =>
            have hc : c ≠ hopDash := fun hc => hdash (by rw [hc]; rfl)
            have hc' : ¬ (c = relayMark ∧ rest = []) := fun hc' => hmark (by rw [hc'.1, hc'.2])
            rw [HopCase.afterDigit, if_neg hc, if_neg hc']
    | notDigit hlength ht hother =>
        rw [ofField_of_ne_zero _ _ hlength]
        cases hdrop : field.drop keyLength with
        | nil => exact absurd hdrop ht.1
        | cons c rest =>
            have hc : ¬ IsHopDigit 1 c := hother c (by rw [hdrop]; rfl)
            have hc' : ¬ (c = relayMark ∧ rest = []) :=
              fun hc' => ht.2 (by rw [hdrop, hc'.1, hc'.2])
            rw [HopCase.ofSuffix, if_neg hc', hopDigit?_of_not_isHopDigit 1 c hc]
  refine ⟨hcase, ?_⟩
  rw [Hops.ofField, ← hcase]
  cases h <;> simp [HopCase.hops, natCast_isMarked]

-- The way a suffix is read is a row of the table.
theorem tableRow_of_suffixRow (hlength : keyLength ≠ 0) (case : HopCase)
    (h : SuffixRow (field.drop keyLength) case) :
    TableRow field keyLength case (case.hops (isMarked field)) := by
  generalize ht : field.drop keyLength = t at h
  cases h with
  | bare => exact .bare hlength ht
  | executed => exact .executed hlength ht
  | exhausted n hn => exact .exhausted hlength n hn (.inl ht)
  | exhaustedMarked n hn => exact .exhausted hlength n hn (.inr ht)
  | remaining n m rest hn hm => exact .remaining hlength n m rest hn hm ht
  | badRemainder n rest hn hrest =>
      rw [HopCase.hops, natCast_isMarked]
      refine .badRemainder hlength n rest hn ht ?_
      rintro ⟨n', m, rest', hcounted, -, hm⟩
      rw [ht] at hcounted
      simp only [List.cons.injEq, true_and] at hcounted
      exact hrest m (by simp [hcounted.2]) hm
  | noDash n c rest hn hdash hmark =>
      rw [HopCase.hops, natCast_isMarked]
      refine .noDash hlength n (c :: rest) hn ht ⟨by simp, ?_, by simpa using hdash⟩
      intro heq
      exact hmark (List.cons.inj heq)
  | notDigit c rest hc hmark =>
      rw [HopCase.hops, natCast_isMarked]
      refine .notDigit hlength ⟨by simp [ht], ?_⟩ (by simpa [ht] using hc)
      intro heq
      exact hmark (List.cons.inj (ht.symm.trans heq))

/-- The row that applies to a field is the way the field is read. -/
theorem tableRow_iff (case : HopCase) (added : Hops) :
    TableRow field keyLength case added ↔
      case = HopCase.ofField field keyLength ∧ added = Hops.ofField field keyLength := by
  constructor
  · exact eq_of_tableRow field keyLength case added
  · rintro ⟨rfl, rfl⟩
    by_cases hlength : keyLength = 0
    · rw [Hops.ofField, HopCase.ofField, if_pos hlength, HopCase.hops, natCast_isMarked]
      exact .noKeyword hlength
    · rw [Hops.ofField, ofField_of_ne_zero _ _ hlength]
      exact tableRow_of_suffixRow field keyLength hlength _ (suffixRow_ofSuffix _)

end

/-! ## The numbered cases -/

/-- What the numbered cases look at: the length of the keyword, the marks of the
    field, and the first three bytes behind the keyword. -/
structure Probe where
  keyLength : Nat
  marks : Int
  first : Option UInt8
  second : Option UInt8
  third : Option UInt8

namespace Probe

/-- The bytes of a field that are looked at. -/
def ofField (field : Bytes) (keyLength : Nat) : Probe where
  keyLength := keyLength
  marks := markCount field
  first := field[keyLength]?
  second := field[keyLength + 1]?
  third := field[keyLength + 2]?

/-- The number of hops asked for, if the first byte is a hop digit. -/
def requested (p : Probe) : Option Nat :=
  p.first.bind (hopDigit? 1)

/-- The number of hops left, if the third byte is a digit that can say so. -/
def left (p : Probe) : Option Nat :=
  p.third.bind (hopDigit? 0)

end Probe

/-- A numbered case: when it applies, how it reads a field, and what it adds. -/
structure NumberedCase where
  applies : Probe → Bool
  case : Probe → HopCase
  adds : Probe → Hops

/-- The cases in the order in which they are tried. -/
def numberedCases : List NumberedCase :=
  [ -- 1: no keyword begins the field.
    ⟨fun p => p.keyLength = 0, fun _ => .noKeyword, fun p => ⟨0, 0, p.marks⟩⟩,
    -- 2: a mark, and nothing follows it.
    ⟨fun p => p.first = some relayMark ∧ p.second = none, fun _ => .executed,
      fun _ => ⟨1, 1, 0⟩⟩,
    -- 3: nothing follows the keyword.
    ⟨fun p => p.first = none, fun _ => .bare, fun _ => ⟨1, 0, 0⟩⟩,
    -- 4: no hop digit follows.
    ⟨fun p => p.requested = none, fun _ => .notDigit, fun p => ⟨1, p.marks, 0⟩⟩,
    -- 5: a hop digit, and nothing or only a mark behind it.
    ⟨fun p => p.requested.isSome ∧
        (p.second = none ∨ p.second = some relayMark ∧ p.third = none),
      fun p => .exhausted (p.requested.getD 0),
      fun p => ⟨p.requested.getD 0, p.requested.getD 0, 0⟩⟩,
    -- 6: a hop digit, and no dash behind it.
    ⟨fun p => p.requested.isSome ∧ p.second ≠ some hopDash, fun _ => .noDash,
      fun p => ⟨1, p.marks, 0⟩⟩,
    -- 7: a hop digit, a dash, and the number of hops left.
    ⟨fun p => p.requested.isSome ∧ p.second = some hopDash ∧ p.left.isSome,
      fun p => .remaining (p.requested.getD 0) (p.left.getD 0),
      fun p => ⟨p.requested.getD 0, p.requested.getD 0 - p.left.getD 0, 0⟩⟩,
    -- 8: a hop digit, a dash, and no such number.
    ⟨fun p => p.requested.isSome ∧ p.second = some hopDash ∧ p.left = none,
      fun _ => .badRemainder, fun p => ⟨1, p.marks, 0⟩⟩ ]

/-- How the first case that applies reads a field, and what it adds. -/
def NumberedCase.select (p : Probe) : Option (HopCase × Hops) :=
  (numberedCases.find? fun k => k.applies p).map fun k => (k.case p, k.adds p)

-- The bytes that are looked at are the first three of the suffix.
theorem probe_eq (field : Bytes) (keyLength : Nat) :
    Probe.ofField field keyLength =
      ⟨keyLength, markCount field, (field.drop keyLength)[0]?, (field.drop keyLength)[1]?,
        (field.drop keyLength)[2]?⟩ := by
  simp only [Probe.ofField, List.getElem?_drop, Nat.add_zero]

theorem select_of_suffixRow (keyLength : Nat) (marked : Bool) (t : Bytes) (case : HopCase)
    (hlength : keyLength ≠ 0) (h : SuffixRow t case) :
    NumberedCase.select ⟨keyLength, marked.toNat, t[0]?, t[1]?, t[2]?⟩ =
      some (case, case.hops marked) := by
  unfold NumberedCase.select numberedCases
  cases h with
  | bare => simp [hlength, HopCase.hops]
  | executed => simp [hlength, HopCase.hops]
  | exhausted n hn =>
      have hmark := ne_relayMark_of_isHopDigit 1 n hn
      simp [hlength, hmark, Probe.requested, hopDigit?_of_isHopDigit 1 n hn, HopCase.hops]
  | exhaustedMarked n hn =>
      simp [hlength, Probe.requested, hopDigit?_of_isHopDigit 1 n hn, HopCase.hops]
  | remaining n m rest hn hm =>
      simp [hlength, Probe.requested, Probe.left, hopDigit?_of_isHopDigit 1 n hn,
        hopDigit?_of_isHopDigit 0 m hm, HopCase.hops]
  | badRemainder n rest hn hrest =>
      have hdash : hopDash ≠ relayMark := by decide
      cases rest with
      | nil =>
          simp [hlength, Probe.requested, Probe.left, hopDigit?_of_isHopDigit 1 n hn, hdash,
            HopCase.hops]
      | cons m rest =>
          simp [hlength, Probe.requested, Probe.left, hopDigit?_of_isHopDigit 1 n hn,
            hopDigit?_of_not_isHopDigit 0 m (hrest m rfl), HopCase.hops]
  | noDash n c rest hn hdash hmark =>
      simp [hlength, Probe.requested, hopDigit?_of_isHopDigit 1 n hn, hdash, hmark,
        HopCase.hops]
  | notDigit c rest hc hmark =>
      simp [hlength, Probe.requested, hopDigit?_of_not_isHopDigit 1 c hc, hmark, HopCase.hops]

/-- The first numbered case that applies reads a field as it is read, and adds
    what the field adds. -/
theorem select_eq (field : Bytes) (keyLength : Nat) :
    NumberedCase.select (.ofField field keyLength) =
      some (HopCase.ofField field keyLength, Hops.ofField field keyLength) := by
  rw [probe_eq, Hops.ofField, ← natCast_isMarked]
  by_cases hlength : keyLength = 0
  · simp [NumberedCase.select, numberedCases, HopCase.ofField, hlength, HopCase.hops]
  · rw [ofField_of_ne_zero _ _ hlength]
    exact select_of_suffixRow keyLength _ _ _ hlength (suffixRow_ofSuffix _)

/-- A field is read as the only row of the table says that applies to it, and
    the first numbered case that applies is the same. To exact counters of any
    value it adds what the row says. To words of any value it adds the same,
    and each of the three sums wraps around on its own, so the words are exact
    where the sums fit. Where sums are checked, counting stops exactly if one
    of them does not fit, and else the words are the same. -/
theorem count_eq_table (field : Bytes) (keyLength : Nat) :
    ∃ case added, TableRow field keyLength case added ∧
      (∀ case' added', TableRow field keyLength case' added' → case' = case ∧ added' = added) ∧
      NumberedCase.select (.ofField field keyLength) = some (case, added) ∧
      (∀ h : Hops, h.count field keyLength = (h + added, case)) ∧
      ∀ w : HopWords,
        (∃ sum, w.countField field keyLength = (sum, case) ∧
          sum.value = (w.value + added).wrapped ∧
          ((w.value + added).Fits → sum.value = w.value + added)) ∧
        ((w.value + added).Fits →
          w.countFieldChecked? field keyLength = some (w.countField field keyLength)) ∧
        (¬ (w.value + added).Fits → w.countFieldChecked? field keyLength = none) := by
  refine ⟨HopCase.ofField field keyLength, Hops.ofField field keyLength,
    (tableRow_iff field keyLength _ _).2 ⟨rfl, rfl⟩,
    fun case' added' => (tableRow_iff field keyLength case' added').1,
    select_eq field keyLength, fun h => rfl, fun w => ⟨⟨_, rfl, ?_, ?_⟩, fun hfits => ?_,
      fun hfits => ?_⟩⟩
  · exact w.value_add_eq_wrapped _
  · exact w.value_add_of_fits _
  · rw [HopWords.countFieldChecked?, HopWords.addChecked?_eq, if_pos hfits]
    rfl
  · rw [HopWords.countFieldChecked?, HopWords.addChecked?_eq, if_neg hfits]
    rfl

-- The largest word wraps around when one more hop is asked for.
example : (⟨2147483647, 0, 0⟩ : HopWords).countField (Text.utf8 "WIDE".toList) 4 =
    (⟨-2147483648, 0, 0⟩, .bare) := by decide +kernel

end AprsRelay
