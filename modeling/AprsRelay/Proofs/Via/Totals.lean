import AprsRelay.Plan.Limits
import AprsRelay.Proofs.Via.Unspent
import AprsRelay.Via.Words
import Mathlib.Algebra.BigOperators.Group.List.Basic

/-!
# Totals of a Path

The counters of a path are sums, and each field adds to them on its own. So
the order of the fields does not matter as long as the same fields count, and
fields that come later take nothing away: a path that has a hop left keeps it
when the path goes on.

A field asks for seven hops at most, and never shows more as done than it asks
for, while a field such as `WIDE1-7` may push the count of done hops six below
zero. `Bounded` collects what follows for a number of fields. One field is
bounded whatever the keyword sets are (`bounded_fieldHops`), bounds add up
(`bounded_add`), and so a path is bounded by the number of its fields
(`bounded_totalHops`).

Counters are exact here, and in words of 32 bits they need not be. But with seven
hops for each field the largest word is not reached before field 306783379, and
up to there the words hold the exact sums at every step (`value_count`).

## Main definitions

* `totalHops`: The sum of what fields contribute.
* `isKeyed`: Whether a keyword begins a field.
* `Hops.Bounded`: The bounds for a number of fields.
* `HopWords.maxFields`: The number of fields up to which words are exact.

## Theorems

* `hops_accountIn`: The counters of a path are the sum over its fields.
* `bounded_fieldHops`, `bounded_add`, `bounded_totalHops`: Bounds for one field,
  for sums, and for any number of fields.
* `fits_of_bounded`, `value_count`: Words hold the exact sums.
* `accepted_of_subset`, `fields_prefix_append`: Further fields keep a hop that
  is left.
* `accountPath_totals`: All of this for a source of a digipeater.
-/

namespace AprsRelay

/-- Counters are added in any order. -/
instance : AddCommMonoid Hops where
  add_assoc := Hops.add_assoc
  zero_add := Hops.zero_add
  add_zero := Hops.add_zero
  add_comm := Hops.add_comm
  nsmul := nsmulRec

/-! ## Sums -/

/-- What the given fields contribute together. -/
def totalHops (sets : KeywordScopes) (fields : List String) : Hops :=
  (fields.map (fieldHops sets)).sum

@[simp]
theorem totalHops_nil (sets : KeywordScopes) : totalHops sets [] = 0 := rfl

@[simp]
theorem totalHops_cons (sets : KeywordScopes) (field : String) (fields : List String) :
    totalHops sets (field :: fields) = fieldHops sets field + totalHops sets fields := by
  rw [totalHops, List.map_cons, List.sum_cons, totalHops]

/-- The same fields in another order contribute the same. -/
theorem totalHops_perm (sets : KeywordScopes) (fields fields' : List String)
    (h : fields.Perm fields') : totalHops sets fields = totalHops sets fields' :=
  (h.map _).sum_eq

-- What is added up from the left is a sum.
theorem foldl_fieldHops (sets : KeywordScopes) (fields : List String) (h : Hops) :
    fields.foldl (fun h field => h + fieldHops sets field) h = h + totalHops sets fields := by
  induction fields generalizing h with
  | nil => rw [List.foldl_nil, totalHops_nil, Hops.add_zero]
  | cons field fields ih => rw [List.foldl_cons, ih, totalHops_cons, Hops.add_assoc]

/-- The counters of a path are the sum of what its fields contribute. -/
theorem hops_accountIn (sets : KeywordScopes) (segment : String) :
    (accountIn sets segment).hops = totalHops sets (ViaPath.ofSegment segment).fields := by
  rw [accountIn, foldl_fieldHops, Hops.zero_add]

/-! ## Bounds -/

/-- Whether a keyword begins a field. -/
def isKeyed (sets : KeywordScopes) (field : String) : Bool :=
  keyLength sets field ≠ 0

/-- What counters can be after a number of fields of which some have a keyword. -/
structure Hops.Bounded (fields keyed : Nat) (h : Hops) : Prop where
  zero_le_requested : 0 ≤ h.requested
  requested_le : h.requested ≤ 7 * fields
  le_completed : -(6 * fields) ≤ h.completed
  completed_le_requested : h.completed ≤ h.requested
  zero_le_traces : 0 ≤ h.traces
  traces_le : h.traces ≤ fields
  keyed_le_requested : keyed ≤ h.requested

theorem bounded_zero : (0 : Hops).Bounded 0 0 := by
  constructor <;> simp

theorem bounded_add {a b k l : Nat} {g h : Hops} (hg : g.Bounded a k) (hh : h.Bounded b l) :
    (g + h).Bounded (a + b) (k + l) := by
  rcases hg with ⟨hg0, hg7, hg6, hgle, hgt0, hgt, hgk⟩
  rcases hh with ⟨hh0, hh7, hh6, hhle, hht0, hht, hhk⟩
  constructor <;>
    simp only [Hops.requested_add, Hops.completed_add, Hops.traces_add] <;> omega

-- A digit that counts hops stands for a number from one to seven.
theorem digitValue_bounds (low : Nat) (b : UInt8) (h : IsHopDigit low b) :
    low ≤ digitValue b ∧ digitValue b ≤ 7 := by
  rcases h with ⟨hlow, hhigh⟩
  unfold digitValue
  omega

-- Behind a keyword every suffix asks for one hop at least.
theorem bounded_of_suffixRow (marked : Bool) (t : Bytes) (case : HopCase) (h : SuffixRow t case) :
    (case.hops marked).Bounded 1 1 := by
  have hmarked : marked.toNat ≤ 1 := Bool.toNat_le marked
  cases h with
  | bare => constructor <;> simp [HopCase.hops]
  | executed => constructor <;> simp [HopCase.hops]
  | exhausted n hn =>
      have hrange := digitValue_bounds 1 n hn
      constructor <;> simp only [HopCase.hops] <;> omega
  | exhaustedMarked n hn =>
      have hrange := digitValue_bounds 1 n hn
      constructor <;> simp only [HopCase.hops] <;> omega
  | remaining n m rest hn hm =>
      -- At worst all seven hops are left where one was asked for.
      have hrange := digitValue_bounds 1 n hn
      have hleft := digitValue_bounds 0 m hm
      constructor <;> simp only [HopCase.hops] <;> omega
  | badRemainder n rest hn hrest => constructor <;> simp only [HopCase.hops] <;> omega
  | noDash n c rest hn hdash hmark => constructor <;> simp only [HopCase.hops] <;> omega
  | notDigit c rest hc hmark => constructor <;> simp only [HopCase.hops] <;> omega

/-- A single field is bounded, whatever the keywords are. -/
theorem bounded_fieldHops (sets : KeywordScopes) (field : String) :
    (fieldHops sets field).Bounded 1 (isKeyed sets field).toNat := by
  unfold fieldHops Hops.ofField HopCase.ofField isKeyed
  by_cases hlength : keyLength sets field = 0
  · have hmarked : (isMarked (Text.utf8 field.toList)).toNat ≤ 1 := Bool.toNat_le _
    rw [if_pos hlength]
    constructor <;> simp [hlength, HopCase.hops]
    omega
  · rw [if_neg hlength]
    simpa [hlength] using bounded_of_suffixRow _ _ _ (suffixRow_ofSuffix _)

/-- A sum over fields is bounded by the number of the fields. -/
theorem bounded_totalHops (sets : KeywordScopes) (fields : List String) :
    (totalHops sets fields).Bounded fields.length (fields.countP (isKeyed sets)) := by
  induction fields with
  | nil => exact bounded_zero
  | cons field fields ih =>
      rw [totalHops_cons, List.length_cons, List.countP_cons, Nat.add_comm,
        Nat.add_comm (fields.countP _)]
      have hfield := bounded_fieldHops sets field
      cases hkeyed : isKeyed sets field with
      | true =>
          rw [hkeyed] at hfield
          exact bounded_add hfield ih
      | false =>
          rw [hkeyed] at hfield
          exact bounded_add hfield ih

/-! ## Words -/

namespace HopWords

/-- The number of fields up to which no word can wrap around. -/
def maxFields : Nat := 306783378

/-- What is bounded by few enough fields fits. -/
theorem fits_of_bounded (h : Hops) (n k : Nat) (hn : n ≤ maxFields) (hbounded : h.Bounded n k) :
    h.Fits := by
  rcases hbounded with ⟨h0, h7, h6, hle, ht0, ht, -⟩
  unfold maxFields at hn
  exact ⟨⟨by omega, by omega⟩, ⟨by omega, by omega⟩, ⟨by omega, by omega⟩⟩

-- Counting goes on from words that hold what is bounded by the fields so far.
theorem value_foldl_countKeyed (sets : KeywordScopes) (fields : List String) (w : HopWords)
    (n k : Nat) (hw : w.value.Bounded n k) (hn : n + fields.length ≤ maxFields) :
    (fields.foldl (countKeyed sets) w).value = w.value + totalHops sets fields := by
  induction fields generalizing w n k with
  | nil => rw [List.foldl_nil, totalHops_nil, Hops.add_zero]
  | cons field fields ih =>
      rw [List.length_cons] at hn
      have hsum := bounded_add hw (bounded_fieldHops sets field)
      have hvalue := value_add_of_fits w _ (fits_of_bounded _ _ _ (by omega) hsum)
      rw [← hvalue] at hsum
      rw [List.foldl_cons, countKeyed_eq, ih _ _ _ hsum (by omega), hvalue, totalHops_cons,
        Hops.add_assoc]

/-- Up to the largest number of fields the words hold the exact sums. -/
theorem value_count (sets : KeywordScopes) (fields : List String)
    (hlength : fields.length ≤ maxFields) :
    (count sets fields).value = totalHops sets fields := by
  have hvalue := value_foldl_countKeyed sets fields start 0 0 bounded_zero (by omega)
  rwa [show start.value = 0 from rfl, Hops.zero_add] at hvalue

end HopWords

/-! ## Further fields -/

/-- A path that has at least the fields of another one keeps its hops. -/
theorem accepted_of_subset (sets : KeywordScopes) (segment longer : String)
    (hsub : (ViaPath.ofSegment segment).fields ⊆ (ViaPath.ofSegment longer).fields)
    (h : (accountIn sets segment).accepted = true) : (accountIn sets longer).accepted = true := by
  rcases (accepted_accountIn_iff sets segment).1 h with ⟨field, hfield, hremaining⟩
  exact (accepted_accountIn_iff sets longer).2 ⟨field, hsub hfield, hremaining⟩

-- What a test lets pass of a text is let pass when the text goes on.
theorem takeWhile_prefix_append {α : Type} (p : α → Bool) (xs ys : List α) :
    xs.takeWhile p <+: (xs ++ ys).takeWhile p := by
  rw [List.takeWhile_append]
  split
  · exact (List.takeWhile_prefix p).trans (List.prefix_append xs _)
  · exact List.prefix_rfl

-- Pieces in front of others are read the same way, as far as they go.
theorem fields_prefix_of_pieces (segment longer : String)
    (h : ViaPath.pieces segment <+: ViaPath.pieces longer) :
    (ViaPath.ofSegment segment).fields <+: (ViaPath.ofSegment longer).fields := by
  rcases h with ⟨more, hmore⟩
  rw [ViaPath.ofSegment, ViaPath.ofSegment, ViaPath.fields_scan, ViaPath.fields_scan, ← hmore]
  exact ((takeWhile_prefix_append _ _ _).filter _).map _

/-- The fields of a path stay in front when further fields are put behind it,
    whether or not a `:` ends the segment. -/
theorem fields_prefix_append (path more ending : String) (hending : ending = "" ∨ ending = ":") :
    (ViaPath.ofSegment (path ++ ending)).fields <+:
      (ViaPath.ofSegment (path ++ "," ++ more ++ ending)).fields := by
  apply fields_prefix_of_pieces
  unfold ViaPath.pieces
  rw [String.append_assoc, String.append_assoc, String.toList_append, String.toList_append,
    List.takeWhile_append, List.takeWhile_append]
  by_cases hwhole : (path.toList.takeWhile (· != ':')).length = path.toList.length
  · -- The comma behind the path parts its pieces from the others.
    have hnone : ending.toList.takeWhile (· != ':') = [] := by
      rcases hending with rfl | rfl <;> rfl
    have hcomma : ("," ++ (more ++ ending)).toList = ',' :: (more ++ ending).toList := by
      rw [String.toList_append]
      rfl
    rw [if_pos hwhole, if_pos hwhole, hcomma, List.takeWhile_cons_of_pos (by decide),
      List.splitOn_append_cons_self, hnone, List.append_nil]
    exact List.prefix_append _ _
  · -- A path with a `:` of its own ends there in both segments.
    simp only [if_neg hwhole]
    exact List.prefix_rfl

section

variable (segment : String) (source : Source) (digipeater : Digipeater)

/-- The counters of a path, for any source of any digipeater. They are the sum
    of what the fields that count contribute, so a path with the same fields in
    another order has the same counters. After each field they are bounded by
    the number of fields so far. If there are no more than 306783378 fields,
    words of 32 bits hold them at every step and decide as they do. Fields that
    are put behind a path take away no hop that is left. -/
theorem accountPath_totals :
    (accountPath segment source digipeater).hops =
        totalHops (scopeSet source digipeater) (ViaPath.ofSegment segment).fields ∧
      (∀ other, (ViaPath.ofSegment other).fields.Perm (ViaPath.ofSegment segment).fields →
        (accountPath other source digipeater).hops =
          (accountPath segment source digipeater).hops) ∧
      (∀ k ≤ (ViaPath.ofSegment segment).fields.length,
        (totalHops (scopeSet source digipeater)
          ((ViaPath.ofSegment segment).fields.take k)).Bounded k
            (((ViaPath.ofSegment segment).fields.take k).countP
              (isKeyed (scopeSet source digipeater)))) ∧
      ((ViaPath.ofSegment segment).fields.length ≤ 306783378 →
        (∀ k ≤ (ViaPath.ofSegment segment).fields.length,
          (HopWords.count (scopeSet source digipeater)
            ((ViaPath.ofSegment segment).fields.take k)).value =
              totalHops (scopeSet source digipeater)
                ((ViaPath.ofSegment segment).fields.take k)) ∧
        (HopWords.count (scopeSet source digipeater)
          (ViaPath.ofSegment segment).fields).remaining =
            (accountPath segment source digipeater).accepted) ∧
      (∀ path more ending, ending = "" ∨ ending = ":" → segment = path ++ ending →
        (accountPath segment source digipeater).accepted = true →
          (accountPath (path ++ "," ++ more ++ ending) source digipeater).accepted = true) := by
  have hsum := fun segment => hops_accountIn (scopeSet source digipeater) segment
  refine ⟨hsum segment, ?_, ?_, ?_, ?_⟩
  · intro other hperm
    rw [accountPath, accountPath, hsum, hsum]
    exact totalHops_perm _ _ _ hperm
  · intro k hk
    have hbounded := bounded_totalHops (scopeSet source digipeater)
      ((ViaPath.ofSegment segment).fields.take k)
    rwa [List.length_take_of_le hk] at hbounded
  · intro hlength
    constructor
    · intro k hk
      exact HopWords.value_count _ _ (Nat.le_trans (List.length_take_le' k _) hlength)
    · rw [HopWords.remaining_eq, HopWords.value_count _ _ hlength, ← hsum]
      rfl
  · intro path more ending hending hsegment h
    rw [hsegment] at h
    exact accepted_of_subset _ _ _ (fields_prefix_append path more ending hending).subset h

end

/-- A source without keywords of its own. -/
def keylessSource : Source :=
  ⟨⟨0⟩, ⟨0⟩, ⟨0⟩, .unset, [], none, none⟩

/-- A digipeater with the standard keywords. -/
def standardDigipeater : Digipeater :=
  ⟨⟨0⟩, ⟨0⟩, standardRateLimit, 0, .standard .trace, .standard .wide, [⟨0⟩]⟩

/-- A path of three fields of which the first takes the count of done hops below
    zero, in two orders, and with a field put behind it that is used up. -/
theorem accountPath_totals_plain :
    (ViaPath.ofSegment "WIDE2-1,OH7RDA*,WIDE1-7:").fields.Perm
        (ViaPath.ofSegment "WIDE1-7,OH7RDA*,WIDE2-1:").fields ∧
      (accountPath "WIDE2-1,OH7RDA*,WIDE1-7:" keylessSource standardDigipeater).hops =
        (accountPath "WIDE1-7,OH7RDA*,WIDE2-1:" keylessSource standardDigipeater).hops ∧
      (ViaPath.ofSegment "WIDE1-7,OH7RDA*,WIDE2-1:").fields.length ≤ 306783378 ∧
      (HopWords.count (scopeSet keylessSource standardDigipeater)
        (ViaPath.ofSegment "WIDE1-7,OH7RDA*,WIDE2-1:").fields).remaining =
          (accountPath "WIDE1-7,OH7RDA*,WIDE2-1:" keylessSource standardDigipeater).accepted ∧
      (accountPath "WIDE1-7,OH7RDA*,WIDE2-1:" keylessSource standardDigipeater).accepted = true ∧
      (accountPath ("WIDE1-7,OH7RDA*,WIDE2-1" ++ "," ++ "WIDE7*" ++ ":") keylessSource
        standardDigipeater).accepted = true := by
  have hperm : (ViaPath.ofSegment "WIDE2-1,OH7RDA*,WIDE1-7:").fields.Perm
      (ViaPath.ofSegment "WIDE1-7,OH7RDA*,WIDE2-1:").fields := by decide +kernel
  have hlength : (ViaPath.ofSegment "WIDE1-7,OH7RDA*,WIDE2-1:").fields.length ≤ 306783378 := by
    decide +kernel
  have haccepted : (accountPath "WIDE1-7,OH7RDA*,WIDE2-1:" keylessSource
      standardDigipeater).accepted = true := by decide +kernel
  have htotals := accountPath_totals "WIDE1-7,OH7RDA*,WIDE2-1:" keylessSource standardDigipeater
  exact ⟨hperm, htotals.2.1 _ hperm, hlength, (htotals.2.2.2.1 hlength).2, haccepted,
    htotals.2.2.2.2 "WIDE1-7,OH7RDA*,WIDE2-1" "WIDE7*" ":" (Or.inr rfl) rfl haccepted⟩

end AprsRelay
