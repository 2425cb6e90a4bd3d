import AprsRelay.Via.Account

/-!
# Counters in Words

A machine keeps the counters of a path in words of 32 bits. A sum that is too
large or too small for a word wraps around, or, where sums are checked, counting
stops there. Of a sum that fits both hold the exact value.

What a field contributes is small, but the words to which it is added may hold
any numbers, so whether a sum fits is a matter of both.

## Main definitions

* `HopWords`: Counters in words of 32 bits.
* `HopWords.value`: The numbers that the words hold.
* `HopWords.add`, `HopWords.addChecked?`: Words to which a contribution is
  added, by sums that wrap around and by sums that are checked.
* `HopWords.countField`, `HopWords.countFieldChecked?`: Words with a field
  added, and the way the field was read.
* `HopWords.countKeyed`, `HopWords.count`: The words after one field and after
  a number of fields, for given keyword sets.
* `Hops.Fits`, `Hops.wrapped`: Counters that fit words, and what words hold of
  those that do not.

## Theorems

* `HopWords.value_add_eq_wrapped`: Sums wrap around.
* `HopWords.value_add_of_fits`: Sums that fit are exact.
* `HopWords.addChecked?_eq`: Checked sums are there exactly if they fit.
* `HopWords.remaining_eq`: Words are compared like the numbers that they hold.
-/

namespace AprsRelay

/-- Whether a number can be held by a word of 32 bits. -/
def FitsWord (x : Int) : Prop :=
  -2147483648 ≤ x ∧ x ≤ 2147483647

instance (x : Int) : Decidable (FitsWord x) :=
  inferInstanceAs (Decidable (_ ∧ _))

/-- A word to which a number is added by a sum that is checked; none if the sum
    does not fit. -/
def addWord? (word : Int32) (x : Int) : Option Int32 :=
  if FitsWord (word.toInt + x) then some (.ofInt (word.toInt + x)) else none

/-- Counters in words of 32 bits. -/
structure HopWords where
  requested : Int32
  completed : Int32
  traces : Int32
  deriving DecidableEq, Repr

namespace Hops

/-- Counters of which each fits a word. -/
def Fits (h : Hops) : Prop :=
  FitsWord h.requested ∧ FitsWord h.completed ∧ FitsWord h.traces

instance (h : Hops) : Decidable h.Fits :=
  inferInstanceAs (Decidable (_ ∧ _ ∧ _))

/-- What words hold of counters: numbers that are two to the 32 apart are held
    alike, half of them as numbers below zero. -/
def wrapped (h : Hops) : Hops :=
  ⟨h.requested.bmod 4294967296, h.completed.bmod 4294967296, h.traces.bmod 4294967296⟩

end Hops

namespace HopWords

/-- The words before the first field. -/
def start : HopWords :=
  ⟨0, 0, 0⟩

/-- The numbers that the words hold. -/
def value (w : HopWords) : Hops :=
  ⟨w.requested.toInt, w.completed.toInt, w.traces.toInt⟩

/-- Whether more hops were asked for than are done, as words are compared. -/
def remaining (w : HopWords) : Bool :=
  w.completed < w.requested

/-- Words to which a contribution is added. What is too large for a word wraps
    around. -/
def add (w : HopWords) (h : Hops) : HopWords :=
  ⟨w.requested + .ofInt h.requested, w.completed + .ofInt h.completed,
    w.traces + .ofInt h.traces⟩

/-- Words to which a contribution is added by sums that are checked; none if
    one of them does not fit. -/
def addChecked? (w : HopWords) (h : Hops) : Option HopWords := do
  let requested ← addWord? w.requested h.requested
  let completed ← addWord? w.completed h.completed
  let traces ← addWord? w.traces h.traces
  return ⟨requested, completed, traces⟩

/-- The words with a field added whose keyword has the given length, and the
    way the field was read. -/
def countField (w : HopWords) (field : Bytes) (keyLength : Nat) : HopWords × HopCase :=
  (w.add (.ofField field keyLength), .ofField field keyLength)

/-- The same by sums that are checked; none if counting stops at the field. -/
def countFieldChecked? (w : HopWords) (field : Bytes) (keyLength : Nat) :
    Option (HopWords × HopCase) :=
  (w.addChecked? (.ofField field keyLength)).map fun sum => (sum, .ofField field keyLength)

/-- The words with a field added, for the given keyword sets. -/
def countKeyed (sets : KeywordScopes) (w : HopWords) (field : String) : HopWords :=
  (w.countField (Text.utf8 field.toList) (keyLength sets field)).1

/-- The words after the given fields. -/
def count (sets : KeywordScopes) (fields : List String) : HopWords :=
  fields.foldl (countKeyed sets) start

end HopWords

/-! ## Sums of words -/

theorem toInt_add_ofInt (word : Int32) (x : Int) :
    (word + .ofInt x).toInt = (word.toInt + x).bmod 4294967296 := by
  have hsum : word + .ofInt x = .ofInt (word.toInt + x) := by
    rw [Int32.ofInt_add, Int32.ofInt_toInt]
  rw [hsum]
  exact Int32.toInt_ofInt

theorem bmod_of_fitsWord (x : Int) (h : FitsWord x) : x.bmod 4294967296 = x := by
  rcases h with ⟨hlow, hhigh⟩
  exact Int.bmod_eq_of_le (by omega) (by omega)

theorem addWord?_of_fitsWord (word : Int32) (x : Int) (h : FitsWord (word.toInt + x)) :
    addWord? word x = some (word + .ofInt x) := by
  rw [addWord?, if_pos h, Int32.ofInt_add, Int32.ofInt_toInt]

namespace Hops

theorem wrapped_of_fits (h : Hops) (hfits : h.Fits) : h.wrapped = h := by
  rcases hfits with ⟨hr, hc, ht⟩
  ext
  · exact bmod_of_fitsWord _ hr
  · exact bmod_of_fitsWord _ hc
  · exact bmod_of_fitsWord _ ht

end Hops

namespace HopWords

variable (w : HopWords) (h : Hops)

/-- Each of the three sums wraps around on its own. -/
theorem value_add_eq_wrapped : (w.add h).value = (w.value + h).wrapped := by
  ext
  · exact toInt_add_ofInt _ _
  · exact toInt_add_ofInt _ _
  · exact toInt_add_ofInt _ _

/-- Sums that fit are exact. -/
theorem value_add_of_fits (hfits : (w.value + h).Fits) : (w.add h).value = w.value + h := by
  rw [value_add_eq_wrapped, Hops.wrapped_of_fits _ hfits]

/-- Sums that are checked are there exactly if all of them fit, and then they
    are the sums that wrap around. -/
theorem addChecked?_eq :
    w.addChecked? h = if (w.value + h).Fits then some (w.add h) else none := by
  unfold addChecked?
  split
  · next hfits =>
      rcases hfits with ⟨hr, hc, ht⟩
      rw [addWord?_of_fitsWord _ _ hr, addWord?_of_fitsWord _ _ hc, addWord?_of_fitsWord _ _ ht]
      rfl
  · next hfits =>
      -- One of the three sums does not fit, and the others cannot make up for it.
      by_cases hr : FitsWord (w.requested.toInt + h.requested)
      · by_cases hc : FitsWord (w.completed.toInt + h.completed)
        · have ht : ¬ FitsWord (w.traces.toInt + h.traces) := fun ht => hfits ⟨hr, hc, ht⟩
          simp [addWord?, hr, hc, ht]
        · simp [addWord?, hr, hc]
      · simp [addWord?, hr]

-- What a field adds to words is what it adds to exact counters.
theorem countKeyed_eq (sets : KeywordScopes) (field : String) :
    countKeyed sets w field = w.add (fieldHops sets field) := rfl

/-- Words are compared like the numbers that they hold. -/
theorem remaining_eq : w.remaining = w.value.remaining := by
  unfold remaining Hops.remaining value
  simp only [Int32.lt_iff_toInt_lt]

end HopWords

end AprsRelay
